import SqlPredicates.Parser
import SqlPredicates.Rule.Expr

/-!
# Reading naming rules

Expressions are read by binding powers. An operand is read with the least power that an operator must
have to be taken into it; operators that bind less strongly are left for the caller.

The recursion goes through `exprWithin`, whose first argument is the number of nested operand readings
still allowed. All other readers take the reader of operands as an argument. The loops are bounded by
the number of remaining tokens, of which every round takes at least one.

## Main definitions

* `Rule.exprWithin` — an expression within a number of levels
* `Parser.expr`, `Parser.rule` — an expression, and an expression that takes up the whole text
* `parseRule` — the tree of a text
-/

namespace SqlPredicates

namespace Rule

open SqlPredicates.Parser

variable (operand : Nat → Reads Expr)

/-- Reads a literal. -/
def leaf (e : Expr) : Reads Expr := do
  let _ ← advance
  setHeight 1
  return e

/-- Reads the arguments of a call from the first one on, and the closing parenthesis. The last part of
the result is the height of the highest argument. -/
def arguments : Nat → Reads (List Expr × Token × Nat)
  | 0 => unexpected .commaOrClosing
  | n + 1 => do
    let e ← operand 0
    let height ← lastHeight
    match ← eat? (.symbol .closing) with
    | some closing => return ([e], closing, height)
    | none =>
      match ← eat? (.symbol .comma) with
      | some _ =>
        let (es, closing, tallest) ← arguments n
        return (e :: es, closing, max height tallest)
      | none => unexpected .commaOrClosing

/-- Reads the arguments of a call, of which there may be none, and the closing parenthesis. -/
def closedArguments : Reads (List Expr × Token × Nat) := do
  match ← eat? (.symbol .closing) with
  | some closing => return ([], closing, 0)
  | none => arguments operand (← remaining)

/-- Reads the parenthesised arguments of a call. -/
def argumentList : Reads (List Expr × Span) := do
  let opening ← expect (.symbol .opening)
  let (args, closing, tallest) ← closedArguments operand
  setHeight (← nodeHeight tallest opening.span.start)
  return (args, opening.span.cover closing.span)

/-- Reads a name, and the arguments if it is called. -/
def reference (ident : Ident) : Reads Expr := do
  let _ ← advance
  let token ← look
  if token.kind = .symbol .opening then
    let (args, argsSpan) ← argumentList operand
    wrap ident.span.start
    return .call ident args argsSpan (ident.span.cover argsSpan)
  else
    setHeight 1
    return .var ident

/-- Reads an expression in parentheses. -/
def parenthesised : Reads Expr := do
  let opening ← expect (.symbol .opening)
  let inner ← operand 0
  wrap opening.span.start
  let closing ← expect (.symbol .closing)
  return .paren inner (opening.span.cover closing.span)

/-- Reads an operator and the operand after it. -/
def prefixed (op : UnaryOp) : Reads Expr := do
  let token ← advance
  let inner ← operand op.power
  wrap token.span.start
  return .unary op inner (token.span.cover inner.span)

/-- Reads an expression that is no binary operation. -/
def primary : Reads Expr := do
  let token ← look
  match token.kind with
  | .integer value => leaf (.integer value token.span)
  | .string value => leaf (.string value token.span)
  | .identifier name => reference operand ⟨name, token.span⟩
  | .symbol .opening => parenthesised operand
  | kind =>
    match UnaryOp.ofKind? kind with
    | some op => prefixed operand op
    | none => unexpected .expression

/-- Reads the operators, with their right operands, that follow an expression and bind at least as
strongly as `least`. The height of the expression goes along with it. -/
def operations (least : Nat) : Nat → Expr → Nat → Reads (Expr × Nat)
  | 0, lhs, height => return (lhs, height)
  | n + 1, lhs, height => do
    let token ← look
    match BinaryOp.ofKind? token.kind with
    | none => return (lhs, height)
    | some op =>
      if op.leftPower < least then return (lhs, height)
      else
        let _ ← advance
        let rhs ← operand op.rightPower
        let height ← nodeHeight (max height (← lastHeight)) token.span.start
        operations least n (.binary op lhs rhs (lhs.span.cover rhs.span)) height

/-- Reads an expression, and the operators after it that bind at least as strongly as `least`. -/
def chain (least : Nat) : Reads Expr := do
  let lhs ← primary operand
  let measured ← operations operand least (← remaining) lhs (← lastHeight)
  note measured

/-- Reads an expression whose operators bind at least as strongly as `least`. -/
def exprWithin : Nat → Nat → Reads Expr
  | 0, _ => tooDeep
  | levels + 1, least => do
    enter
    let e ← chain (exprWithin levels) least
    leave
    return e

end Rule

namespace Parser

/-- Reads an expression. -/
def expr : Reads Expr := do
  Rule.exprWithin (← levels) 0

/-- Reads an expression that takes up the whole text. -/
def rule : Reads Expr := whole expr

end Parser

/-- The expression that a text spells. -/
def parseRule (text : String) : Except SyntaxError Expr := Parser.run Parser.rule text

end SqlPredicates
