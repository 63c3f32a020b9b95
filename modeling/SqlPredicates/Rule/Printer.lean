import SqlPredicates.Rule.Expr

/-!
# Text of expressions

The canonical text of an expression spells every operator in one way and separates tokens by single
blanks. It writes the parentheses of the tree and no others. The outline of an expression is its
structure as nested lists, with the operator in front.

## Main definitions

* `Expr.render`, `Expr.renderArgs` — the canonical text
* `Expr.outline`, `Expr.outlineArgs` — the nested lists
-/

namespace SqlPredicates

namespace Expr

/-- Whether an expression is an operator in front of an operand. -/
def isUnary : Expr → Bool
  | unary .. => true
  | _ => false

mutual

/-- The canonical text. Two minus signs in a row would begin a comment, so a minus sign before another
prefix operator is followed by a blank. -/
def render : Expr → String
  | integer value _ => toString value.toNat
  | string value _ => value.render
  | var ident => renderName ident.name
  | call ident args _ _ => renderName ident.name ++ "(" ++ renderArgs args ++ ")"
  | paren inner _ => "(" ++ inner.render ++ ")"
  | unary .not operand _ => "NOT " ++ operand.render
  | unary .neg operand _ => (if operand.isUnary then "- " else "-") ++ operand.render
  | binary op lhs rhs _ => lhs.render ++ " " ++ op.text ++ " " ++ rhs.render

/-- The canonical text of arguments, separated by commas. -/
def renderArgs : List Expr → String
  | [] => ""
  | [e] => e.render
  | e :: es => e.render ++ ", " ++ renderArgs es

end

theorem renderArgs_cons_cons (e e' : Expr) (es : List Expr) :
    renderArgs (e :: e' :: es) = e.render ++ ", " ++ renderArgs (e' :: es) := by
  rw [renderArgs]
  simp

/-- The word for a prefix operator in an outline. -/
def outlineHead : UnaryOp → String
  | .not => "NOT"
  | .neg => "neg"

mutual

/-- The structure of an expression, without places. -/
def outline : Expr → String
  | integer value _ => toString value.toNat
  | string value _ => value.render
  | var ident => renderName ident.name
  | call ident args _ _ => "(call " ++ renderName ident.name ++ outlineArgs args ++ ")"
  | paren inner _ => "(paren " ++ inner.outline ++ ")"
  | unary op operand _ => "(" ++ outlineHead op ++ " " ++ operand.outline ++ ")"
  | binary op lhs rhs _ => "(" ++ op.text ++ " " ++ lhs.outline ++ " " ++ rhs.outline ++ ")"

/-- The outlines of arguments, each after a blank. -/
def outlineArgs : List Expr → String
  | [] => ""
  | e :: es => " " ++ e.outline ++ outlineArgs es

end

end Expr

end SqlPredicates
