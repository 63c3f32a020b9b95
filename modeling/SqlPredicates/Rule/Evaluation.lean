import SqlPredicates.Like
import SqlPredicates.Rule.Expr
import SqlPredicates.Rule.Function

/-!
# Evaluating rules

A rule is evaluated for an object. Operands are evaluated from left to right; `AND` and `OR` leave out
the right operand when the left one decides. Strings are compared in lowercase. Integer results
outside of the 64-bit range and divisions by zero are errors, as is everything that a check would have
complained about.

## Main definitions

* `EvalError` — why an evaluation fails
* `Value.compare?` — the order of two values of one type
* `Expr.eval` — the value of an expression
* `evaluateRule` — whether an object satisfies a rule
-/

namespace SqlPredicates

/-- Why an evaluation fails. -/
inductive EvalError where
  | unknownVariable (name : String) (span : Span)
  | unknownFunction (name : String) (span : Span)
  | arityMismatch (name : String) (expected found : Nat) (span : Span)
  | callFailed (name : String) (cause : CallError) (span : Span)
  | operatorType (operation : Operation) (span : Span)
  | divisionByZero (span : Span)
  | integerOverflow (span : Span)
  | notABoolean (found : Ty) (span : Span)
  deriving DecidableEq, Repr

namespace EvalError

/-- The place of a failure. -/
def span : EvalError → Span
  | unknownVariable _ span => span
  | unknownFunction _ span => span
  | arityMismatch _ _ _ span => span
  | callFailed _ _ span => span
  | operatorType _ span => span
  | divisionByZero span => span
  | integerOverflow span => span
  | notABoolean _ span => span

/-- The wording of a failure. -/
def message : EvalError → String
  | unknownVariable name _ => "cannot resolve variable `" ++ name ++ "`"
  | unknownFunction name _ => "cannot resolve function `" ++ name ++ "`"
  | arityMismatch name expected found _ =>
    "function `" ++ name ++ "` takes " ++ toString expected ++ " argument(s) but "
      ++ toString found ++ " were supplied"
  | callFailed name cause _ => "in call to `" ++ name ++ "`: " ++ cause.message
  | operatorType operation _ => operation.message
  | divisionByZero _ => "division by zero"
  | integerOverflow _ => "integer overflow"
  | notABoolean found _ => "a rule must be boolean, found " ++ found.name

end EvalError

namespace Value

/-- The order of two values of one type. Strings are compared in lowercase, by code points. -/
def compare? : Value → Value → Option Ordering
  | integer a, integer b => some (compare a.toInt b.toInt)
  | string a, string b => some (compare (Text.lowercase a) (Text.lowercase b))
  | boolean a, boolean b => some (compare a b)
  | _, _ => none

end Value

namespace Evaluation

/-- The integer result of an operation, if it is in range. -/
def inRange (span : Span) (n : Int) : Except EvalError Value :=
  match Value.ofInt? n with
  | some v => .ok v
  | none => .error (.integerOverflow span)

/-- Applies a prefix operator. -/
def unary (op : UnaryOp) (span : Span) : Value → Except EvalError Value
  | .boolean b => match op with
    | .not => .ok (.boolean !b)
    | .neg => .error (.operatorType (.unary .neg .boolean) span)
  | .integer n => match op with
    | .neg => inRange span (-n.toInt)
    | .not => .error (.operatorType (.unary .not .integer) span)
  | .string _ => .error (.operatorType (.unary op .string) span)

/-- Divides toward zero, or takes the remainder of that division. The quotient must be in range in
both cases. -/
def divide (span : Span) (a b : Int) (result : Int) : Except EvalError Value :=
  if b = 0 then .error (.divisionByZero span)
  else do
    let _ ← inRange span (a.tdiv b)
    inRange span result

/-- Applies an arithmetic operator to two integers; other operators do not apply. -/
def arithmetic (op : BinaryOp) (span : Span) (a b : Int) : Except EvalError Value :=
  match op with
  | .add => inRange span (a + b)
  | .subtract => inRange span (a - b)
  | .multiply => inRange span (a * b)
  | .divide => divide span a b (a.tdiv b)
  | .remainder => divide span a b (a.tmod b)
  | _ => .error (.operatorType (.binary op .integer .integer) span)

/-- Whether an operator compares by order. -/
def ordered? : BinaryOp → Option (Ordering → Bool)
  | .less => some Ordering.isLT
  | .lessEqual => some Ordering.isLE
  | .greater => some Ordering.isGT
  | .greaterEqual => some Ordering.isGE
  | _ => none

/-- Applies a binary operator to two values. -/
def binary (op : BinaryOp) (span : Span) (lhs rhs : Value) : Except EvalError Value :=
  let mismatch : Except EvalError Value := .error (.operatorType (.binary op lhs.ty rhs.ty) span)
  match op with
  | .and | .or =>
    match lhs, rhs with
    | .boolean _, .boolean b => .ok (.boolean b)
    | _, _ => mismatch
  | .equal =>
    match lhs.compare? rhs with
    | some o => .ok (.boolean o.isEq)
    | none => mismatch
  | .notEqual =>
    match lhs.compare? rhs with
    | some o => .ok (.boolean !o.isEq)
    | none => mismatch
  | .less | .lessEqual | .greater | .greaterEqual =>
    match lhs with
    | .boolean _ => mismatch
    | _ =>
      match ordered? op, lhs.compare? rhs with
      | some holds, some o => .ok (.boolean (holds o))
      | _, _ => mismatch
  | .like =>
    match lhs, rhs with
    | .string text, .string pattern => .ok (.boolean (like text pattern))
    | _, _ => mismatch
  | .add =>
    match lhs, rhs with
    | .string a, .string b => .ok (.string (a ++ b))
    | .integer a, .integer b => arithmetic op span a.toInt b.toInt
    | _, _ => mismatch
  | .subtract | .multiply | .divide | .remainder =>
    match lhs, rhs with
    | .integer a, .integer b => arithmetic op span a.toInt b.toInt
    | _, _ => mismatch

/-- The value of a logical operation that is decided by its left operand. -/
def decided? : BinaryOp → Value → Option Value
  | .and, .boolean false => some (.boolean false)
  | .or, .boolean true => some (.boolean true)
  | _, _ => none

end Evaluation

namespace Expr

mutual

/-- The value of an expression for an object. -/
def eval (registry : Registry) (object : ObjectName) : Expr → Except EvalError Value
  | integer value span => Evaluation.inRange span value.toNat
  | string value _ => .ok (.string value.text)
  | var ident =>
    match Variable.ofName? ident.name with
    | some v => .ok (.string (object.get v))
    | none => .error (.unknownVariable ident.name ident.span)
  | call ident args _ span =>
    match registry.get? ident.name with
    | none => .error (.unknownFunction ident.name ident.span)
    | some f =>
      if f.arity = args.length then do
        let values ← evalAll registry object args
        match f.call values with
        | .ok v => return v
        | .error cause => throw (.callFailed f.ident cause span)
      else .error (.arityMismatch f.ident f.arity args.length span)
  | paren inner _ => eval registry object inner
  | unary op operand span => do
    let v ← eval registry object operand
    Evaluation.unary op span v
  | binary op lhs rhs span => do
    let l ← eval registry object lhs
    match Evaluation.decided? op l with
    | some v => return v
    | none =>
      let r ← eval registry object rhs
      Evaluation.binary op span l r

/-- The values of expressions, evaluated one after the other. -/
def evalAll (registry : Registry) (object : ObjectName) : List Expr → Except EvalError (List Value)
  | [] => .ok []
  | e :: es => do
    let v ← eval registry object e
    let vs ← evalAll registry object es
    return v :: vs

end

end Expr

/-- Whether an object satisfies a rule. -/
def evaluateRule (registry : Registry) (object : ObjectName) (rule : Expr) : Except EvalError Bool := do
  match ← rule.eval registry object with
  | .boolean b => return b
  | other => throw (.notABoolean other.ty rule.span)

end SqlPredicates
