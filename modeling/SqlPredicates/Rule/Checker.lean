import SqlPredicates.Rule.Expr
import SqlPredicates.Rule.Function

/-!
# Checking rules

Before a rule is used, its variables and functions are resolved and its types are inferred. The
checker works on a stack: visiting an expression leaves one entry on it, which is the type of the
expression, or nothing if the type cannot be known. An unknown type causes no further complaints.

Taking an entry from an empty stack is not possible, so the operations on the stack return an option,
and so does a visit.

## Main definitions

* `CheckError` — the complaints
* `Checker`, `Checker.visit`, `Checker.infer` — the stack, a visit, and the type of an expression
* `checkRule` — the complaints about a rule
-/

namespace SqlPredicates

/-- What is wrong with a rule. -/
inductive CheckError where
  | unknownVariable (name : String) (span : Span)
  | unknownFunction (name : String) (span : Span)
  | arityMismatch (name : String) (expected found : Nat) (span : Span)
  | argumentType (name : String) (index : Nat) (expected found : Ty) (span : Span)
  | operatorType (operation : Operation) (span : Span)
  | integerOverflow (value : UInt64) (span : Span)
  | notABoolean (found : Ty) (span : Span)
  deriving DecidableEq, Repr

namespace CheckError

/-- The place of a complaint. -/
def span : CheckError → Span
  | unknownVariable _ span => span
  | unknownFunction _ span => span
  | arityMismatch _ _ _ span => span
  | argumentType _ _ _ _ span => span
  | operatorType _ span => span
  | integerOverflow _ span => span
  | notABoolean _ span => span

/-- The wording of a complaint. -/
def message : CheckError → String
  | unknownVariable name _ => "cannot resolve variable `" ++ name ++ "`"
  | unknownFunction name _ => "cannot resolve function `" ++ name ++ "`"
  | arityMismatch name expected found _ =>
    "function `" ++ name ++ "` takes " ++ toString expected ++ " argument(s) but "
      ++ toString found ++ " were supplied"
  | argumentType name index expected found _ =>
    "argument " ++ toString index ++ " of `" ++ name ++ "` must be " ++ expected.name
      ++ ", found " ++ found.name
  | operatorType operation _ => operation.message
  | integerOverflow value _ => "integer literal `" ++ toString value.toNat ++ "` is too large"
  | notABoolean found _ => "a rule must be boolean, found " ++ found.name

end CheckError

/-- The types of the expressions visited, the last one first, and the complaints in the order they
were made. -/
structure Checker where
  types : List (Option Ty)
  errors : List CheckError
  deriving DecidableEq

namespace Checker

/-- A checker that has seen nothing. -/
def fresh : Checker := ⟨[], []⟩

/-- Puts the type of an expression on the stack. -/
def push (ty : Option Ty) (c : Checker) : Checker := { c with types := ty :: c.types }

/-- Takes the last type from the stack. -/
def pop? (c : Checker) : Option (Option Ty × Checker) :=
  match c.types with
  | [] => none
  | ty :: types => some (ty, { c with types })

/-- Takes the last `n` types from the stack, in the order they were put there. -/
def popMany? (n : Nat) (c : Checker) : Option (List (Option Ty) × Checker) :=
  if n ≤ c.types.length then
    some ((c.types.take n).reverse, { c with types := c.types.drop n })
  else none

/-- Adds complaints. -/
def complain (errors : List CheckError) (c : Checker) : Checker :=
  { c with errors := c.errors ++ errors }

/-- The complaints about the arguments of a call, which are counted from `index`. Arguments of
unknown type are passed over. -/
def argumentErrors (name : String) : Nat → List (Option Ty) → List Ty → List Expr → List CheckError
  | index, found :: founds, expected :: expecteds, arg :: args =>
    let rest := argumentErrors name (index + 1) founds expecteds args
    match found with
    | none => rest
    | some ty =>
      if ty = expected then rest else .argumentType name index expected ty arg.span :: rest
  | _, _, _, _ => []

/-- The type of a call with arguments of the given types, and the complaints about it. A call of a
known function has its result type, whatever its arguments are. -/
def callType (registry : Registry) (ident : Ident) (args : List Expr) (span : Span)
    (types : List (Option Ty)) : Option Ty × List CheckError :=
  match registry.get? ident.name with
  | none => (none, [.unknownFunction ident.name ident.span])
  | some f =>
    let errors :=
      if f.arity = types.length then argumentErrors f.ident 1 types f.params args
      else [.arityMismatch f.ident f.arity types.length span]
    (some f.result, errors)

/-- The type of a prefix operation, and the complaints about it. -/
def unaryType (op : UnaryOp) (span : Span) : Option Ty → Option Ty × List CheckError
  | none => (none, [])
  | some operand =>
    match Ty.unary? op operand with
    | some ty => (some ty, [])
    | none => (none, [.operatorType (.unary op operand) span])

/-- The type of a binary operation, and the complaints about it. -/
def binaryType (op : BinaryOp) (span : Span) : Option Ty → Option Ty → Option Ty × List CheckError
  | some lhs, some rhs =>
    match Ty.binary? op lhs rhs with
    | some ty => (some ty, [])
    | none => (none, [.operatorType (.binary op lhs rhs) span])
  | _, _ => (none, [])

/-- The type of a variable, and the complaints about it. -/
def variableType (ident : Ident) : Option Ty × List CheckError :=
  match Variable.ofName? ident.name with
  | some _ => (some .string, [])
  | none => (none, [.unknownVariable ident.name ident.span])

/-- The complaints about an integer literal. -/
def literalErrors (value : UInt64) (span : Span) : List CheckError :=
  if value.toNat < 0x8000000000000000 then [] else [.integerOverflow value span]

/-- Puts an inferred type on the stack and adds the complaints. -/
def conclude (r : Option Ty × List CheckError) (c : Checker) : Checker :=
  (c.complain r.2).push r.1

mutual

/-- Visits an expression, leaving its type on the stack. -/
def visit (registry : Registry) : Expr → Checker → Option Checker
  | .integer value span, c => some (c.conclude (some .integer, literalErrors value span))
  | .string _ _, c => some (c.conclude (some .string, []))
  | .var ident, c => some (c.conclude (variableType ident))
  | .call ident args _ span, c => do
    let c ← visitAll registry args c
    let (types, c) ← c.popMany? args.length
    return c.conclude (callType registry ident args span types)
  | .paren inner _, c => visit registry inner c
  | .unary op operand span, c => do
    let c ← visit registry operand c
    let (ty, c) ← c.pop?
    return c.conclude (unaryType op span ty)
  | .binary op lhs rhs span, c => do
    let c ← visit registry lhs c
    let c ← visit registry rhs c
    let (right, c) ← c.pop?
    let (left, c) ← c.pop?
    return c.conclude (binaryType op span left right)

/-- Visits expressions one after the other, leaving their types on the stack. -/
def visitAll (registry : Registry) : List Expr → Checker → Option Checker
  | [], c => some c
  | e :: es, c => do
    let c ← visit registry e c
    visitAll registry es c

end

/-- The type of an expression as an entry of the stack, and the checker afterwards. -/
def infer? (registry : Registry) (e : Expr) (c : Checker) : Option (Option Ty × Checker) := do
  let c ← c.visit registry e
  c.pop?

/-- The type of an expression, if it can be known, and the checker afterwards. -/
def infer (registry : Registry) (e : Expr) (c : Checker) : Option Ty × Checker :=
  (c.infer? registry e).getD (none, c)

end Checker

/-- The type of an expression, if it can be known, and the complaints about it. -/
def inferType (registry : Registry) (e : Expr) : Option Ty × List CheckError :=
  let r := Checker.fresh.infer registry e
  (r.1, r.2.errors)

/-- The complaints about a rule, which has to be boolean. -/
def checkRule (registry : Registry) (e : Expr) : List CheckError :=
  match inferType registry e with
  | (some .boolean, errors) => errors
  | (none, errors) => errors
  | (some found, errors) => errors ++ [.notABoolean found e.span]

end SqlPredicates
