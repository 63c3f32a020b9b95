import SqlPredicates.Rule.Checker
import Mathlib.Tactic.Common

/-!
# What a visit leaves behind

The checker keeps its types on a stack. A visit of an expression never looks below the place where
it started and leaves exactly one entry, so what it leaves is a function of the expression alone:
`Expr.assess`, the type of the expression and the complaints about it. The stack disappears here,
and everything that is proved about the checker is proved about `assess`.

## Main definitions

* `Expr.assess`, `Expr.assessAll` — types and complaints, by recursion on the expression

## Main results

* `Checker.visit_eq`, `Checker.visitAll_eq` — a visit on any stack, in terms of `assess`
* `Checker.infer_eq` — inference on any checker
* `checkRule_eq` — the complaints about a rule
-/

namespace SqlPredicates

namespace Expr

mutual

/-- The type of an expression, if it can be known, and the complaints about it. -/
def assess (registry : Registry) : Expr → Option Ty × List CheckError
  | integer value span => (some .integer, Checker.literalErrors value span)
  | string _ _ => (some .string, [])
  | var ident => Checker.variableType ident
  | call ident args _ span =>
    let below := assessAll registry args
    let own := Checker.callType registry ident args span below.1
    (own.1, below.2 ++ own.2)
  | paren inner _ => assess registry inner
  | unary op operand span =>
    let below := assess registry operand
    let own := Checker.unaryType op span below.1
    (own.1, below.2 ++ own.2)
  | binary op lhs rhs span =>
    let left := assess registry lhs
    let right := assess registry rhs
    let own := Checker.binaryType op span left.1 right.1
    (own.1, left.2 ++ right.2 ++ own.2)

/-- The types of several expressions, in order, and the complaints about all of them. -/
def assessAll (registry : Registry) : List Expr → List (Option Ty) × List CheckError
  | [] => ([], [])
  | e :: es =>
    let first := assess registry e
    let rest := assessAll registry es
    (first.1 :: rest.1, first.2 ++ rest.2)

end

@[simp] theorem length_assessAll (registry : Registry) (es : List Expr) :
    (assessAll registry es).1.length = es.length := by
  induction es with
  | nil => rfl
  | cons e es ih => simp [assessAll, ih]

end Expr

namespace Checker

variable {registry : Registry}

/-! ### The stack operations on what a visit leaves -/

@[simp] theorem types_conclude (r : Option Ty × List CheckError) (c : Checker) :
    (c.conclude r).types = r.1 :: c.types := rfl

@[simp] theorem errors_conclude (r : Option Ty × List CheckError) (c : Checker) :
    (c.conclude r).errors = c.errors ++ r.2 := rfl

theorem pop?_conclude (r : Option Ty × List CheckError) (c : Checker) :
    (c.conclude r).pop? = some (r.1, c.complain r.2) := rfl

theorem complain_conclude (r : Option Ty × List CheckError) (errors : List CheckError)
    (c : Checker) : (c.conclude r).complain errors = c.conclude (r.1, r.2 ++ errors) := by
  simp [conclude, complain, push]

theorem conclude_complain (r : Option Ty × List CheckError) (errors : List CheckError)
    (c : Checker) : (c.complain errors).conclude r = c.conclude (r.1, errors ++ r.2) := by
  simp [conclude, complain, push]

/-- Taking back as many types as were put on the stack gives them in their order. -/
theorem popMany?_append (types below : List (Option Ty)) (errors : List CheckError) :
    popMany? types.length ⟨types.reverse ++ below, errors⟩ = some (types, ⟨below, errors⟩) := by
  have htake : (types.reverse ++ below).take types.length = types.reverse :=
    List.take_left' types.length_reverse
  have hdrop : (types.reverse ++ below).drop types.length = below :=
    List.drop_left' types.length_reverse
  simp [popMany?, htake, hdrop]

/-! ### Visits -/

mutual

/-- A visit concludes the expression on the stack it was started on. -/
theorem visit_eq (registry : Registry) :
    ∀ (e : Expr) (c : Checker), visit registry e c = some (c.conclude (e.assess registry))
  | .integer .., _ => rfl
  | .string .., _ => rfl
  | .var _, _ => rfl
  | .call ident args _ span, c => by
    have hpop := popMany?_append (Expr.assessAll registry args).1 c.types
      (c.errors ++ (Expr.assessAll registry args).2)
    rw [Expr.length_assessAll] at hpop
    simp only [visit, visitAll_eq registry args c, Option.bind_eq_bind, Option.bind_some, hpop,
      Option.pure_def, Option.some.injEq]
    exact conclude_complain _ (Expr.assessAll registry args).2 c
  | .paren inner _, c => by rw [visit, visit_eq registry inner, Expr.assess]
  | .unary op operand span, c => by
    simp only [visit, visit_eq registry operand, Option.bind_eq_bind, Option.bind_some,
      pop?_conclude, Option.pure_def, conclude_complain, Expr.assess]
  | .binary op lhs rhs span, c => by
    simp only [visit, visit_eq registry lhs, visit_eq registry rhs, Option.bind_eq_bind,
      Option.bind_some, pop?_conclude, complain_conclude, Option.pure_def, conclude_complain,
      Expr.assess]

/-- Visits one after the other leave one type for each expression, the last one on top. -/
theorem visitAll_eq (registry : Registry) :
    ∀ (es : List Expr) (c : Checker), visitAll registry es c
      = some ⟨(Expr.assessAll registry es).1.reverse ++ c.types,
          c.errors ++ (Expr.assessAll registry es).2⟩
  | [], c => by simp [visitAll, Expr.assessAll]
  | e :: es, c => by
    simp only [visitAll, visit_eq registry e, Option.bind_eq_bind, Option.bind_some,
      visitAll_eq registry es, Expr.assessAll]
    simp

end

/-- Inference gives back the stack it was started on. -/
theorem infer_eq (registry : Registry) (e : Expr) (c : Checker) :
    c.infer registry e = ((e.assess registry).1, c.complain (e.assess registry).2) := by
  simp only [infer, infer?, visit_eq, Option.bind_eq_bind, Option.bind_some, pop?_conclude,
    Option.getD_some]

end Checker

theorem inferType_eq (registry : Registry) (e : Expr) :
    inferType registry e = e.assess registry := by
  rw [inferType, Checker.infer_eq]
  rfl

/-- The complaints about a rule: those about the expression, and one more if its type is known and
is not boolean. -/
theorem checkRule_eq (registry : Registry) (e : Expr) :
    checkRule registry e = (e.assess registry).2 ++
      match (e.assess registry).1 with
      | some .boolean | none => []
      | some found => [.notABoolean found e.span] := by
  rw [checkRule, inferType_eq]
  obtain ⟨ty, errors⟩ := e.assess registry
  match ty with
  | none | some .boolean => simp
  | some .integer | some .string => rfl

end SqlPredicates
