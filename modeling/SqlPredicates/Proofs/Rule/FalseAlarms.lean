import SqlPredicates.Proofs.Rule.InferredTypes
import SqlPredicates.Proofs.Rule.Shape

/-!
# No false alarms on strict rules

`AND` and `OR` can leave out their right operand, so a rule may have a truth value although the
checker complains about a part of it. A *strict* expression has neither of them, and evaluating it
is evaluating all of it. This file shows that the checker complains about a strict rule only if the
rule fails, whatever the object is.

The proof reads the checker backwards. If a strict expression has a value, then so have its parts.
By induction the checker knows the types of the parts, which are those of their values, and has no
complaint about them; and for values of these types the operator or the function gave a result.

## Main definitions

* `Expr.Strict` — no `AND` and no `OR`

## Main results

* `Expr.assess_of_eval` — a strict expression that has a value is not complained about
* `checkRule_of_evaluateRule` — nor is a strict rule that has a truth value
* `evaluateRule_of_complaint` — a strict rule that is complained about fails for every object
-/

namespace SqlPredicates

namespace Expr

/-! ### Strict expressions -/

/-- The expression has no `AND` and no `OR`, so no operand of it is left out. -/
def Strict (e : Expr) : Prop :=
  e.Everywhere fun inner => inner.binaryOp? ≠ some .and ∧ inner.binaryOp? ≠ some .or

instance : DecidablePred Strict := fun _ => inferInstanceAs (Decidable (Everywhere _ _))

theorem Strict.part {e part : Expr} (h : e.Strict) (hp : part ∈ e.parts) : part.Strict :=
  (everywhere_iff.mp h).2 part hp

/-- The left operand of a strict operation does not decide. -/
theorem Strict.decided?_eq_none {op : BinaryOp} {lhs rhs : Expr} {span : Span}
    (h : (Expr.binary op lhs rhs span).Strict) (l : Value) : Evaluation.decided? op l = none := by
  obtain ⟨hand, hor⟩ := (everywhere_iff.mp h).1
  cases op with
  | and => exact absurd rfl hand
  | or => exact absurd rfl hor
  | _ => rfl

/-! ### From values to types -/

variable {registry : Registry} {object : ObjectName}

/-- The checker finds the types of the values of arguments if it does so for each of them. -/
theorem assessAll_of_evalAll {es : List Expr} {values : List Value}
    (hassess : ∀ e ∈ es, ∀ v, e.eval registry object = .ok v →
      e.assess registry = (some v.ty, []))
    (hvalues : evalAll registry object es = .ok values) :
    assessAll registry es = ((values.map Value.ty).map some, []) := by
  induction es generalizing values with
  | nil =>
    cases hvalues
    rfl
  | cons e es ih =>
    obtain ⟨v, vs, hv, hvs, rfl⟩ := evalAll_cons_eq_ok hvalues
    have hfirst := hassess e List.mem_cons_self v hv
    have hrest := ih (fun e' he' => hassess e' (List.mem_cons_of_mem e he')) hvs
    rw [assessAll, hfirst, hrest]
    rfl

/-- **Values have types without complaints.** The induction is on the expression, and being strict
is what makes every part of it have a value. -/
theorem assess_of_eval (hreturns : registry.ReturnsDeclared) {e : Expr} {v : Value}
    (hstrict : e.Strict) (hv : e.eval registry object = .ok v) :
    e.assess registry = (some v.ty, []) := by
  induction e using induction_on_parts generalizing v with
  | _ e ih =>
    cases e with
    | integer value span =>
      rw [eval] at hv
      obtain ⟨hty, hfits⟩ := Evaluation.inRange_eq_ok hv
      rw [assess, Checker.literalErrors, if_pos (by omega), hty]
    | string value span =>
      rw [eval] at hv
      cases hv
      rfl
    | var ident =>
      obtain ⟨property, hproperty, rfl⟩ := eval_var_eq_ok hv
      rw [assess, Checker.variableType, hproperty]
      rfl
    | call ident args argsSpan span =>
      obtain ⟨f, values, hf, hty, hvalues, htys⟩ := values_of_call hreturns hv
      have hbelow : assessAll registry args = (f.params.map some, []) := by
        rw [← htys]
        exact assessAll_of_evalAll (fun arg harg w hw => ih arg harg (hstrict.part harg) hw) hvalues
      rw [assess, hbelow]
      simp only [callType_of_types args span hf, List.append_nil, hty]
    | paren inner span =>
      rw [eval] at hv
      rw [assess]
      exact ih inner (List.mem_singleton_self _) (hstrict.part (List.mem_singleton_self _)) hv
    | unary op operand span =>
      obtain ⟨w, hw, hop⟩ := eval_unary_eq_ok.mp hv
      have hbelow := ih operand (List.mem_singleton_self _)
        (hstrict.part (List.mem_singleton_self _)) hw
      rw [assess, hbelow]
      simp only [unaryType_of_ty span (Evaluation.unary_eq_ok hop), List.append_nil]
    | binary op lhs rhs span =>
      obtain ⟨l, hl, hdecided | ⟨r, hr, hop⟩⟩ := eval_binary_eq_ok hv
      · rw [hstrict.decided?_eq_none l] at hdecided
        cases hdecided
      · have hleft := ih lhs List.mem_cons_self (hstrict.part List.mem_cons_self) hl
        have hrhs : rhs ∈ (Expr.binary op lhs rhs span).parts := by simp [parts]
        have hright := ih rhs hrhs (hstrict.part hrhs) hr
        rw [assess, hleft, hright]
        simp only [binaryType_of_ty span (Evaluation.binary_eq_ok hop), List.append_nil]

end Expr

/-! ### Rules -/

/-- A strict rule that has a truth value for some object is not complained about. -/
theorem checkRule_of_evaluateRule {registry : Registry} {object : ObjectName} {rule : Expr}
    {verdict : Bool} (hreturns : registry.ReturnsDeclared) (hstrict : rule.Strict)
    (h : evaluateRule registry object rule = .ok verdict) : checkRule registry rule = [] := by
  obtain ⟨v, hv, h⟩ := Evaluation.bind_eq_ok.mp h
  cases v with
  | boolean b =>
    rw [checkRule_eq, Expr.assess_of_eval hreturns hstrict hv]
    rfl
  | integer | string => cases h

/-- **No false alarms.** For functions that return values of their declared types, a strict rule
that the checker complains about cannot be evaluated for any object. -/
theorem evaluateRule_of_complaint (registry : Registry) (object : ObjectName) (rule : Expr)
    (hreturns : registry.ReturnsDeclared) (hstrict : rule.Strict)
    (hcheck : checkRule registry rule ≠ []) :
    ∃ err, evaluateRule registry object rule = .error err := by
  cases h : evaluateRule registry object rule with
  | error err => exact ⟨err, rfl⟩
  | ok verdict => exact absurd (checkRule_of_evaluateRule hreturns hstrict h) hcheck

/-- The rule `left(name, '1') = 2 + 'x'`, in which an argument and an operand have wrong types. -/
def mistypedRule : Expr :=
  .binary .equal
    (.call ⟨"left", ⟨0, 4⟩⟩
      [.var ⟨"name", ⟨5, 9⟩⟩, .string ⟨"1", .single⟩ ⟨11, 14⟩] ⟨4, 15⟩ ⟨0, 15⟩)
    (.binary .add (.integer 2 ⟨18, 19⟩) (.string ⟨"x", .single⟩ ⟨22, 25⟩) ⟨18, 25⟩) ⟨0, 25⟩

/-- There are two complaints about the mistyped rule, and it fails for every object. -/
theorem evaluateRule_mistypedRule :
    Registry.standard.ReturnsDeclared ∧ mistypedRule.Strict ∧
      checkRule Registry.standard mistypedRule =
        [.argumentType "left" 2 .integer .string ⟨11, 14⟩,
          .operatorType (.binary .add .integer .string) ⟨18, 25⟩] ∧
      ∀ object, ∃ err, evaluateRule Registry.standard object mistypedRule = .error err := by
  have hstrict : mistypedRule.Strict := by decide
  have hcheck : checkRule Registry.standard mistypedRule =
      [.argumentType "left" 2 .integer .string ⟨11, 14⟩,
        .operatorType (.binary .add .integer .string) ⟨18, 25⟩] := by cbv
  refine ⟨Registry.returnsDeclared_standard, hstrict, hcheck, fun object => ?_⟩
  refine evaluateRule_of_complaint _ object _ Registry.returnsDeclared_standard hstrict ?_
  rw [hcheck]
  exact List.cons_ne_nil _ _

end SqlPredicates
