import SqlPredicates.Proofs.Rule.Grammar
import SqlPredicates.Proofs.Rule.Inference
import SqlPredicates.Rule.Compilation

/-!
# The canonical text means the same

A rule can be stored as its canonical text. What is read from that text agrees with the rule up to
places, so it has the same meaning if places have no influence on what the checker finds and on what
an evaluation gives. Places occur in complaints and in failures, where they are carried along, and
nowhere else.

As for expressions, agreement up to places is equality after erasing them. Both passes commute with
erasing: checking an expression without places gives the complaints without places, in their order,
and the same for evaluation.

## Main definitions

* `CheckError.erase`, `EvalError.erase` — complaints and failures without places
* `Checker.eraseErrors` — what the checker finds, without places

## Main results

* `checkRule_erase` — checking commutes with erasing
* `evaluateRule_erase` — evaluation commutes with erasing
* `compileRule_render` — the canonical text of a rule
-/

namespace SqlPredicates

/-- The complaint with its place put at the start of the text. -/
def CheckError.erase : CheckError → CheckError
  | unknownVariable name _ => unknownVariable name (.point 0)
  | unknownFunction name _ => unknownFunction name (.point 0)
  | arityMismatch name expected found _ => arityMismatch name expected found (.point 0)
  | argumentType name index expected found _ => argumentType name index expected found (.point 0)
  | operatorType operation _ => operatorType operation (.point 0)
  | integerOverflow value _ => integerOverflow value (.point 0)
  | notABoolean found _ => notABoolean found (.point 0)

/-- The failure with its place put at the start of the text. -/
def EvalError.erase : EvalError → EvalError
  | unknownVariable name _ => unknownVariable name (.point 0)
  | unknownFunction name _ => unknownFunction name (.point 0)
  | arityMismatch name expected found _ => arityMismatch name expected found (.point 0)
  | callFailed name cause _ => callFailed name cause (.point 0)
  | operatorType operation _ => operatorType operation (.point 0)
  | divisionByZero _ => divisionByZero (.point 0)
  | integerOverflow _ => integerOverflow (.point 0)
  | notABoolean found _ => notABoolean found (.point 0)

theorem Expr.span_erase (e : Expr) : e.erase.span = .point 0 := by
  cases e <;> rfl

theorem Expr.length_eraseAll (es : List Expr) : (eraseAll es).length = es.length := by
  rw [eraseAll_eq_map, List.length_map]

/-! ### Checking -/

namespace Checker

/-- What the checker finds, with every complaint put at the start of the text. -/
def eraseErrors {α : Type} (r : α × List CheckError) : α × List CheckError :=
  (r.1, r.2.map CheckError.erase)

theorem literalErrors_erase (value : UInt64) (span : Span) :
    literalErrors value (.point 0) = (literalErrors value span).map CheckError.erase := by
  unfold literalErrors
  split_ifs <;> rfl

theorem variableType_erase (ident : Ident) :
    variableType ⟨ident.name, .point 0⟩ = eraseErrors (variableType ident) := by
  unfold variableType
  cases Variable.ofName? ident.name <;> rfl

theorem argumentErrors_erase (name : String) (index : ℕ) (types : List (Option Ty))
    (params : List Ty) (args : List Expr) :
    argumentErrors name index types params (Expr.eraseAll args) =
      (argumentErrors name index types params args).map CheckError.erase := by
  induction args generalizing index types params with
  | nil => cases types <;> cases params <;> rfl
  | cons arg args ih =>
    match types, params with
    | [], _ | _ :: _, [] => rfl
    | none :: types, _ :: params => exact ih (index + 1) types params
    | some ty :: types, param :: params =>
      rw [Expr.eraseAll, argumentErrors, argumentErrors, ih]
      split_ifs
      · rfl
      · rw [List.map_cons, CheckError.erase, Expr.span_erase]

theorem callType_erase (registry : Registry) (ident : Ident) (args : List Expr) (span : Span)
    (types : List (Option Ty)) :
    callType registry ⟨ident.name, .point 0⟩ (Expr.eraseAll args) (.point 0) types =
      eraseErrors (callType registry ident args span types) := by
  unfold callType
  cases registry.get? ident.name with
  | none => rfl
  | some f =>
    dsimp only
    split_ifs
    · rw [argumentErrors_erase]
      rfl
    · rfl

theorem unaryType_erase (op : UnaryOp) (span : Span) (ty : Option Ty) :
    unaryType op (.point 0) ty = eraseErrors (unaryType op span ty) := by
  cases ty with
  | none => rfl
  | some ty =>
    rw [unaryType, unaryType]
    cases Ty.unary? op ty <;> rfl

theorem binaryType_erase (op : BinaryOp) (span : Span) (left right : Option Ty) :
    binaryType op (.point 0) left right = eraseErrors (binaryType op span left right) := by
  match left, right with
  | none, _ | some _, none => rfl
  | some left, some right =>
    rw [binaryType, binaryType]
    cases Ty.binary? op left right <;> rfl

end Checker

namespace Expr

open Checker (eraseErrors)

mutual

/-- The type of an expression does not depend on places, and the complaints about it are the same
up to places. -/
theorem assess_erase (registry : Registry) :
    ∀ e : Expr, e.erase.assess registry = eraseErrors (e.assess registry)
  | integer value span => by
    rw [erase, assess, Checker.literalErrors_erase value span]
    rfl
  | string _ _ => rfl
  | var ident => Checker.variableType_erase ident
  | call ident args _ span => by
    rw [erase, assess, assessAll_erase registry args,
      Checker.callType_erase registry ident args span]
    simp [assess, eraseErrors]
  | paren inner _ => assess_erase registry inner
  | unary op operand span => by
    rw [erase, assess, assess_erase registry operand, Checker.unaryType_erase op span]
    simp [assess, eraseErrors]
  | binary op lhs rhs span => by
    rw [erase, assess, assess_erase registry lhs, assess_erase registry rhs,
      Checker.binaryType_erase op span]
    simp [assess, eraseErrors]

theorem assessAll_erase (registry : Registry) :
    ∀ es : List Expr, assessAll registry (eraseAll es) = eraseErrors (assessAll registry es)
  | [] => rfl
  | e :: es => by
    rw [eraseAll, assessAll, assess_erase registry e, assessAll_erase registry es]
    simp [assessAll, eraseErrors]

end

end Expr

/-- **Checking commutes with erasing.** -/
theorem checkRule_erase (registry : Registry) (e : Expr) :
    checkRule registry e.erase = (checkRule registry e).map CheckError.erase := by
  rw [checkRule_eq, checkRule_eq, Expr.assess_erase, Expr.span_erase, List.map_append]
  obtain ⟨ty, errors⟩ := e.assess registry
  match ty with
  | none | some .boolean | some .integer | some .string => rfl

/-! ### Evaluation -/

namespace Evaluation

theorem inRange_erase (span : Span) (n : ℤ) :
    inRange (.point 0) n = (inRange span n).mapError EvalError.erase := by
  unfold inRange
  cases Value.ofInt? n <;> rfl

theorem unary_erase (op : UnaryOp) (span : Span) (v : Value) :
    unary op (.point 0) v = (unary op span v).mapError EvalError.erase := by
  cases v with
  | integer n =>
    cases op with
    | neg => exact inRange_erase span _
    | not => rfl
  | boolean b => cases op <;> rfl
  | string s => rfl

theorem divide_erase (span : Span) (a b result : ℤ) :
    divide (.point 0) a b result = (divide span a b result).mapError EvalError.erase := by
  unfold divide
  split_ifs
  · rfl
  · rw [inRange_erase span, inRange_erase span result]
    cases inRange span (a.tdiv b) <;> rfl

theorem binary_erase (op : BinaryOp) (span : Span) (l r : Value) :
    binary op (.point 0) l r = (binary op span l r).mapError EvalError.erase := by
  cases l <;> cases r
  case integer.integer a b =>
    cases op with
    | add | subtract | multiply => exact inRange_erase span _
    | divide | remainder => exact divide_erase span _ _ _
    | _ => rfl
  all_goals cases op <;> rfl

end Evaluation

namespace Expr

variable (registry : Registry) (object : ObjectName)

mutual

/-- The value of an expression does not depend on places, and a failure is the same up to its
place. -/
theorem eval_erase :
    ∀ e : Expr, e.erase.eval registry object = (e.eval registry object).mapError EvalError.erase
  | integer value span => Evaluation.inRange_erase span _
  | string _ _ => rfl
  | var ident => by
    rw [erase, eval, eval]
    cases Variable.ofName? ident.name <;> rfl
  | call ident args _ span => by
    rw [erase, eval, eval, length_eraseAll, evalAll_erase args]
    cases registry.get? ident.name with
    | none => rfl
    | some f =>
      dsimp only
      split_ifs
      · cases evalAll registry object args with
        | error err => rfl
        | ok values =>
          simp only [Except.mapError, bind, Except.bind]
          cases f.call values <;> rfl
      · rfl
  | paren inner _ => eval_erase inner
  | unary op operand span => by
    rw [erase, eval, eval, eval_erase operand]
    cases eval registry object operand with
    | error err => rfl
    | ok v => exact Evaluation.unary_erase op span v
  | binary op lhs rhs span => by
    rw [erase, eval, eval, eval_erase lhs, eval_erase rhs]
    cases eval registry object lhs with
    | error err => rfl
    | ok l =>
      simp only [Except.mapError, bind, Except.bind]
      cases Evaluation.decided? op l with
      | some v => rfl
      | none =>
        cases eval registry object rhs with
        | error err => rfl
        | ok r => exact Evaluation.binary_erase op span l r

theorem evalAll_erase :
    ∀ es : List Expr, evalAll registry object (eraseAll es) =
      (evalAll registry object es).mapError EvalError.erase
  | [] => rfl
  | e :: es => by
    rw [eraseAll, evalAll, evalAll, eval_erase e, evalAll_erase es]
    cases eval registry object e with
    | error err => rfl
    | ok v => cases evalAll registry object es <;> rfl

end

end Expr

/-- **Evaluation commutes with erasing.** -/
theorem evaluateRule_erase (registry : Registry) (object : ObjectName) (e : Expr) :
    evaluateRule registry object e.erase =
      (evaluateRule registry object e).mapError EvalError.erase := by
  rw [evaluateRule, evaluateRule, Expr.eval_erase, Expr.span_erase]
  cases e.eval registry object with
  | error err => rfl
  | ok v => cases v <;> rfl

/-! ### Rules -/

section Rules

variable {text : String} {e e' : Expr}

theorem compileRule_eq_ok_iff :
    compileRule text = .ok e ↔ parseRule text = .ok e ∧ checkRule Registry.standard e = [] := by
  rw [compileRule]
  cases hread : parseRule text with
  | error err => simp
  | ok rule =>
    dsimp only
    split
    · next hcheck =>
      simp only [Except.ok.injEq]
      constructor
      · rintro rfl
        exact ⟨rfl, hcheck⟩
      · exact And.left
    · next hcheck =>
      simp only [reduceCtorEq, Except.ok.injEq, false_iff, not_and]
      rintro rfl
      exact hcheck

theorem compileRule_eq_rejected_iff {errors : List CheckError} :
    compileRule text = .error (.rejected errors) ↔
      errors ≠ [] ∧ ∃ e, parseRule text = .ok e ∧ checkRule Registry.standard e = errors := by
  rw [compileRule]
  cases hread : parseRule text with
  | error err => simp
  | ok rule =>
    dsimp only
    split
    · next hcheck => simp [hcheck, eq_comm]
    · next hcheck =>
      simp only [Except.error.injEq, RuleError.rejected.injEq, Except.ok.injEq, exists_eq_left']
      constructor
      · rintro rfl
        exact ⟨hcheck, rfl⟩
      · exact And.right

/-- Expressions that agree up to places get the same complaints up to places. -/
theorem checkRule_of_erase_eq (registry : Registry) (h : e'.erase = e.erase) :
    (checkRule registry e').map CheckError.erase = (checkRule registry e).map CheckError.erase := by
  rw [← checkRule_erase, ← checkRule_erase, h]

/-- **The canonical text means the same.** A text is read as the expression `e`. If the text
compiles, so does the canonical text of `e`, and what it is compiled to has for every object the
same verdict as `e`, or the same failure up to its place. If the text is rejected, so is the
canonical text, with the same complaints in the same order up to their places. -/
theorem compileRule_render (h : parseRule text = .ok e) :
    (∀ rule, compileRule text = .ok rule →
      ∃ rule', compileRule e.render = .ok rule' ∧
        ∀ object : ObjectName, (checkName e object).mapError EvalError.erase =
          (checkName rule' object).mapError EvalError.erase) ∧
      ∀ errors, compileRule text = .error (.rejected errors) →
        ∃ errors', compileRule e.render = .error (.rejected errors') ∧
          errors.map CheckError.erase = errors'.map CheckError.erase := by
  obtain ⟨hshaped, hheight⟩ := of_parseRule h
  obtain ⟨e', hread, herase⟩ := exists_parseRule_render hshaped hheight
  have hcheck := checkRule_of_erase_eq Registry.standard herase
  refine ⟨fun rule hrule => ?_, fun errors hrejected => ?_⟩
  · obtain ⟨hrule, hnone⟩ := compileRule_eq_ok_iff.mp hrule
    obtain rfl : e = rule := Except.ok.inj (h.symm.trans hrule)
    rw [hnone, List.map_nil, List.map_eq_nil_iff] at hcheck
    refine ⟨e', compileRule_eq_ok_iff.mpr ⟨hread, hcheck⟩, fun object => ?_⟩
    rw [checkName, checkName, ← evaluateRule_erase, ← evaluateRule_erase, herase]
  · obtain ⟨hne, rule, hrule, hsome⟩ := compileRule_eq_rejected_iff.mp hrejected
    obtain rfl : e = rule := Except.ok.inj (h.symm.trans hrule)
    rw [hsome] at hcheck
    refine ⟨checkRule Registry.standard e', compileRule_eq_rejected_iff.mpr ⟨?_, e', hread, rfl⟩,
      hcheck.symm⟩
    intro hnil
    rw [hnil] at hcheck
    exact hne (List.map_eq_nil_iff.mp hcheck.symm)

/-- The rule `1/len(name)>0`, which cannot be evaluated for an empty name. -/
def quotientRule : Expr :=
  .binary .greater
    (.binary .divide (.integer 1 ⟨0, 1⟩)
      (.call ⟨"len", ⟨2, 5⟩⟩ [.var ⟨"name", ⟨6, 10⟩⟩] ⟨5, 11⟩ ⟨2, 11⟩) ⟨0, 11⟩)
    (.integer 0 ⟨12, 13⟩) ⟨0, 13⟩

/-- The rule `f(1)||!2`, in which a function is unknown and an operator does not apply. -/
def faultyRule : Expr :=
  .binary .or (.call ⟨"f", ⟨0, 1⟩⟩ [.integer 1 ⟨2, 3⟩] ⟨1, 4⟩ ⟨0, 4⟩)
    (.unary .not (.integer 2 ⟨7, 8⟩) ⟨6, 8⟩) ⟨0, 8⟩

theorem compileRule_render_quotientRule :
    (parseRule "1/len(name)>0" = .ok quotientRule ∧
        compileRule "1/len(name)>0" = .ok quotientRule ∧
        checkName quotientRule ⟨"", "table", "dbo"⟩ = .error (.divisionByZero ⟨0, 11⟩) ∧
        ∃ rule', compileRule "1 / len(name) > 0" = .ok rule' ∧
          ∀ object : ObjectName, (checkName quotientRule object).mapError EvalError.erase =
            (checkName rule' object).mapError EvalError.erase) ∧
      parseRule "f(1)||!2" = .ok faultyRule ∧
        compileRule "f(1)||!2" = .error (.rejected
          [.unknownFunction "f" ⟨0, 1⟩, .operatorType (.unary .not .integer) ⟨6, 8⟩]) ∧
        ∃ errors', compileRule "f(1) OR NOT 2" = .error (.rejected errors') ∧
          [.unknownFunction "f" (.point 0), .operatorType (.unary .not .integer) (.point 0)] =
            errors'.map CheckError.erase := by
  have hquotient : parseRule "1/len(name)>0" = .ok quotientRule := by decide +kernel
  have hcompiled : compileRule "1/len(name)>0" = .ok quotientRule := by decide +kernel
  have hfails : checkName quotientRule ⟨"", "table", "dbo"⟩ = .error (.divisionByZero ⟨0, 11⟩) := by
    decide +kernel
  have hfaulty : parseRule "f(1)||!2" = .ok faultyRule := by decide +kernel
  have hrejected : compileRule "f(1)||!2" = .error (.rejected
      [.unknownFunction "f" ⟨0, 1⟩, .operatorType (.unary .not .integer) ⟨6, 8⟩]) := by
    decide +kernel
  have hrender : quotientRule.render = "1 / len(name) > 0" := by decide +kernel
  have hrender' : faultyRule.render = "f(1) OR NOT 2" := by decide +kernel
  have hmeaning := (compileRule_render hquotient).1 _ hcompiled
  have hcomplaints := (compileRule_render hfaulty).2 _ hrejected
  rw [hrender] at hmeaning
  rw [hrender'] at hcomplaints
  exact ⟨⟨hquotient, hcompiled, hfails, hmeaning⟩, hfaulty, hrejected, hcomplaints⟩

end Rules

end SqlPredicates
