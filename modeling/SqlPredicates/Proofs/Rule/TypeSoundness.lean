import SqlPredicates.Proofs.NodeOrder
import SqlPredicates.Proofs.Rule.Typing
import SqlPredicates.Rule.Evaluation
import SqlPredicates.Rule.StandardFunctions
import Mathlib

/-!
# Type soundness of checked rules

A rule without complaints either has a truth value for an object or fails in one of three ways that
depend on the values and not on the types: a division by zero, an operation on integers whose result
is out of range, or a function that is given a negative length.

The checker and the evaluator decide about operators in separate tables. They are compared once for
each operator, in `Evaluation.unary_of_ty` and `Evaluation.binary_of_ty`; everything else is an
induction on the expression.

## The contract of functions

Nothing is known about the body of a function beyond its signature. `Function.KeepsSignature` says
what the evaluation relies on: arguments of the declared types give a value of the declared type, or
the refusal of a negative length. The standard functions keep it under any names.

## Main definitions

* `Function.KeepsSignature`, `Registry.KeepsSignatures` — the contract of functions
* `RuntimeFault` — the failures that are left, with the place where an overflow comes from

## Main results

* `Expr.eval_of_hasType` — the value or the failure of a typed expression
* `evaluateRule_of_checkRule` — soundness for rules, with the registries that it applies to
-/

namespace SqlPredicates

/-! ### The contract of functions -/

/-- Arguments of the declared types give a value of the declared type, or a negative length is
refused. -/
def Function.KeepsSignature (f : Function) : Prop :=
  ∀ args : List Value, args.map Value.ty = f.params →
    (∃ v, f.body args = .ok v ∧ v.ty = f.result) ∨
      ∃ index, f.body args = .error (.negativeLength index)

/-- Every function of the registry keeps its signature. -/
def Registry.KeepsSignatures (r : Registry) : Prop := ∀ f ∈ r.functions, f.KeepsSignature

/-- A failure that a check cannot exclude. An overflow comes from an operation of the rule: the
operands of the operation have values, and the operation itself leaves the range. -/
inductive RuntimeFault (registry : Registry) (object : ObjectName) (rule : Expr) : EvalError → Prop
  | divisionByZero (span : Span) : RuntimeFault registry object rule (.divisionByZero span)
  | unaryOverflow {op : UnaryOp} {operand : Expr} {span : Span} {v : Value}
      (within : (Expr.unary op operand span).Within rule)
      (value : operand.eval registry object = .ok v)
      (overflows : Evaluation.unary op span v = .error (.integerOverflow span)) :
      RuntimeFault registry object rule (.integerOverflow span)
  | binaryOverflow {op : BinaryOp} {lhs rhs : Expr} {span : Span} {l r : Value}
      (within : (Expr.binary op lhs rhs span).Within rule)
      (left : lhs.eval registry object = .ok l) (right : rhs.eval registry object = .ok r)
      (overflows : Evaluation.binary op span l r = .error (.integerOverflow span)) :
      RuntimeFault registry object rule (.integerOverflow span)
  | negativeLength (name : String) (index : ℕ) (span : Span) :
      RuntimeFault registry object rule (.callFailed name (.negativeLength index) span)

/-- A failure inside a part of the rule is a failure of the rule. -/
theorem RuntimeFault.mono {registry : Registry} {object : ObjectName} {part rule : Expr}
    {err : EvalError} (h : RuntimeFault registry object part err)
    (hpart : ∀ inner : Expr, inner.Within part → inner.Within rule) :
    RuntimeFault registry object rule err := by
  cases h with
  | divisionByZero span => exact .divisionByZero span
  | unaryOverflow within value overflows => exact .unaryOverflow (hpart _ within) value overflows
  | binaryOverflow within left right overflows =>
    exact .binaryOverflow (hpart _ within) left right overflows
  | negativeLength name index span => exact .negativeLength name index span

/-! ### Values of a known type -/

namespace Value

theorem exists_integer_of_ty {v : Value} (h : v.ty = .integer) : ∃ n, v = .integer n := by
  cases v with
  | integer n => exact ⟨n, rfl⟩
  | string | boolean => cases h

theorem exists_string_of_ty {v : Value} (h : v.ty = .string) : ∃ s, v = .string s := by
  cases v with
  | string s => exact ⟨s, rfl⟩
  | integer | boolean => cases h

theorem exists_boolean_of_ty {v : Value} (h : v.ty = .boolean) : ∃ b, v = .boolean b := by
  cases v with
  | boolean b => exact ⟨b, rfl⟩
  | integer | string => cases h

/-- Values of one type can be compared. -/
theorem exists_compare?_of_ty_eq {l r : Value} (h : l.ty = r.ty) : ∃ o, l.compare? r = some o := by
  cases l <;> cases r <;> first | exact ⟨_, rfl⟩ | cases h

end Value

/-! ### The operators -/

namespace Evaluation

/-- What an operator may give on operands that it applies to. -/
def Sound (ty : Ty) (span : Span) (outcome : Except EvalError Value) : Prop :=
  (∃ v, outcome = .ok v ∧ v.ty = ty) ∨ outcome = .error (.divisionByZero span) ∨
    outcome = .error (.integerOverflow span)

theorem Sound.ok {span : Span} (v : Value) : Sound v.ty span (.ok v) := .inl ⟨v, rfl, rfl⟩

theorem sound_inRange (span : Span) (n : Int) : Sound .integer span (inRange span n) := by
  rw [inRange, Value.ofInt?]
  split_ifs
  · exact .ok (.integer _)
  · exact .inr (.inr rfl)

theorem sound_divide (span : Span) (a b result : Int) :
    Sound .integer span (divide span a b result) := by
  rw [divide]
  split_ifs
  · exact .inr (.inl rfl)
  · -- the quotient is computed first, and its failure is the failure of the division
    rcases sound_inRange span (a.tdiv b) with ⟨v, hv, -⟩ | hv | hv
    · rw [hv]
      exact sound_inRange span result
    · exact .inr (.inl (by rw [hv]; rfl))
    · exact .inr (.inr (by rw [hv]; rfl))

/-- The operators that the table of types gives an integer for are the arithmetic ones. -/
theorem sound_arithmetic {op : BinaryOp} (span : Span) (a b : Int)
    (h : Ty.binary? op .integer .integer = some .integer) :
    Sound .integer span (arithmetic op span a b) := by
  cases op with
  | add | subtract | multiply => exact sound_inRange span _
  | divide | remainder => exact sound_divide span a b _
  | _ => simp [Ty.binary?] at h

theorem binary_integer_integer {op : BinaryOp} (span : Span) (a b : Int64)
    (h : Ty.binary? op .integer .integer = some .integer) :
    binary op span (.integer a) (.integer b) = arithmetic op span a.toInt b.toInt := by
  cases op <;> first | rfl | cases h

/-- A prefix operator on an operand of a type that it applies to. -/
theorem unary_of_ty {op : UnaryOp} {ty result : Ty} {v : Value} (span : Span)
    (h : Ty.unary? op ty = some result) (hv : v.ty = ty) : Sound result span (unary op span v) := by
  subst hv
  cases op with
  | not =>
    cases v with
    | boolean b => cases h; exact .ok (.boolean !b)
    | integer | string => cases h
  | neg =>
    cases v with
    | integer n => cases h; exact sound_inRange span _
    | boolean | string => cases h

/-- A comparison of values of one type is a boolean. -/
theorem sound_compare {l r : Value} (span : Span) (holds : Ordering → Bool)
    (otherwise : Except EvalError Value) (h : l.ty = r.ty) :
    Sound .boolean span
      (match l.compare? r with
        | some o => .ok (.boolean (holds o))
        | none => otherwise) := by
  obtain ⟨o, ho⟩ := Value.exists_compare?_of_ty_eq h
  rw [ho]
  exact .ok (.boolean (holds o))

/-- A binary operator on operands of types that it applies to. The cases follow the rows of the
table of types. -/
theorem binary_of_ty {op : BinaryOp} {left right result : Ty} {l r : Value} (span : Span)
    (h : Ty.binary? op left right = some result) (hl : l.ty = left) (hr : r.ty = right) :
    Sound result span (binary op span l r) := by
  subst hl hr
  cases op with
  | equal =>
    by_cases hty : l.ty = r.ty
    · obtain rfl : Ty.boolean = result := by simpa [Ty.binary?, hty] using h
      exact sound_compare span Ordering.isEq _ hty
    · simp [Ty.binary?, hty] at h
  | notEqual =>
    by_cases hty : l.ty = r.ty
    · obtain rfl : Ty.boolean = result := by simpa [Ty.binary?, hty] using h
      exact sound_compare span (fun o => !o.isEq) _ hty
    · simp [Ty.binary?, hty] at h
  | and | or =>
    cases l <;> cases r <;> cases h
    exact .ok (.boolean _)
  | less | lessEqual | greater | greaterEqual =>
    cases l <;> cases r <;> cases h <;> exact .ok (.boolean _)
  | like =>
    cases l <;> cases r <;> cases h
    exact .ok (.boolean _)
  | add =>
    cases l <;> cases r <;> cases h
    · rw [binary_integer_integer span _ _ rfl]
      exact sound_arithmetic span _ _ rfl
    · exact .ok (.string _)
  | subtract | multiply | divide | remainder =>
    cases l <;> cases r <;> cases h
    rw [binary_integer_integer span _ _ rfl]
    exact sound_arithmetic span _ _ rfl

/-- A logical operation that its left operand decides is a boolean. -/
theorem ty_of_decided? {op : BinaryOp} {left right result : Ty} {l v : Value}
    (h : Ty.binary? op left right = some result) (hv : decided? op l = some v)
    (hl : l.ty = left) : v.ty = result := by
  subst hl
  cases op <;> cases l with
  | boolean b => cases b <;> cases right <;> cases hv <;> cases h <;> rfl
  | _ => cases hv

end Evaluation

/-! ### Calls -/

theorem Function.mismatch?_eq_none {args : List Value} {params : List Ty} (index : ℕ)
    (h : args.map Value.ty = params) : Function.mismatch? index args params = none := by
  subst h
  induction args generalizing index with
  | nil => rfl
  | cons v args ih => simp [Function.mismatch?, ih]

/-- Arguments of the declared types reach the body of a function. -/
theorem Function.call_of_types {f : Function} {args : List Value}
    (h : args.map Value.ty = f.params) : f.call args = f.body args := by
  rw [Function.call, Function.mismatch?_eq_none 1 h]

/-! ### Expressions -/

namespace Expr

variable {registry : Registry} {object : ObjectName}

/-- An expression of a type has a value of that type, or fails at run time. -/
def Settles (registry : Registry) (object : ObjectName) (e : Expr) (ty : Ty) : Prop :=
  (∃ v, e.eval registry object = .ok v ∧ v.ty = ty) ∨
    ∃ err, e.eval registry object = .error err ∧ RuntimeFault registry object e err

/-- A call whose arguments have values of the declared types. -/
theorem settles_call {ident : Ident} {args : List Expr} {argsSpan span : Span} {f : Function}
    {values : List Value} (hf : registry.get? ident.name = some f) (hkeeps : f.KeepsSignature)
    (hlen : args.length = f.params.length) (hvalues : evalAll registry object args = .ok values)
    (htys : values.map Value.ty = f.params) :
    Settles registry object (.call ident args argsSpan span) f.result := by
  have hcall : f.call values = f.body values := Function.call_of_types htys
  rcases hkeeps values htys with ⟨v, hv, hty⟩ | ⟨index, herr⟩
  · refine .inl ⟨v, ?_, hty⟩
    simp only [eval, hf, Function.arity, hlen, if_true, hvalues, bind, Except.bind, hcall, hv]
    rfl
  · refine .inr ⟨_, ?_, .negativeLength f.ident index span⟩
    simp only [eval, hf, Function.arity, hlen, if_true, hvalues, bind, Except.bind, hcall, herr]
    rfl

/-- A prefix operation whose operand settles. -/
theorem settles_unary {op : UnaryOp} {operand : Expr} {ty result : Ty} (span : Span)
    (happlies : Ty.unary? op ty = some result) (h : Settles registry object operand ty) :
    Settles registry object (.unary op operand span) result := by
  rcases h with ⟨v, hv, hty⟩ | ⟨err, herr, hfault⟩
  · have heval : (Expr.unary op operand span).eval registry object
        = Evaluation.unary op span v := by rw [eval, hv]; rfl
    rcases Evaluation.unary_of_ty span happlies hty with ⟨w, hw, hwty⟩ | hw | hw
    · exact .inl ⟨w, heval.trans hw, hwty⟩
    · exact .inr ⟨_, heval.trans hw, .divisionByZero span⟩
    · exact .inr ⟨_, heval.trans hw, .unaryOverflow (within_refl _) hv hw⟩
  · refine .inr ⟨err, by rw [eval, herr]; rfl, hfault.mono fun inner hinner => ?_⟩
    exact hinner.of_part (List.mem_singleton_self _)

/-- A binary operation whose operands settle. The right operand is left out when the left one
decides, and then the value has the type of the operation all the same. -/
theorem settles_binary {op : BinaryOp} {lhs rhs : Expr} {left right result : Ty} (span : Span)
    (happlies : Ty.binary? op left right = some result) (hl : Settles registry object lhs left)
    (hr : Settles registry object rhs right) :
    Settles registry object (.binary op lhs rhs span) result := by
  rcases hl with ⟨l, hl, hlty⟩ | ⟨err, herr, hfault⟩
  · cases hdecided : Evaluation.decided? op l with
    | some v =>
      refine .inl ⟨v, ?_, Evaluation.ty_of_decided? happlies hdecided hlty⟩
      simp only [eval, hl, bind, Except.bind, hdecided]
      rfl
    | none =>
      rcases hr with ⟨r, hr, hrty⟩ | ⟨err, herr, hfault⟩
      · have heval : (Expr.binary op lhs rhs span).eval registry object
            = Evaluation.binary op span l r := by
          simp only [eval, hl, hr, bind, Except.bind, hdecided]
        rcases Evaluation.binary_of_ty span happlies hlty hrty with ⟨w, hw, hwty⟩ | hw | hw
        · exact .inl ⟨w, heval.trans hw, hwty⟩
        · exact .inr ⟨_, heval.trans hw, .divisionByZero span⟩
        · exact .inr ⟨_, heval.trans hw, .binaryOverflow (within_refl _) hl hr hw⟩
      · refine .inr ⟨err, ?_, hfault.mono fun inner hinner => hinner.of_part (by simp [parts])⟩
        simp only [eval, hl, herr, bind, Except.bind, hdecided]
  · refine .inr ⟨err, ?_, hfault.mono fun inner hinner => hinner.of_part List.mem_cons_self⟩
    simp only [eval, herr, bind, Except.bind]

/-- A literal of a typed expression is in range. -/
theorem settles_integer (registry : Registry) (object : ObjectName) {value : UInt64} {span : Span}
    (fits : value.toNat < 2 ^ 63) :
    ∃ v, (Expr.integer value span).eval registry object = .ok v ∧ v.ty = .integer := by
  have hfits : (-0x8000000000000000 : Int) ≤ value.toNat ∧
      (value.toNat : Int) < 0x8000000000000000 := by omega
  exact ⟨_, by rw [eval, Evaluation.inRange, Value.ofInt?, if_pos hfits], rfl⟩

mutual

/-- **Typed expressions settle.** The recursion is on the expression, whose typing is taken apart
along with it. -/
theorem eval_of_hasType (object : ObjectName) (hkeeps : registry.KeepsSignatures) :
    ∀ {e : Expr} {ty : Ty}, HasType registry e ty → Settles registry object e ty
  | .integer .., _, .integer fits => .inl (settles_integer registry object fits)
  | .string value _, _, .string => .inl ⟨.string value.text, by rw [eval], rfl⟩
  | .var ident, _, .var known => .inl ⟨.string _, by rw [eval, known], rfl⟩
  | .call ident args _ span, _, .call known typed => by
    rcases evalAll_of_haveTypes object hkeeps typed with
      ⟨values, hvalues, htys⟩ | ⟨e, he, err, herr, hfault⟩
    · exact settles_call known (hkeeps _ (Registry.get?_eq_some_iff.mp known).1) typed.length_eq hvalues htys
    · refine .inr ⟨err, ?_, hfault.mono fun inner hinner => hinner.of_part he⟩
      simp only [eval, known, Function.arity, typed.length_eq, if_true, herr, bind, Except.bind]
  | .paren inner span, _, .paren typed => by
    rcases eval_of_hasType object hkeeps typed with ⟨v, hv, hty⟩ | ⟨err, herr, hfault⟩
    · exact .inl ⟨v, by rw [eval, hv], hty⟩
    · refine .inr ⟨err, by rw [eval, herr], hfault.mono fun inner hinner => ?_⟩
      exact hinner.of_part (List.mem_singleton_self _)
  | .unary _ _ span, _, .unary typed applies =>
    settles_unary span applies (eval_of_hasType object hkeeps typed)
  | .binary _ _ _ span, _, .binary typedLeft typedRight applies =>
    settles_binary span applies (eval_of_hasType object hkeeps typedLeft)
      (eval_of_hasType object hkeeps typedRight)

/-- Typed arguments have values of their types, or the first that fails does so at run time. -/
theorem evalAll_of_haveTypes (object : ObjectName) (hkeeps : registry.KeepsSignatures) :
    ∀ {es : List Expr} {tys : List Ty}, HaveTypes registry es tys →
      (∃ values, evalAll registry object es = .ok values ∧ values.map Value.ty = tys) ∨
        ∃ e ∈ es, ∃ err, evalAll registry object es = .error err ∧
          RuntimeFault registry object e err
  | [], _, .nil => .inl ⟨[], by rw [evalAll], rfl⟩
  | e :: es, _, .cons first rest => by
    rcases eval_of_hasType object hkeeps first with ⟨v, hv, hty⟩ | ⟨err, herr, hfault⟩
    · rcases evalAll_of_haveTypes object hkeeps rest with
        ⟨vs, hvs, htys⟩ | ⟨e', he', err, herr, hfault⟩
      · refine .inl ⟨v :: vs, ?_, by rw [List.map_cons, hty, htys]⟩
        simp only [evalAll, hv, hvs, bind, Except.bind, pure, Except.pure]
      · refine .inr ⟨e', List.mem_cons_of_mem _ he', err, ?_, hfault⟩
        simp only [evalAll, hv, herr, bind, Except.bind]
    · refine .inr ⟨e, List.mem_cons_self, err, ?_, hfault⟩
      simp only [evalAll, herr, bind, Except.bind]

end

end Expr

/-! ### The standard functions -/

namespace StandardFunctions

theorem keepsSignature_onString {ident : String} {result : Ty} {g : String → Value}
    (h : ∀ s, (g s).ty = result) :
    (⟨ident, [.string], result, onString g⟩ : Function).KeepsSignature := by
  intro args hargs
  obtain ⟨v, rfl, hv⟩ := List.map_eq_singleton_iff.mp hargs
  obtain ⟨s, rfl⟩ := Value.exists_string_of_ty hv
  exact .inl ⟨g s, rfl, h s⟩

theorem keepsSignature_onStrings {ident : String} {result : Ty} {g : String → String → Value}
    (h : ∀ s t, (g s t).ty = result) :
    (⟨ident, [.string, .string], result, onStrings g⟩ : Function).KeepsSignature := by
  intro args hargs
  obtain ⟨v, args, rfl, hv, hargs⟩ := List.map_eq_cons_iff.mp hargs
  obtain ⟨w, rfl, hw⟩ := List.map_eq_singleton_iff.mp hargs
  obtain ⟨s, rfl⟩ := Value.exists_string_of_ty hv
  obtain ⟨t, rfl⟩ := Value.exists_string_of_ty hw
  exact .inl ⟨g s t, rfl, h s t⟩

/-- A count is a number, or the refusal of a negative one. -/
theorem count_cases (index : ℕ) (n : Int64) :
    (∃ k, count index n = .ok k) ∨ count index n = .error (.negativeLength index) := by
  rw [count]
  split_ifs
  · exact .inr rfl
  · exact .inl ⟨_, rfl⟩

theorem keepsSignature_onCount {ident : String} {result : Ty} {g : String → ℕ → Value}
    (h : ∀ s n, (g s n).ty = result) :
    (⟨ident, [.string, .integer], result, onCount g⟩ : Function).KeepsSignature := by
  intro args hargs
  obtain ⟨v, args, rfl, hv, hargs⟩ := List.map_eq_cons_iff.mp hargs
  obtain ⟨w, rfl, hw⟩ := List.map_eq_singleton_iff.mp hargs
  obtain ⟨s, rfl⟩ := Value.exists_string_of_ty hv
  obtain ⟨n, rfl⟩ := Value.exists_integer_of_ty hw
  rcases count_cases 2 n with ⟨k, hk⟩ | hk
  · exact .inl ⟨g s k, by simp only [onCount, hk]; rfl, h s k⟩
  · exact .inr ⟨2, by simp only [onCount, hk]; rfl⟩

theorem keepsSignature_substring {ident : String} :
    (⟨ident, [.string, .integer, .integer], .string, substringBody⟩ : Function).KeepsSignature := by
  intro args hargs
  obtain ⟨v, args, rfl, hv, hargs⟩ := List.map_eq_cons_iff.mp hargs
  obtain ⟨w, args, rfl, hw, hargs⟩ := List.map_eq_cons_iff.mp hargs
  obtain ⟨x, rfl, hx⟩ := List.map_eq_singleton_iff.mp hargs
  obtain ⟨s, rfl⟩ := Value.exists_string_of_ty hv
  obtain ⟨start, rfl⟩ := Value.exists_integer_of_ty hw
  obtain ⟨n, rfl⟩ := Value.exists_integer_of_ty hx
  rcases count_cases 3 n with ⟨k, hk⟩ | hk
  · exact .inl ⟨.string (substring s start.toInt k), by simp only [substringBody, hk]; rfl, rfl⟩
  · exact .inr ⟨3, by simp only [substringBody, hk]; rfl⟩

end StandardFunctions

namespace Registry

theorem keepsSignatures_standard : standard.KeepsSignatures := by
  intro f hf
  simp only [standard, StandardFunctions.all, List.mem_cons, List.not_mem_nil, or_false] at hf
  rcases hf with rfl | rfl | rfl | rfl | rfl | rfl | rfl | rfl | rfl | rfl | rfl | rfl
  all_goals
    first
    | exact StandardFunctions.keepsSignature_onString fun _ => rfl
    | exact StandardFunctions.keepsSignature_onStrings fun _ _ => rfl
    | exact StandardFunctions.keepsSignature_onCount fun _ _ => rfl
    | exact StandardFunctions.keepsSignature_substring

theorem KeepsSignatures.add {r : Registry} (hr : r.KeepsSignatures) {f : Function}
    (hf : f.KeepsSignature) : (r.add f).KeepsSignatures := by
  intro g hg
  rcases List.mem_append.mp hg with hg | hg
  · exact hr g (mem_without_iff.mp hg).1
  · rw [List.mem_singleton.mp hg]
    exact hf

/-- Offering functions under other names keeps their signatures: the contract does not mention the
name. -/
theorem keepsSignatures_ofAliases (aliases : List (String × String)) :
    (ofAliases aliases).KeepsSignatures := by
  rw [ofAliases]
  have hempty : empty.KeepsSignatures := fun f hf => absurd hf List.not_mem_nil
  generalize empty = r at hempty
  induction aliases generalizing r with
  | nil => exact hempty
  | cons a aliases ih =>
    rw [List.foldl_cons]
    refine ih _ ?_
    cases hf : standard.get? a.2 with
    | none => exact hempty
    | some f =>
      have hkeeps : f.KeepsSignature := keepsSignatures_standard f (get?_eq_some_iff.mp hf).1
      exact hempty.add hkeeps

end Registry

/-! ### Rules -/

/-- **Type soundness.** For a registry whose functions keep their signatures, a rule without
complaints has a truth value for every object or fails at run time in one of the ways of
`RuntimeFault`; no integer literal of it is out of range. The standard functions, and these under
any other names, are such registries. -/
theorem evaluateRule_of_checkRule :
    (∀ (registry : Registry) (rule : Expr) (object : ObjectName), registry.KeepsSignatures →
      checkRule registry rule = [] →
        ((∃ verdict, evaluateRule registry object rule = .ok verdict) ∨
          ∃ err, evaluateRule registry object rule = .error err ∧
            RuntimeFault registry object rule err) ∧
        ∀ value span, (Expr.integer value span).Within rule →
          ∃ v, (Expr.integer value span).eval registry object = .ok v) ∧
      Registry.standard.KeepsSignatures ∧
      ∀ aliases, (Registry.ofAliases aliases).KeepsSignatures := by
  refine ⟨fun registry rule object hkeeps hcheck => ⟨?_, fun value span hwithin => ?_⟩,
    Registry.keepsSignatures_standard, Registry.keepsSignatures_ofAliases⟩
  · have htyped := hasType_boolean_of_checkRule hcheck
    rcases Expr.eval_of_hasType object hkeeps htyped with ⟨v, hv, hty⟩ | ⟨err, herr, hfault⟩
    · obtain ⟨b, rfl⟩ := Value.exists_boolean_of_ty hty
      exact .inl ⟨b, by rw [evaluateRule, hv]; rfl⟩
    · exact .inr ⟨err, by rw [evaluateRule, herr]; rfl, hfault⟩
  · have hfits := (hasType_boolean_of_checkRule hcheck).fits_of_within hwithin
    obtain ⟨v, hv, -⟩ := Expr.settles_integer registry object hfits
    exact ⟨v, hv⟩

/-- The rule `1 / len(name) > 0`. -/
def reciprocalRule : Expr :=
  .binary .greater
    (.binary .divide (.integer 1 ⟨0, 1⟩)
      (.call ⟨"len", ⟨4, 7⟩⟩ [.var ⟨"name", ⟨8, 12⟩⟩] ⟨7, 13⟩ ⟨4, 13⟩) ⟨0, 13⟩)
    (.integer 0 ⟨16, 17⟩) ⟨0, 17⟩

/-- The reciprocal rule is not complained about, and fails for the empty name only at run time. -/
theorem evaluateRule_reciprocalRule :
    checkRule Registry.standard reciprocalRule = [] ∧
      evaluateRule Registry.standard ⟨"", "table", "dbo"⟩ reciprocalRule
        = .error (.divisionByZero ⟨0, 13⟩) ∧
      ((∃ verdict, evaluateRule Registry.standard ⟨"", "table", "dbo"⟩ reciprocalRule = .ok verdict) ∨
        ∃ err, evaluateRule Registry.standard ⟨"", "table", "dbo"⟩ reciprocalRule = .error err ∧
          RuntimeFault Registry.standard ⟨"", "table", "dbo"⟩ reciprocalRule err) := by
  have hcheck : checkRule Registry.standard reciprocalRule = [] := by cbv
  have heval : evaluateRule Registry.standard ⟨"", "table", "dbo"⟩ reciprocalRule
      = .error (.divisionByZero ⟨0, 13⟩) := by cbv
  refine ⟨hcheck, heval, ?_⟩
  exact (evaluateRule_of_checkRule.1 _ _ _ Registry.keepsSignatures_standard hcheck).1

end SqlPredicates
