import SqlPredicates.Proofs.Rule.TypeSoundness

/-!
# Inferred types are never wrong

The checker gives a type to an expression even if it complains about parts of it: a call of a known
function has the result type of the function, whatever its arguments are. Such an expression may
still have a value, when the faulty part is an operand that is left out. This file shows that the
value then has the inferred type. Nothing is assumed about the complaints.

Type soundness goes from types to values. Here the value is given, and its type is read off the
operators: an operator that gives a value is one that the table of types admits for the types of its
operands, and the value has the type that the table says (`Evaluation.unary_eq_ok`,
`Evaluation.binary_eq_ok`).

## The contract of functions

What a function returns for arguments of the declared types has the declared type. Whether it
returns anything is left open, so this is less than `Function.KeepsSignature`.

## Main definitions

* `Function.ReturnsDeclared`, `Registry.ReturnsDeclared` — the contract of functions

## Main results

* `Evaluation.unary_eq_ok`, `Evaluation.binary_eq_ok` — operations that have a value
* `Expr.eval_call_eq_ok`, `Expr.eval_unary_eq_ok`, `Expr.eval_binary_eq_ok` — expressions that have
  a value
* `Expr.values_of_call` — the types of the arguments and of the value of a call
* `Expr.ty_of_assess` — the inferred type is the type of the value
* `ty_of_infer` — the same for a checker that has been used before
-/

namespace SqlPredicates

/-! ### The contract of functions -/

/-- What the function returns for arguments of the declared types has the declared type. -/
def Function.ReturnsDeclared (f : Function) : Prop :=
  ∀ (args : List Value) (v : Value), args.map Value.ty = f.params → f.body args = .ok v →
    v.ty = f.result

/-- Every function of the registry returns values of its declared type. -/
def Registry.ReturnsDeclared (r : Registry) : Prop := ∀ f ∈ r.functions, f.ReturnsDeclared

theorem Function.KeepsSignature.returnsDeclared {f : Function} (h : f.KeepsSignature) :
    f.ReturnsDeclared := by
  intro args v hargs hv
  rcases h args hargs with ⟨w, hw, hty⟩ | ⟨index, herr⟩
  · rw [hv] at hw
    cases hw
    exact hty
  · rw [hv] at herr
    cases herr

theorem Registry.returnsDeclared_standard : standard.ReturnsDeclared :=
  fun f hf => (keepsSignatures_standard f hf).returnsDeclared

namespace Function

/-- Arguments that pass the check have the declared types. -/
theorem types_of_mismatch? {index : ℕ} {args : List Value} {params : List Ty}
    (hlen : params.length = args.length) (h : mismatch? index args params = none) :
    args.map Value.ty = params := by
  induction args generalizing index params with
  | nil => exact (List.length_eq_zero_iff.mp hlen).symm
  | cons v args ih =>
    obtain ⟨param, params, rfl⟩ := List.exists_cons_of_length_eq_add_one hlen
    rw [mismatch?] at h
    split_ifs at h with hty
    rw [List.map_cons, hty, ih (Nat.succ.inj hlen) h]

/-- A call that returns a value was given arguments of the declared types. -/
theorem types_of_call {f : Function} {args : List Value} {v : Value} (hlen : f.arity = args.length)
    (h : f.call args = .ok v) : args.map Value.ty = f.params ∧ f.body args = .ok v := by
  rw [call] at h
  split at h
  · cases h
  · next hmismatch => exact ⟨types_of_mismatch? hlen hmismatch, h⟩

end Function

/-! ### The operators -/

namespace Evaluation

theorem Sound.ty_eq {ty : Ty} {span : Span} {v : Value} (h : Sound ty span (.ok v)) :
    v.ty = ty := by
  rcases h with ⟨w, hw, hty⟩ | h | h
  · cases hw
    exact hty
  · cases h
  · cases h

/-- A result in range is an integer, and is less than the bound of literals. -/
theorem inRange_eq_ok {span : Span} {n : ℤ} {v : Value} (h : inRange span n = .ok v) :
    v.ty = .integer ∧ n < 2 ^ 63 := by
  rw [inRange, Value.ofInt?] at h
  split_ifs at h with hrange
  cases h
  exact ⟨rfl, hrange.2⟩

/-- What the table of types rejects, the evaluation rejects. -/
theorem unary_of_none {op : UnaryOp} {v : Value} (span : Span) (h : Ty.unary? op v.ty = none) :
    unary op span v = .error (.operatorType (.unary op v.ty) span) := by
  cases op with
  | not =>
    cases v with
    | boolean => cases h
    | _ => rfl
  | neg =>
    cases v with
    | integer => cases h
    | _ => rfl

/-- What the table of types rejects, the evaluation rejects. The cases follow the rows of the
table. -/
theorem binary_of_none {op : BinaryOp} {l r : Value} (span : Span)
    (h : Ty.binary? op l.ty r.ty = none) :
    binary op span l r = .error (.operatorType (.binary op l.ty r.ty) span) := by
  cases op with
  | equal | notEqual =>
    cases l <;> cases r
    case integer.integer | string.string | boolean.boolean => cases h
    all_goals rfl
  | and | or =>
    cases l <;> cases r
    case boolean.boolean => cases h
    all_goals rfl
  | less | lessEqual | greater | greaterEqual | add =>
    cases l <;> cases r
    case integer.integer | string.string => cases h
    all_goals rfl
  | like =>
    cases l <;> cases r
    case string.string => cases h
    all_goals rfl
  | subtract | multiply | divide | remainder =>
    cases l <;> cases r
    case integer.integer => cases h
    all_goals rfl

/-- A prefix operator that gives a value applies to the type of its operand. -/
theorem unary_eq_ok {op : UnaryOp} {span : Span} {v w : Value} (h : unary op span v = .ok w) :
    Ty.unary? op v.ty = some w.ty := by
  cases hty : Ty.unary? op v.ty with
  | none =>
    rw [unary_of_none span hty] at h
    cases h
  | some result =>
    have hsound := unary_of_ty span hty rfl
    rw [h] at hsound
    rw [hsound.ty_eq]

/-- A binary operator that gives a value applies to the types of its operands. -/
theorem binary_eq_ok {op : BinaryOp} {span : Span} {l r v : Value}
    (h : binary op span l r = .ok v) : Ty.binary? op l.ty r.ty = some v.ty := by
  cases hty : Ty.binary? op l.ty r.ty with
  | none =>
    rw [binary_of_none span hty] at h
    cases h
  | some result =>
    have hsound := binary_of_ty span hty rfl rfl
    rw [h] at hsound
    rw [hsound.ty_eq]

end Evaluation

/-! ### Expressions that have a value -/

/-- Evaluations one after the other give a value if all of them do. -/
theorem Evaluation.bind_eq_ok {α β : Type} {x : Except EvalError α} {f : α → Except EvalError β}
    {b : β} : x >>= f = .ok b ↔ ∃ a, x = .ok a ∧ f a = .ok b := by
  cases x with
  | error err => simp [bind, Except.bind]
  | ok a => simp [bind, Except.bind]

namespace Expr

variable {registry : Registry} {object : ObjectName}

theorem eval_var_eq_ok {ident : Ident} {v : Value}
    (h : (Expr.var ident).eval registry object = .ok v) :
    ∃ property, Variable.ofName? ident.name = some property ∧
      v = .string (object.get property) := by
  rw [eval] at h
  split at h
  · next property hproperty =>
    cases h
    exact ⟨property, hproperty, rfl⟩
  · cases h

/-- A call that has a value found its function, had a value for every argument, and its function
returned the value. -/
theorem eval_call_eq_ok {ident : Ident} {args : List Expr} {argsSpan span : Span} {v : Value}
    (h : (Expr.call ident args argsSpan span).eval registry object = .ok v) :
    ∃ f values, registry.get? ident.name = some f ∧ f.arity = args.length ∧
      evalAll registry object args = .ok values ∧ f.call values = .ok v := by
  rw [eval] at h
  split at h
  · cases h
  · next f hf =>
    split_ifs at h with harity
    obtain ⟨values, hvalues, hcall⟩ := Evaluation.bind_eq_ok.mp h
    refine ⟨f, values, hf, harity, hvalues, ?_⟩
    split at hcall
    · next w hw =>
      cases hcall
      exact hw
    · cases hcall

theorem eval_unary_eq_ok {op : UnaryOp} {operand : Expr} {span : Span} {w : Value} :
    (Expr.unary op operand span).eval registry object = .ok w ↔
      ∃ v, operand.eval registry object = .ok v ∧ Evaluation.unary op span v = .ok w := by
  rw [eval, Evaluation.bind_eq_ok]

/-- A binary operation that has a value was decided by its left operand, or both operands have
values. -/
theorem eval_binary_eq_ok {op : BinaryOp} {lhs rhs : Expr} {span : Span} {v : Value}
    (h : (Expr.binary op lhs rhs span).eval registry object = .ok v) :
    ∃ l, lhs.eval registry object = .ok l ∧
      (Evaluation.decided? op l = some v ∨
        ∃ r, rhs.eval registry object = .ok r ∧ Evaluation.binary op span l r = .ok v) := by
  rw [eval, Evaluation.bind_eq_ok] at h
  obtain ⟨l, hl, h⟩ := h
  refine ⟨l, hl, ?_⟩
  split at h
  · next w hw =>
    cases h
    exact .inl hw
  · exact .inr (Evaluation.bind_eq_ok.mp h)

theorem evalAll_cons_eq_ok {e : Expr} {es : List Expr} {values : List Value}
    (h : evalAll registry object (e :: es) = .ok values) :
    ∃ v vs, e.eval registry object = .ok v ∧ evalAll registry object es = .ok vs ∧
      values = v :: vs := by
  rw [evalAll, Evaluation.bind_eq_ok] at h
  obtain ⟨v, hv, h⟩ := h
  obtain ⟨vs, hvs, h⟩ := Evaluation.bind_eq_ok.mp h
  cases h
  exact ⟨v, vs, hv, hvs, rfl⟩

theorem length_of_evalAll {es : List Expr} {values : List Value}
    (h : evalAll registry object es = .ok values) : values.length = es.length := by
  induction es generalizing values with
  | nil =>
    cases h
    rfl
  | cons e es ih =>
    obtain ⟨v, vs, -, hvs, rfl⟩ := evalAll_cons_eq_ok h
    rw [List.length_cons, List.length_cons, ih hvs]

/-! ### The inferred type -/

theorem unaryType_eq_some {op : UnaryOp} {span : Span} {ty? : Option Ty} {result : Ty}
    (h : (Checker.unaryType op span ty?).1 = some result) :
    ∃ ty, ty? = some ty ∧ Ty.unary? op ty = some result := by
  cases ty? with
  | none => cases h
  | some ty =>
    refine ⟨ty, rfl, ?_⟩
    rw [Checker.unaryType] at h
    split at h
    · next hty => rw [hty, ← h]
    · cases h

theorem binaryType_eq_some {op : BinaryOp} {span : Span} {left? right? : Option Ty} {result : Ty}
    (h : (Checker.binaryType op span left? right?).1 = some result) :
    ∃ left right, left? = some left ∧ right? = some right ∧
      Ty.binary? op left right = some result := by
  rw [Checker.binaryType.eq_def] at h
  split at h
  · next left right =>
    refine ⟨left, right, rfl, rfl, ?_⟩
    split at h
    · next hty => rw [hty, ← h]
    · cases h
  · cases h

/-- A call that has a value was given values of the types of the parameters, because its function
checked them, and then its value has the type of the function. What the checker found for the
arguments does not matter. -/
theorem values_of_call {ident : Ident} {args : List Expr} {argsSpan span : Span} {v : Value}
    (hreturns : registry.ReturnsDeclared)
    (h : (Expr.call ident args argsSpan span).eval registry object = .ok v) :
    ∃ f values, registry.get? ident.name = some f ∧ v.ty = f.result ∧
      evalAll registry object args = .ok values ∧ values.map Value.ty = f.params := by
  obtain ⟨f, values, hf, harity, hvalues, hcall⟩ := eval_call_eq_ok h
  have hlen : f.arity = values.length := harity.trans (length_of_evalAll hvalues).symm
  obtain ⟨htys, hbody⟩ := Function.types_of_call hlen hcall
  exact ⟨f, values, hf, hreturns f (Registry.get?_eq_some_iff.mp hf).1 values v htys hbody, hvalues, htys⟩

/-- **The inferred type is the type of the value.** The induction is on the expression. Complaints
play no part in it, and neither does the right operand where the left one decides. -/
theorem ty_of_assess (hreturns : registry.ReturnsDeclared) {e : Expr} {ty : Ty} {v : Value}
    (hty : (e.assess registry).1 = some ty) (hv : e.eval registry object = .ok v) : v.ty = ty := by
  induction e using induction_on_parts generalizing ty v with
  | _ e ih =>
    cases e with
    | integer value span =>
      cases hty
      rw [eval] at hv
      exact (Evaluation.inRange_eq_ok hv).1
    | string value span =>
      cases hty
      rw [eval] at hv
      cases hv
      rfl
    | var ident =>
      obtain ⟨property, hproperty, rfl⟩ := eval_var_eq_ok hv
      rw [assess, Checker.variableType, hproperty] at hty
      cases hty
      rfl
    | call ident args argsSpan span =>
      obtain ⟨f, values, hf, hv, -⟩ := values_of_call hreturns hv
      rw [assess, Checker.callType, hf] at hty
      cases hty
      exact hv
    | paren inner span =>
      rw [assess] at hty
      rw [eval] at hv
      exact ih inner (List.mem_singleton_self _) hty hv
    | unary op operand span =>
      rw [assess] at hty
      obtain ⟨operandTy, hoperand, happlies⟩ := unaryType_eq_some hty
      obtain ⟨w, hw, hop⟩ := eval_unary_eq_ok.mp hv
      have hwty : w.ty = operandTy := ih operand (List.mem_singleton_self _) hoperand hw
      have hresult := Evaluation.unary_eq_ok hop
      rw [hwty, happlies] at hresult
      exact (Option.some.inj hresult).symm
    | binary op lhs rhs span =>
      rw [assess] at hty
      obtain ⟨left, right, hleft, hright, happlies⟩ := binaryType_eq_some hty
      obtain ⟨l, hl, hvalue⟩ := eval_binary_eq_ok hv
      have hlty : l.ty = left := ih lhs List.mem_cons_self hleft hl
      rcases hvalue with hdecided | ⟨r, hr, hop⟩
      · exact Evaluation.ty_of_decided? happlies hdecided hlty
      · have hrty : r.ty = right := ih rhs (by simp [parts]) hright hr
        have hresult := Evaluation.binary_eq_ok hop
        rw [hlty, hrty, happlies] at hresult
        exact (Option.some.inj hresult).symm

end Expr

/-- **Inferred types are never wrong.** For functions that return values of their declared types, an
expression with an inferred type has no value of another type for any object. The checker may have
complained about the expression, and about others before it. -/
theorem ty_of_infer (registry : Registry) (object : ObjectName) (c : Checker) (e : Expr) (ty : Ty)
    (v : Value) (hreturns : registry.ReturnsDeclared) (hty : (c.infer registry e).1 = some ty)
    (hv : e.eval registry object = .ok v) : v.ty = ty := by
  rw [Checker.infer_eq] at hty
  exact Expr.ty_of_assess hreturns hty hv

/-- The rule `name = '' OR len(1) = 2`, whose right operand cannot be evaluated. -/
def emptyNameRule : Expr :=
  .binary .or
    (.binary .equal (.var ⟨"name", ⟨0, 4⟩⟩) (.string ⟨"", .single⟩ ⟨7, 9⟩) ⟨0, 9⟩)
    (.binary .equal
      (.call ⟨"len", ⟨13, 16⟩⟩ [.integer 1 ⟨17, 18⟩] ⟨16, 19⟩ ⟨13, 19⟩)
      (.integer 2 ⟨22, 23⟩) ⟨13, 23⟩) ⟨0, 23⟩

/-- The checker complains about an argument and infers a boolean all the same, and a boolean is the
value for an empty name. -/
theorem ty_of_infer_emptyNameRule :
    Registry.standard.ReturnsDeclared ∧
      Checker.fresh.infer Registry.standard emptyNameRule
        = (some .boolean, ⟨[], [.argumentType "len" 1 .string .integer ⟨17, 18⟩]⟩) ∧
      emptyNameRule.eval Registry.standard ⟨"", "table", "dbo"⟩ = .ok (.boolean true) ∧
      (Value.boolean true).ty = .boolean := by
  have hinfer : Checker.fresh.infer Registry.standard emptyNameRule
      = (some .boolean, ⟨[], [.argumentType "len" 1 .string .integer ⟨17, 18⟩]⟩) := by cbv
  have heval : emptyNameRule.eval Registry.standard ⟨"", "table", "dbo"⟩ = .ok (.boolean true) := by
    cbv
  refine ⟨Registry.returnsDeclared_standard, hinfer, heval, ?_⟩
  exact ty_of_infer _ _ Checker.fresh emptyNameRule _ _ Registry.returnsDeclared_standard
    (congrArg Prod.fst hinfer) heval

end SqlPredicates
