import SqlPredicates.Proofs.NodeOrder
import SqlPredicates.Proofs.Rule.Inference

/-!
# Typing of expressions

The types of expressions as a relation that does not mention the checker, its stack or its
complaints: a rule for each form of expression. A call is typed by the signature of its function,
with one argument for each parameter.

The checker is related to it in the direction that evaluation needs: an expression about which the
checker does not complain has a type. An unknown type is always the consequence of some complaint,
so the case "no complaint, and no type either" does not arise.

## Main definitions

* `Expr.HasType`, `Expr.HaveTypes` — the typing relation

## Main results

* `Expr.hasType_of_assess`, `Expr.haveTypes_of_assessAll` — no complaint gives a type
* `hasType_boolean_of_checkRule` — a rule without complaints is boolean
-/

namespace SqlPredicates

namespace Expr

mutual

/-- An expression has a type. -/
inductive HasType (registry : Registry) : Expr → Ty → Prop
  | integer {value : UInt64} {span : Span} (fits : value.toNat < 2 ^ 63) :
      HasType registry (.integer value span) .integer
  | string {value : Quoted} {span : Span} : HasType registry (.string value span) .string
  | var {ident : Ident} {property : Variable}
      (known : Variable.ofName? ident.name = some property) :
      HasType registry (.var ident) .string
  | call {ident : Ident} {args : List Expr} {argsSpan span : Span} {f : Function}
      (known : registry.get? ident.name = some f) (typed : HaveTypes registry args f.params) :
      HasType registry (.call ident args argsSpan span) f.result
  | paren {inner : Expr} {span : Span} {ty : Ty} (typed : HasType registry inner ty) :
      HasType registry (.paren inner span) ty
  | unary {op : UnaryOp} {operand : Expr} {span : Span} {ty result : Ty}
      (typed : HasType registry operand ty) (applies : Ty.unary? op ty = some result) :
      HasType registry (.unary op operand span) result
  | binary {op : BinaryOp} {lhs rhs : Expr} {span : Span} {left right result : Ty}
      (typedLeft : HasType registry lhs left) (typedRight : HasType registry rhs right)
      (applies : Ty.binary? op left right = some result) :
      HasType registry (.binary op lhs rhs span) result

/-- Expressions have types, one each. -/
inductive HaveTypes (registry : Registry) : List Expr → List Ty → Prop
  | nil : HaveTypes registry [] []
  | cons {e : Expr} {es : List Expr} {ty : Ty} {tys : List Ty} (first : HasType registry e ty)
      (rest : HaveTypes registry es tys) : HaveTypes registry (e :: es) (ty :: tys)

end

variable {registry : Registry}

theorem HaveTypes.length_eq {es : List Expr} {tys : List Ty} (h : HaveTypes registry es tys) :
    es.length = tys.length := by
  induction es generalizing tys with
  | nil => cases h; rfl
  | cons e es ih => cases h with | cons _ rest => simp [ih rest]

theorem HaveTypes.exists_hasType {es : List Expr} {tys : List Ty} (h : HaveTypes registry es tys)
    {e : Expr} (he : e ∈ es) : ∃ ty, HasType registry e ty := by
  induction es generalizing tys with
  | nil => cases he
  | cons e' es ih =>
    cases h with
    | cons first rest =>
      rcases List.mem_cons.mp he with rfl | he
      · exact ⟨_, first⟩
      · exact ih rest he

/-- The parts of a typed expression are typed. -/
theorem HasType.exists_part {e part : Expr} {ty : Ty} (h : HasType registry e ty)
    (hp : part ∈ e.parts) : ∃ ty, HasType registry part ty := by
  cases h with
  | integer | string | var => cases hp
  | call _ typed => exact typed.exists_hasType hp
  | paren typed | unary typed _ =>
    obtain rfl := List.mem_singleton.mp hp
    exact ⟨_, typed⟩
  | binary typedLeft typedRight _ =>
    simp only [parts, List.mem_cons, List.not_mem_nil, or_false] at hp
    rcases hp with rfl | rfl
    · exact ⟨_, typedLeft⟩
    · exact ⟨_, typedRight⟩

/-- Every integer literal of a typed expression is in range. -/
theorem HasType.fits_of_within {e : Expr} {ty : Ty} (h : HasType registry e ty) {value : UInt64}
    {span : Span} (hw : (Expr.integer value span).Within e) : value.toNat < 2 ^ 63 := by
  have htyped : e.Everywhere fun e => ∃ ty, HasType registry e ty :=
    everywhere_of_hereditary (fun _ _ ⟨_, he⟩ hp => he.exists_part hp) ⟨ty, h⟩
  obtain ⟨_, hlit⟩ := htyped _ hw
  cases hlit with
  | integer fits => exact fits

/-! ### The complaints of one node -/

/-- Arguments of known types without a complaint have the types of the parameters. -/
theorem params_of_argumentErrors {name : String} {index : ℕ} {types params : List Ty}
    {args : List Expr} (hargs : args.length = types.length) (hparams : params.length = types.length)
    (h : Checker.argumentErrors name index (types.map some) params args = []) :
    types = params := by
  induction types generalizing index params args with
  | nil => exact (List.length_eq_zero_iff.mp hparams).symm
  | cons ty types ih =>
    obtain ⟨arg, args, rfl⟩ := List.exists_cons_of_length_eq_add_one hargs
    obtain ⟨param, params, rfl⟩ := List.exists_cons_of_length_eq_add_one hparams
    simp only [List.length_cons, Nat.add_right_cancel_iff] at hargs hparams
    simp only [List.map_cons, Checker.argumentErrors] at h
    split at h
    · next hty => rw [hty, ih hargs hparams h]
    · simp at h

/-- A call without a complaint, on arguments of known types, finds a function with these types as
parameters. -/
theorem callType_eq_nil {ident : Ident} {args : List Expr} {span : Span} {types : List Ty}
    (hlen : args.length = types.length)
    (h : (Checker.callType registry ident args span (types.map some)).2 = []) :
    ∃ f, registry.get? ident.name = some f ∧ f.params = types ∧
      (Checker.callType registry ident args span (types.map some)).1 = some f.result := by
  simp only [Checker.callType, List.length_map] at h ⊢
  cases hf : registry.get? ident.name with
  | none => simp [hf] at h
  | some f =>
    simp only [hf] at h
    split at h
    · next harity => exact ⟨f, rfl, (params_of_argumentErrors hlen harity h).symm, rfl⟩
    · simp at h

theorem unaryType_eq_nil {op : UnaryOp} {span : Span} {ty : Ty}
    (h : (Checker.unaryType op span (some ty)).2 = []) :
    ∃ result, Ty.unary? op ty = some result ∧
      (Checker.unaryType op span (some ty)).1 = some result := by
  simp only [Checker.unaryType] at h ⊢
  cases hty : Ty.unary? op ty with
  | none => simp [hty] at h
  | some result => exact ⟨result, rfl, rfl⟩

theorem binaryType_eq_nil {op : BinaryOp} {span : Span} {left right : Ty}
    (h : (Checker.binaryType op span (some left) (some right)).2 = []) :
    ∃ result, Ty.binary? op left right = some result ∧
      (Checker.binaryType op span (some left) (some right)).1 = some result := by
  simp only [Checker.binaryType] at h ⊢
  cases hty : Ty.binary? op left right with
  | none => simp [hty] at h
  | some result => exact ⟨result, rfl, rfl⟩

/-! ### Nodes without a complaint -/

theorem literalErrors_of_fits {value : UInt64} (span : Span) (fits : value.toNat < 2 ^ 63) :
    Checker.literalErrors value span = [] :=
  if_pos fits

/-- Arguments that have the types of the parameters are not complained about. -/
theorem argumentErrors_of_types (name : String) (index : ℕ) (types : List Ty) (args : List Expr) :
    Checker.argumentErrors name index (types.map some) types args = [] := by
  induction types generalizing index args with
  | nil => rfl
  | cons ty types ih =>
    cases args with
    | nil => rfl
    | cons arg args => simp only [List.map_cons, Checker.argumentErrors, if_true, ih]

theorem callType_of_types {ident : Ident} {f : Function} (args : List Expr) (span : Span)
    (hf : registry.get? ident.name = some f) :
    Checker.callType registry ident args span (f.params.map some) = (some f.result, []) := by
  simp only [Checker.callType, hf, Function.arity, List.length_map, if_true,
    argumentErrors_of_types]

theorem unaryType_of_ty {op : UnaryOp} {ty result : Ty} (span : Span)
    (h : Ty.unary? op ty = some result) :
    Checker.unaryType op span (some ty) = (some result, []) := by
  simp only [Checker.unaryType, h]

theorem binaryType_of_ty {op : BinaryOp} {left right result : Ty} (span : Span)
    (h : Ty.binary? op left right = some result) :
    Checker.binaryType op span (some left) (some right) = (some result, []) := by
  simp only [Checker.binaryType, h]

/-! ### No complaint gives a type -/

mutual

/-- An expression without complaints has a type, which is the one that the checker finds. -/
theorem hasType_of_assess : ∀ e : Expr, (e.assess registry).2 = [] →
    ∃ ty, (e.assess registry).1 = some ty ∧ HasType registry e ty
  | .integer value span, h => by
    simp only [assess, Checker.literalErrors] at h
    split at h
    · next fits => exact ⟨.integer, rfl, .integer fits⟩
    · simp at h
  | .string .., _ => ⟨.string, rfl, .string⟩
  | .var ident, h => by
    simp only [assess, Checker.variableType] at h ⊢
    cases hv : Variable.ofName? ident.name with
    | none => simp [hv] at h
    | some property => exact ⟨.string, rfl, .var hv⟩
  | .call ident args _ span, h => by
    simp only [assess, List.append_eq_nil_iff] at h ⊢
    obtain ⟨tys, htys, hargs⟩ := haveTypes_of_assessAll args h.1
    rw [htys] at h ⊢
    obtain ⟨f, hf, rfl, hresult⟩ := callType_eq_nil hargs.length_eq h.2
    exact ⟨f.result, hresult, .call hf hargs⟩
  | .paren inner _, h => by
    obtain ⟨ty, hty, hinner⟩ := hasType_of_assess inner h
    exact ⟨ty, hty, .paren hinner⟩
  | .unary op operand span, h => by
    simp only [assess, List.append_eq_nil_iff] at h ⊢
    obtain ⟨ty, hty, hoperand⟩ := hasType_of_assess operand h.1
    rw [hty] at h ⊢
    obtain ⟨result, happlies, hresult⟩ := unaryType_eq_nil h.2
    exact ⟨result, hresult, .unary hoperand happlies⟩
  | .binary op lhs rhs span, h => by
    simp only [assess, List.append_eq_nil_iff] at h ⊢
    obtain ⟨left, hleft, hlhs⟩ := hasType_of_assess lhs h.1.1
    obtain ⟨right, hright, hrhs⟩ := hasType_of_assess rhs h.1.2
    rw [hleft, hright] at h ⊢
    obtain ⟨result, happlies, hresult⟩ := binaryType_eq_nil h.2
    exact ⟨result, hresult, .binary hlhs hrhs happlies⟩

/-- Expressions without complaints have types, which are those that the checker finds. -/
theorem haveTypes_of_assessAll : ∀ es : List Expr, (assessAll registry es).2 = [] →
    ∃ tys : List Ty, (assessAll registry es).1 = tys.map some ∧ HaveTypes registry es tys
  | [], _ => ⟨[], rfl, .nil⟩
  | e :: es, h => by
    simp only [assessAll, List.append_eq_nil_iff] at h ⊢
    obtain ⟨ty, hty, he⟩ := hasType_of_assess e h.1
    obtain ⟨tys, htys, hes⟩ := haveTypes_of_assessAll es h.2
    exact ⟨ty :: tys, by rw [hty, htys, List.map_cons], .cons he hes⟩

end

end Expr

/-- A rule without complaints is boolean. -/
theorem hasType_boolean_of_checkRule {registry : Registry} {e : Expr}
    (h : checkRule registry e = []) : e.HasType registry .boolean := by
  rw [checkRule_eq, List.append_eq_nil_iff] at h
  obtain ⟨ty, hty, he⟩ := Expr.hasType_of_assess e h.1
  rw [hty] at h
  cases ty with
  | boolean => exact he
  | integer => simp at h
  | string => simp at h

end SqlPredicates
