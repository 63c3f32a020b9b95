import SqlPredicates.Proofs.Rule.Typing
import Mathlib.Data.List.Forall2

/-!
# The checker accepts the well-typed rules

The typing relation has one rule for each form of expression and knows neither the stack of the
checker nor unknown types. This file shows that the checker decides it. That an expression without
complaints is typed has been shown along with the relation; here a typed expression is shown to have
its type as the inferred one, and no complaint.

So "no complaint" and "typed" agree, although the checker goes on after a complaint and the relation
does not.

## The typing of names

Two rules of the relation look something up, with the functions that the checker uses for it. To say
what they come down to without these, a variable is spelled like one of three names, and a call finds
the first function that is spelled like its name, both up to ASCII case.

## Main results

* `Expr.assess_of_hasType` — a typed expression is not complained about
* `Expr.hasType_iff_assess` — the relation and the checker agree
* `Expr.hasType_var_iff`, `Expr.hasType_call_iff` — the typing of names
* `accepted_iff_hasType` — the same for whole rules and for a fresh checker
-/

namespace SqlPredicates

/-- The names of variables are known up to ASCII case. -/
theorem Variable.exists_ofName?_iff {name : String} :
    (∃ property, ofName? name = some property) ↔
      Text.foldAscii name ∈ ["name", "kind", "schema"] := by
  have hname : Text.foldAscii "name" = "name" := by decide
  have hkind : Text.foldAscii "kind" = "kind" := by decide
  have hschema : Text.foldAscii "schema" = "schema" := by decide
  simp only [ofName?, Text.sameAscii_iff, hname, hkind, hschema, List.mem_cons,
    List.not_mem_nil, or_false]
  split_ifs <;> simp_all

namespace Expr

variable {registry : Registry}

/-! ### A type excludes complaints -/

mutual

/-- A typed expression has its type as the inferred one and is not complained about. -/
theorem assess_of_hasType : ∀ {e : Expr} {ty : Ty}, HasType registry e ty →
    e.assess registry = (some ty, [])
  | .integer .., _, .integer fits => by
    rw [assess, literalErrors_of_fits _ fits]
  | .string .., _, .string => by rw [assess]
  | .var _, _, .var known => by rw [assess, Checker.variableType, known]
  | .call _ args _ span, _, .call known typed => by
    rw [assess, assessAll_of_haveTypes typed, callType_of_types args span known]
    rfl
  | .paren .., _, .paren typed => by rw [assess, assess_of_hasType typed]
  | .unary _ _ span, _, .unary typed applies => by
    rw [assess, assess_of_hasType typed, unaryType_of_ty span applies]
    rfl
  | .binary _ _ _ span, _, .binary typedLeft typedRight applies => by
    rw [assess, assess_of_hasType typedLeft, assess_of_hasType typedRight,
      binaryType_of_ty span applies]
    rfl

/-- Typed expressions have their types as the inferred ones and are not complained about. -/
theorem assessAll_of_haveTypes : ∀ {es : List Expr} {tys : List Ty}, HaveTypes registry es tys →
    assessAll registry es = (tys.map some, [])
  | [], _, .nil => by rw [assessAll, List.map_nil]
  | _ :: _, _, .cons first rest => by
    rw [assessAll, assess_of_hasType first, assessAll_of_haveTypes rest]
    rfl

end

/-- **The checker decides the typing relation.** -/
theorem hasType_iff_assess {e : Expr} {ty : Ty} :
    HasType registry e ty ↔ e.assess registry = (some ty, []) := by
  refine ⟨assess_of_hasType, fun h => ?_⟩
  obtain ⟨found, hfound, htyped⟩ := hasType_of_assess e (congrArg Prod.snd h)
  rw [h] at hfound
  cases hfound
  exact htyped

/-! ### The typing of names -/

theorem hasType_var_iff {ident : Ident} {ty : Ty} :
    HasType registry (.var ident) ty ↔
      ty = .string ∧ Text.foldAscii ident.name ∈ ["name", "kind", "schema"] := by
  rw [← Variable.exists_ofName?_iff]
  constructor
  · intro h
    cases h with
    | var known => exact ⟨rfl, _, known⟩
  · rintro ⟨rfl, property, known⟩
    exact .var known

theorem haveTypes_iff_forall₂ {es : List Expr} {tys : List Ty} :
    HaveTypes registry es tys ↔ List.Forall₂ (HasType registry) es tys := by
  induction es generalizing tys with
  | nil =>
    rw [List.forall₂_nil_left_iff]
    constructor
    · intro h
      cases h
      rfl
    · rintro rfl
      exact .nil
  | cons e es ih =>
    rw [List.forall₂_cons_left_iff]
    constructor
    · intro h
      cases h with
      | cons first rest => exact ⟨_, _, first, ih.mp rest, rfl⟩
    · rintro ⟨ty, tys, first, rest, rfl⟩
      exact .cons first (ih.mpr rest)

/-- A call has the result type of its function, which is found up to ASCII case, if there are as many
arguments as parameters and each has the type of its parameter. -/
theorem hasType_call_iff {ident : Ident} {args : List Expr} {argsSpan span : Span} {ty : Ty} :
    HasType registry (.call ident args argsSpan span) ty ↔
      ∃ f : Function, registry.functions.find?
          (fun f => Text.foldAscii f.ident == Text.foldAscii ident.name) = some f ∧
        args.length = f.arity ∧ (∀ p ∈ args.zip f.params, HasType registry p.1 p.2) ∧
        f.result = ty := by
  have htyped : ∀ f : Function, HaveTypes registry args f.params ↔
      args.length = f.arity ∧ ∀ p ∈ args.zip f.params, HasType registry p.1 p.2 := fun f => by
    rw [haveTypes_iff_forall₂, List.forall₂_iff_zip, Function.arity, Prod.forall]
  constructor
  · intro h
    cases h with
    | call known typed =>
      obtain ⟨hlength, hargs⟩ := (htyped _).mp typed
      exact ⟨_, known, hlength, hargs, rfl⟩
  · rintro ⟨f, known, hlength, hargs, rfl⟩
    exact .call known ((htyped f).mpr ⟨hlength, hargs⟩)

end Expr

/-! ### Rules -/

/-- **The checker accepts exactly the well-typed rules.** There is no complaint about a rule if and
only if it is boolean by the typing relation, and a fresh checker infers a type without a complaint
if and only if the expression has that type. The last two parts spell out the typing of names. -/
theorem accepted_iff_hasType (registry : Registry) :
    (∀ rule : Expr, checkRule registry rule = [] ↔ rule.HasType registry .boolean) ∧
      (∀ (e : Expr) (ty : Ty),
        (Checker.fresh.infer registry e).1 = some ty ∧
          (Checker.fresh.infer registry e).2.errors = [] ↔ e.HasType registry ty) ∧
      (∀ (ident : Ident) (ty : Ty), (Expr.var ident).HasType registry ty ↔
        ty = .string ∧ Text.foldAscii ident.name ∈ ["name", "kind", "schema"]) ∧
      ∀ (ident : Ident) (args : List Expr) (argsSpan span : Span) (ty : Ty),
        (Expr.call ident args argsSpan span).HasType registry ty ↔
          ∃ f : Function, registry.functions.find?
              (fun f => Text.foldAscii f.ident == Text.foldAscii ident.name) = some f ∧
            args.length = f.arity ∧ (∀ p ∈ args.zip f.params, p.1.HasType registry p.2) ∧
            f.result = ty := by
  refine ⟨fun rule => ⟨hasType_boolean_of_checkRule, fun h => ?_⟩, fun e ty => ?_,
    fun ident ty => Expr.hasType_var_iff, fun ident args argsSpan span ty => Expr.hasType_call_iff⟩
  · rw [checkRule_eq, Expr.assess_of_hasType h]
    rfl
  · rw [Expr.hasType_iff_assess, Checker.infer_eq, Prod.ext_iff]
    exact Iff.rfl

end SqlPredicates
