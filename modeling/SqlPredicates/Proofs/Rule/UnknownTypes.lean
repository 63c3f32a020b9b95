import SqlPredicates.Proofs.Rule.Inference
import SqlPredicates.Rule.StandardFunctions
import Mathlib.Data.List.Forall2

/-!
# Unknown types cause no further complaints

If the type of an expression cannot be known, there is a complaint about it or about something
inside it. Whatever stands around it cannot be judged then and should not be complained about. To
make this precise, the expression is replaced by another one, in the same surroundings: all
complaints about the surroundings have to be there as well, in the same order.

The surroundings are a `Context`, an expression with a hole. A visit of the whole comes to the hole,
visits what is in it, and goes on. The complaints of these three parts are told apart by the state
of the checker when it comes to the hole and when it leaves it.

What is carried through a context is `Expr.Vaguer`: less may be known about one of two expressions
than about the other, but nothing else. A call of a known function has its type whatever its
arguments are, so above it the same is known of both.

## Main definitions

* `Expr.Context`, `Expr.Context.fill` — an expression with a hole, and what is put into it
* `Expr.Context.enter`, `Expr.Context.leave` — a visit up to the hole, and from there on
* `Expr.Context.Records` — the complaints before, in and after the hole
* `Expr.Vaguer` — less is known about the type of an expression

## Main results

* `Expr.Context.visit_fill` — a visit goes through the hole
* `Expr.Vaguer.fill` — what is known about the whole
* `unknown_type_silent` — an expression of unknown type causes no complaints elsewhere
-/

namespace SqlPredicates

namespace Expr

/-! ### Contexts -/

/-- An expression with a hole in the place of one expression inside it. The nodes around the hole have
their places. -/
inductive Context where
  | hole
  | call (ident : Ident) (before : List Expr) (inner : Context) (after : List Expr)
      (argsSpan span : Span)
  | paren (inner : Context) (span : Span)
  | unary (op : UnaryOp) (inner : Context) (span : Span)
  | binaryLeft (op : BinaryOp) (inner : Context) (rhs : Expr) (span : Span)
  | binaryRight (op : BinaryOp) (lhs : Expr) (inner : Context) (span : Span)

namespace Context

/-- The expression with `e` in the hole. -/
def fill : Context → Expr → Expr
  | hole, e => e
  | call ident before inner after argsSpan span, e =>
    .call ident (before ++ inner.fill e :: after) argsSpan span
  | paren inner span, e => .paren (inner.fill e) span
  | unary op inner span, e => .unary op (inner.fill e) span
  | binaryLeft op inner rhs span, e => .binary op (inner.fill e) rhs span
  | binaryRight op lhs inner span, e => .binary op lhs (inner.fill e) span

/-- The part of a visit before the hole. -/
def enter (registry : Registry) : Context → Checker → Option Checker
  | hole, c => some c
  | call _ before inner _ _ _, c => do
    let c ← Checker.visitAll registry before c
    inner.enter registry c
  | paren inner _, c | unary _ inner _, c | binaryLeft _ inner _ _, c => inner.enter registry c
  | binaryRight _ lhs inner _, c => do
    let c ← Checker.visit registry lhs c
    inner.enter registry c

/-- The part of a visit after the hole, in which `e` stands. -/
def leave (registry : Registry) : Context → Expr → Checker → Option Checker
  | hole, _, c => some c
  | call ident before inner after _ span, e, c => do
    let args := before ++ inner.fill e :: after
    let c ← inner.leave registry e c
    let c ← Checker.visitAll registry after c
    let (types, c) ← c.popMany? args.length
    return c.conclude (Checker.callType registry ident args span types)
  | paren inner _, e, c => inner.leave registry e c
  | unary op inner span, e, c => do
    let c ← inner.leave registry e c
    let (ty, c) ← c.pop?
    return c.conclude (Checker.unaryType op span ty)
  | binaryLeft op inner rhs span, e, c => do
    let c ← inner.leave registry e c
    let c ← Checker.visit registry rhs c
    let (right, c) ← c.pop?
    let (left, c) ← c.pop?
    return c.conclude (Checker.binaryType op span left right)
  | binaryRight op _ inner span, e, c => do
    let c ← inner.leave registry e c
    let (right, c) ← c.pop?
    let (left, c) ← c.pop?
    return c.conclude (Checker.binaryType op span left right)

end Context

end Expr

theorem Checker.visitAll_append (registry : Registry) (es es' : List Expr) (c : Checker) :
    visitAll registry (es ++ es') c = visitAll registry es c >>= visitAll registry es' := by
  induction es generalizing c with
  | nil => rfl
  | cons e es ih =>
    rw [List.cons_append, visitAll, visitAll, bind_assoc]
    exact congrArg (visit registry e c >>= ·) (funext ih)

namespace Expr

namespace Context

/-- **A visit goes through the hole.** -/
theorem visit_fill (registry : Registry) (C : Context) (e : Expr) (c : Checker) :
    Checker.visit registry (C.fill e) c =
      C.enter registry c >>= Checker.visit registry e >>= C.leave registry e := by
  induction C generalizing c with
  | hole => simp [fill, enter, leave]
  | call ident before inner after argsSpan span ih =>
    simp only [fill, enter, leave, Checker.visit, Checker.visitAll_append, Checker.visitAll, ih,
      bind_assoc]
  | paren inner span ih => simp only [fill, enter, leave, Checker.visit, ih]
  | unary op inner span ih => simp only [fill, enter, leave, Checker.visit, ih, bind_assoc]
  | binaryLeft op inner rhs span ih => simp only [fill, enter, leave, Checker.visit, ih, bind_assoc]
  | binaryRight op lhs inner span ih => simp only [fill, enter, leave, Checker.visit, ih, bind_assoc]

/-! ### Complaints around the hole -/

/-- The complaints made before a visit comes to the hole. -/
def complaintsBefore (registry : Registry) : Context → List CheckError
  | hole => []
  | call _ before inner _ _ _ =>
    (assessAll registry before).2 ++ inner.complaintsBefore registry
  | paren inner _ | unary _ inner _ | binaryLeft _ inner _ _ => inner.complaintsBefore registry
  | binaryRight _ lhs inner _ => (lhs.assess registry).2 ++ inner.complaintsBefore registry

/-- The complaints made after the hole, in which `e` stands. -/
def complaintsAfter (registry : Registry) : Context → Expr → List CheckError
  | hole, _ => []
  | call ident before inner after _ span, e =>
    let args := before ++ inner.fill e :: after
    inner.complaintsAfter registry e ++ (assessAll registry after).2 ++
      (Checker.callType registry ident args span (assessAll registry args).1).2
  | paren inner _, e => inner.complaintsAfter registry e
  | unary op inner span, e =>
    inner.complaintsAfter registry e ++
      (Checker.unaryType op span ((inner.fill e).assess registry).1).2
  | binaryLeft op inner rhs span, e =>
    inner.complaintsAfter registry e ++ (rhs.assess registry).2 ++
      (Checker.binaryType op span ((inner.fill e).assess registry).1 (rhs.assess registry).1).2
  | binaryRight op lhs inner span, e =>
    inner.complaintsAfter registry e ++
      (Checker.binaryType op span (lhs.assess registry).1 ((inner.fill e).assess registry).1).2

end Context

theorem assessAll_append (registry : Registry) (es es' : List Expr) :
    assessAll registry (es ++ es') =
      ((assessAll registry es).1 ++ (assessAll registry es').1,
        (assessAll registry es).2 ++ (assessAll registry es').2) := by
  induction es with
  | nil => rfl
  | cons e es ih => simp [assessAll, ih]

namespace Context

theorem exists_enter (registry : Registry) (C : Context) (c : Checker) :
    ∃ types, C.enter registry c = some ⟨types, c.errors ++ C.complaintsBefore registry⟩ := by
  induction C generalizing c with
  | hole => exact ⟨c.types, by simp [enter, complaintsBefore]⟩
  | call ident before inner after argsSpan span ih =>
    obtain ⟨types, htypes⟩ := ih ⟨(assessAll registry before).1.reverse ++ c.types,
      c.errors ++ (assessAll registry before).2⟩
    refine ⟨types, ?_⟩
    rw [enter, Checker.visitAll_eq, Option.bind_eq_bind, Option.bind_some, htypes,
      complaintsBefore, List.append_assoc]
  | paren inner span ih | unary op inner span ih | binaryLeft op inner rhs span ih => exact ih c
  | binaryRight op lhs inner span ih =>
    obtain ⟨types, htypes⟩ := ih (c.conclude (lhs.assess registry))
    refine ⟨types, ?_⟩
    rw [enter, Checker.visit_eq, Option.bind_eq_bind, Option.bind_some, htypes,
      Checker.errors_conclude, complaintsBefore, List.append_assoc]

/-- The complaints about the whole. -/
theorem complaints_fill (registry : Registry) (C : Context) (e : Expr) :
    ((C.fill e).assess registry).2 =
      C.complaintsBefore registry ++ (e.assess registry).2 ++ C.complaintsAfter registry e := by
  induction C with
  | hole => simp [fill, complaintsBefore, complaintsAfter]
  | call ident before inner after argsSpan span ih =>
    simp only [fill, assess, complaintsBefore, complaintsAfter, assessAll_append, assessAll, ih,
      List.append_assoc]
  | paren inner span ih => simp only [fill, assess, complaintsBefore, complaintsAfter, ih]
  | unary op inner span ih | binaryLeft op inner rhs span ih | binaryRight op lhs inner span ih =>
    simp only [fill, assess, complaintsBefore, complaintsAfter, ih, List.append_assoc]

/-- The complaints that `checkRule` has about `e` in the context: `before` when the visit comes to
the hole, `inside` from then on until it leaves `e`, and `after` from there on to the end. -/
structure Records (registry : Registry) (C : Context) (e : Expr)
    (before inside after : List CheckError) : Prop where
  exists_visit : ∃ reached passed left : Checker,
    C.enter registry Checker.fresh = some reached ∧ reached.errors = before ∧
      Checker.visit registry e reached = some passed ∧ passed.errors = before ++ inside ∧
      C.leave registry e passed = some left ∧
      Checker.visit registry (C.fill e) Checker.fresh = some left
  checkRule_eq : checkRule registry (C.fill e) = before ++ inside ++ after

/-- The complaint that the whole is not boolean. -/
def resultErrors (registry : Registry) (e : Expr) : List CheckError :=
  match (e.assess registry).1 with
  | some .boolean | none => []
  | some found => [.notABoolean found e.span]

theorem records (registry : Registry) (C : Context) (e : Expr) :
    C.Records registry e (C.complaintsBefore registry) (e.assess registry).2
      (C.complaintsAfter registry e ++ resultErrors registry (C.fill e)) where
  exists_visit := by
    obtain ⟨types, henter⟩ := C.exists_enter registry Checker.fresh
    let reached : Checker := ⟨types, C.complaintsBefore registry⟩
    have hwhole := Checker.visit_eq registry (C.fill e) Checker.fresh
    have hleave := hwhole
    rw [visit_fill, henter, Option.bind_eq_bind, Option.bind_some, Checker.visit_eq,
      Option.bind_some] at hleave
    exact ⟨reached, reached.conclude (e.assess registry), _, henter, rfl,
      Checker.visit_eq registry e reached, rfl, hleave, hwhole⟩
  checkRule_eq := by
    rw [SqlPredicates.checkRule_eq, complaints_fill, ← List.append_assoc]
    rfl

end Context

/-! ### Less is known -/

/-- Nothing is known about the type of `e` that does not hold of `e'`: if the type of `e` is known,
the two have one type and one place. -/
def Vaguer (registry : Registry) (e e' : Expr) : Prop :=
  ∀ ty, (e.assess registry).1 = some ty → (e'.assess registry).1 = some ty ∧ e.span = e'.span

theorem Vaguer.refl (registry : Registry) (e : Expr) : Vaguer registry e e :=
  fun _ hty => ⟨hty, rfl⟩

/-- Of an expression of unknown type nothing is known. -/
theorem vaguer_of_eq_none {registry : Registry} {e : Expr} (h : (e.assess registry).1 = none)
    (e' : Expr) : Vaguer registry e e' := by
  intro ty hty
  rw [h] at hty
  cases hty

end Expr

namespace Checker

variable {registry : Registry} {t t' u u' : Option Ty}

/-- The type of a call does not depend on the arguments. -/
theorem callType_fst (registry : Registry) (ident : Ident) (args args' : List Expr) (span : Span)
    (types types' : List (Option Ty)) :
    (callType registry ident args span types).1 = (callType registry ident args' span types').1 := by
  rw [callType, callType]
  split <;> rfl

/-- A conclusion is withheld, or it is drawn alike. -/
def Withheld (r r' : Option Ty × List CheckError) : Prop := r = (none, []) ∨ r = r'

namespace Withheld

variable {r r' : Option Ty × List CheckError}

theorem type_imp (h : Withheld r r') {ty : Ty} (hty : r.1 = some ty) : r'.1 = some ty := by
  rcases h with rfl | rfl
  · cases hty
  · exact hty

theorem errors_sublist (h : Withheld r r') : r.2.Sublist r'.2 := by
  rcases h with rfl | rfl
  · exact List.nil_sublist _
  · exact .refl _

end Withheld

theorem withheld_unaryType (op : UnaryOp) (span : Span) (h : ∀ ty, t = some ty → t' = some ty) :
    Withheld (unaryType op span t) (unaryType op span t') := by
  cases t with
  | none => exact .inl rfl
  | some ty => exact .inr (by rw [h ty rfl])

theorem withheld_binaryType (op : BinaryOp) (span : Span) (ht : ∀ ty, t = some ty → t' = some ty)
    (hu : ∀ ty, u = some ty → u' = some ty) :
    Withheld (binaryType op span t u) (binaryType op span t' u') := by
  cases t with
  | none => exact .inl rfl
  | some ty =>
    cases u with
    | none => exact .inl rfl
    | some ty' => exact .inr (by rw [ht ty rfl, hu ty' rfl])

/-- Arguments of which less is known cause no other complaints. -/
theorem argumentErrors_sublist (name : String) {args args' : List Expr}
    (h : List.Forall₂ (Expr.Vaguer registry) args args') (index : ℕ) (params : List Ty) :
    (argumentErrors name index (Expr.assessAll registry args).1 params args).Sublist
      (argumentErrors name index (Expr.assessAll registry args').1 params args') := by
  induction h generalizing index params with
  | nil => exact .refl _
  | @cons e e' args args' hfirst hothers ih =>
    cases params with
    | nil => simp [Expr.assessAll, argumentErrors]
    | cons expected params =>
      have hrest := ih (index + 1) params
      simp only [Expr.assessAll, argumentErrors]
      cases hty : (e.assess registry).1 with
      | none =>
        refine hrest.trans ?_
        split
        · exact .refl _
        · split
          · exact .refl _
          · exact List.sublist_cons_self _ _
      | some ty =>
        obtain ⟨hty', hspan⟩ := hfirst ty hty
        rw [hty', hspan]
        dsimp only
        split
        · exact hrest
        · exact hrest.cons_cons _

theorem callType_sublist (ident : Ident) (span : Span) {args args' : List Expr}
    (h : List.Forall₂ (Expr.Vaguer registry) args args') :
    (callType registry ident args span (Expr.assessAll registry args).1).2.Sublist
      (callType registry ident args' span (Expr.assessAll registry args').1).2 := by
  rw [callType, callType]
  split
  · exact .refl _
  · next f hf =>
    dsimp only
    rw [Expr.length_assessAll, Expr.length_assessAll, h.length_eq]
    split
    · exact argumentErrors_sublist f.ident h 1 f.params
    · exact .refl _

end Checker

namespace Expr

variable {registry : Registry} {u v : Expr}

/-- **What is known about the whole.** -/
theorem Vaguer.fill (h : Vaguer registry u v) (C : Context) :
    Vaguer registry (C.fill u) (C.fill v) := by
  induction C with
  | hole => exact h
  | call ident before inner after argsSpan span ih =>
    intro ty hty
    refine ⟨?_, rfl⟩
    rw [← hty]
    exact Checker.callType_fst registry ident _ _ span _ _
  | paren inner span ih => exact fun ty hty => ⟨(ih ty hty).1, rfl⟩
  | unary op inner span ih =>
    have hown := Checker.withheld_unaryType op span fun ty hty => (ih ty hty).1
    exact fun ty hty => ⟨hown.type_imp hty, rfl⟩
  | binaryLeft op inner rhs span ih =>
    have hown := Checker.withheld_binaryType op span (fun ty hty => (ih ty hty).1)
      fun ty hty => (Vaguer.refl registry rhs ty hty).1
    exact fun ty hty => ⟨hown.type_imp hty, rfl⟩
  | binaryRight op lhs inner span ih =>
    have hown := Checker.withheld_binaryType op span
      (fun ty hty => (Vaguer.refl registry lhs ty hty).1) fun ty hty => (ih ty hty).1
    exact fun ty hty => ⟨hown.type_imp hty, rfl⟩

/-- The arguments of a call, one of them with a hole. -/
theorem Vaguer.arguments (h : Vaguer registry u v) (before after : List Expr) :
    List.Forall₂ (Vaguer registry) (before ++ u :: after) (before ++ v :: after) := by
  have hrefl : ∀ es : List Expr, List.Forall₂ (Vaguer registry) es es :=
    fun es => List.forall₂_same.mpr fun e _ => Vaguer.refl registry e
  exact List.rel_append (hrefl before) (.cons h (hrefl after))

/-- The complaints after the hole. -/
theorem Vaguer.complaintsAfter (h : Vaguer registry u v) (C : Context) :
    (C.complaintsAfter registry u).Sublist (C.complaintsAfter registry v) := by
  induction C with
  | hole => exact .refl _
  | call ident before inner after argsSpan span ih =>
    exact (ih.append (.refl _)).append
      (Checker.callType_sublist ident span ((h.fill inner).arguments before after))
  | paren inner span ih => exact ih
  | unary op inner span ih =>
    have hown := Checker.withheld_unaryType op span fun ty hty => (h.fill inner ty hty).1
    exact ih.append hown.errors_sublist
  | binaryLeft op inner rhs span ih =>
    have hown := Checker.withheld_binaryType op span (fun ty hty => (h.fill inner ty hty).1)
      fun ty hty => (Vaguer.refl registry rhs ty hty).1
    exact (ih.append (.refl _)).append hown.errors_sublist
  | binaryRight op lhs inner span ih =>
    have hown := Checker.withheld_binaryType op span
      (fun ty hty => (Vaguer.refl registry lhs ty hty).1) fun ty hty => (h.fill inner ty hty).1
    exact ih.append hown.errors_sublist

/-- The complaint that the whole is not boolean. -/
theorem Vaguer.resultErrors (h : Vaguer registry u v) :
    (Context.resultErrors registry u).Sublist (Context.resultErrors registry v) := by
  rw [Context.resultErrors, Context.resultErrors]
  cases hty : (u.assess registry).1 with
  | none => exact List.nil_sublist _
  | some ty =>
    obtain ⟨hty', hspan⟩ := h ty hty
    rw [hty', hspan]

end Expr

/-- **An expression of unknown type causes no complaints elsewhere.** Put `u` and `v` into the same
context, where the type of `u` cannot be known. The complaints about the first rule other than those
recorded while `u` is visited are among the complaints about the second rule other than those
recorded while `v` is visited, in the same order. -/
theorem unknown_type_silent (registry : Registry) (C : Expr.Context) (u v : Expr)
    (hu : (inferType registry u).1 = none) :
    ∃ before inside after inside' after' : List CheckError,
      C.Records registry u before inside after ∧ C.Records registry v before inside' after' ∧
        (before ++ after).Sublist (before ++ after') := by
  rw [inferType_eq] at hu
  have hvaguer := Expr.vaguer_of_eq_none hu v
  have hafter := (hvaguer.complaintsAfter C).append (hvaguer.fill C).resultErrors
  exact ⟨_, _, _, _, _, C.records registry u, C.records registry v, hafter.append_left _⟩

/-- The context `len(□) = 'x'`. -/
def lengthContext : Expr.Context :=
  .binaryLeft .equal (.call ⟨"len", ⟨0, 3⟩⟩ [] .hole [] ⟨3, 6⟩ ⟨0, 6⟩) (.string ⟨"x", .single⟩ ⟨9, 12⟩)
    ⟨0, 12⟩

/-- The call in the context has its type whatever its argument is, so the comparison is complained
about in both rules. An argument of a wrong type is complained about as well. -/
theorem unknown_type_silent_length :
    (inferType Registry.standard (.var ⟨"y", ⟨4, 5⟩⟩)).1 = none ∧
      checkRule Registry.standard (lengthContext.fill (.var ⟨"y", ⟨4, 5⟩⟩)) =
        [.unknownVariable "y" ⟨4, 5⟩, .operatorType (.binary .equal .integer .string) ⟨0, 12⟩] ∧
      checkRule Registry.standard (lengthContext.fill (.integer 1 ⟨4, 5⟩)) =
        [.argumentType "len" 1 .string .integer ⟨4, 5⟩,
          .operatorType (.binary .equal .integer .string) ⟨0, 12⟩] ∧
      ∃ before inside after inside' after' : List CheckError,
        lengthContext.Records Registry.standard (.var ⟨"y", ⟨4, 5⟩⟩) before inside after ∧
          lengthContext.Records Registry.standard (.integer 1 ⟨4, 5⟩) before inside' after' ∧
          (before ++ after).Sublist (before ++ after') := by
  have hu : (inferType Registry.standard (.var ⟨"y", ⟨4, 5⟩⟩)).1 = none := by decide
  exact ⟨hu, by decide, by decide,
    unknown_type_silent Registry.standard lengthContext _ (.integer 1 ⟨4, 5⟩) hu⟩

end SqlPredicates
