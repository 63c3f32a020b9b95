import SqlPredicates.Rule.Value

/-!
# Functions and registries

A function has a signature and a body on lists of values. Calling it checks the types of the
arguments, as far as the signature goes, before the body runs. A registry finds functions by name
without regard to ASCII case, and has no two functions with one name.

## Main definitions

* `CallError` — why a call fails
* `Function`, `Function.call` — a function and its application
* `Registry`, `Registry.add`, `Registry.get?` — the functions that a rule can call

## Main results

* `Registry.get?_eq_some_iff`, `Registry.get?_add` — what a name finds
-/

namespace SqlPredicates

/-- Why a call fails. Arguments are counted from one. -/
inductive CallError where
  | argumentType (index : Nat) (expected found : Ty)
  | negativeLength (index : Nat)
  | missingArgument (index : Nat)
  deriving DecidableEq, Repr

/-- The wording of a failed call. -/
def CallError.message : CallError → String
  | .argumentType index expected found =>
    "argument " ++ toString index ++ " must be " ++ expected.name ++ ", found " ++ found.name
  | .negativeLength index => "argument " ++ toString index ++ " must not be negative"
  | .missingArgument index => "argument " ++ toString index ++ " is missing"

/-- A function with its signature. -/
structure Function where
  ident : String
  params : List Ty
  result : Ty
  body : List Value → Except CallError Value

namespace Function

/-- The number of parameters. -/
def arity (f : Function) : Nat := f.params.length

/-- The first argument, counted from `index`, that does not have the type of its parameter. -/
def mismatch? : Nat → List Value → List Ty → Option CallError
  | index, v :: vs, t :: ts =>
    if v.ty = t then mismatch? (index + 1) vs ts else some (.argumentType index t v.ty)
  | _, _, _ => none

/-- Applies a function after checking the types of its arguments. -/
def call (f : Function) (args : List Value) : Except CallError Value :=
  match mismatch? 1 args f.params with
  | some e => .error e
  | none => f.body args

end Function

/-- Functions with different names, where names that differ only in ASCII case count as the same. -/
structure Registry where
  functions : List Function
  distinct : functions.Pairwise fun f g => ¬ Text.sameAscii f.ident g.ident

namespace Registry

/-- No functions. -/
def empty : Registry := ⟨[], .nil⟩

/-- The function with a given name. -/
def get? (r : Registry) (name : String) : Option Function :=
  r.functions.find? fun f => Text.sameAscii f.ident name

/-- The functions that do not have the given name. -/
def without (r : Registry) (name : String) : List Function :=
  r.functions.filter fun f => !Text.sameAscii f.ident name

theorem mem_without_iff {r : Registry} {name : String} {f : Function} :
    f ∈ r.without name ↔ f ∈ r.functions ∧ ¬ Text.sameAscii f.ident name := by
  simp [without]

/-- Adds a function in place of the one with the same name. -/
def add (r : Registry) (f : Function) : Registry where
  functions := r.without f.ident ++ [f]
  distinct := by
    refine List.pairwise_append.mpr ⟨r.distinct.filter _, List.pairwise_singleton _ _, ?_⟩
    intro g hg f' hf'
    rw [List.mem_singleton.mp hf']
    exact (mem_without_iff.mp hg).2

/-- A name finds a function if and only if it is the name of that function. -/
theorem get?_eq_some_iff {r : Registry} {name : String} {f : Function} :
    r.get? name = some f ↔ f ∈ r.functions ∧ Text.sameAscii f.ident name := by
  constructor
  · intro h
    exact ⟨List.mem_of_find?_eq_some h, by simpa using List.find?_some h⟩
  · rintro ⟨hmem, hname⟩
    obtain ⟨before, after, happend⟩ := List.append_of_mem hmem
    have hdistinct := r.distinct
    rw [happend] at hdistinct
    refine List.find?_eq_some_iff_append.mpr ⟨hname, before, after, happend, fun g hg => ?_⟩
    have hne := (List.pairwise_append.mp hdistinct).2.2 g hg f List.mem_cons_self
    rw [Text.sameAscii_iff] at hname hne
    rw [Bool.not_eq_true', Bool.eq_false_iff, ne_eq, Text.sameAscii_iff, ← hname]
    exact hne

/-- After a function is added, its name finds it, and all other names find what they found before. -/
theorem get?_add (r : Registry) (f : Function) (name : String) :
    (r.add f).get? name = if Text.sameAscii f.ident name then some f else r.get? name := by
  split
  · next hname => exact get?_eq_some_iff.mpr ⟨List.mem_append_right _ List.mem_cons_self, hname⟩
  · next hname =>
    refine Option.ext fun g => ?_
    rw [get?_eq_some_iff, get?_eq_some_iff, add, List.mem_append, mem_without_iff,
      List.mem_singleton]
    constructor
    · rintro ⟨⟨hmem, -⟩ | rfl, hg⟩
      · exact ⟨hmem, hg⟩
      · exact absurd hg hname
    · rintro ⟨hmem, hg⟩
      refine ⟨.inl ⟨hmem, fun hsame => hname ?_⟩, hg⟩
      rw [Text.sameAscii_iff] at hg hsame ⊢
      exact hsame.symm.trans hg

/-- The functions in the order of their names. -/
def sorted (r : Registry) : List Function :=
  r.functions.mergeSort fun f g => decide (f.ident ≤ g.ident)

end Registry

end SqlPredicates
