import SqlPredicates.Proofs.Rule.Inference
import SqlPredicates.Rule.StandardFunctions

/-!
# A checker can be used again

One checker can be asked for the types of several expressions. Its stack and its complaints stay with
it from one question to the next, so an entry too many or too few on the stack would become the type
of something else later on. This file shows that the questions do not influence each other: each is
answered as a fresh checker would answer it, the stack is given back as it was, and the complaints
are those of a fresh checker, behind the ones that were there before.

A visit returns nothing when it takes an entry from an empty stack, at whatever depth. That the
answers exist is thus part of what is shown.

## Main definitions

* `Checker.inferEach?` — the answers of one checker to several questions

## Main results

* `Checker.exists_infer?` — one question
* `infer_reusable` — questions one after the other
-/

namespace SqlPredicates

namespace Checker

/-- The types of expressions that one checker is asked for in turn, each with the checker as it is
afterwards. There are none if the stack is used up on the way. -/
def inferEach? (registry : Registry) : List Expr → Checker → Option (List (Option Ty × Checker))
  | [], _ => some []
  | e :: es, c => do
    let answer ← c.infer? registry e
    let answers ← inferEach? registry es answer.2
    return answer :: answers

/-- **One question.** A checker that has been used gives back its stack, answers as a fresh checker
does, and adds what that one would complain about. -/
theorem exists_infer? (registry : Registry) (e : Expr) (c : Checker) :
    ∃ ty after, c.infer? registry e = some (ty, after) ∧ after.types = c.types ∧
      ty = (fresh.infer registry e).1 ∧
      after.errors = c.errors ++ (fresh.infer registry e).2.errors := by
  refine ⟨(e.assess registry).1, c.complain (e.assess registry).2, ?_, rfl, ?_⟩
  · rw [infer?, visit_eq, Option.bind_eq_bind, Option.bind_some, pop?_conclude]
  · rw [infer_eq registry e fresh]
    exact ⟨rfl, rfl⟩

end Checker

/-- **A checker can be used again.** When a checker is asked for the types of several expressions, it
never takes an entry from an empty stack. Before and after each question its stack is the one it had
at first; the answer is that of a fresh checker; and its complaints are those from before the
question, followed by those of a fresh checker. -/
theorem infer_reusable (registry : Registry) (c : Checker) (es : List Expr) :
    ∃ answers, c.inferEach? registry es = some answers ∧ answers.length = es.length ∧
      ∀ (i : ℕ) (e : Expr), es[i]? = some e →
        ∃ before ty after, (c :: answers.map Prod.snd)[i]? = some before ∧
          answers[i]? = some (ty, after) ∧ before.infer? registry e = some (ty, after) ∧
          before.infer registry e = (ty, after) ∧ before.types = c.types ∧
          after.types = c.types ∧ ty = (Checker.fresh.infer registry e).1 ∧
          after.errors = before.errors ++ (Checker.fresh.infer registry e).2.errors := by
  induction es generalizing c with
  | nil => exact ⟨[], rfl, rfl, by simp⟩
  | cons e es ih =>
    obtain ⟨ty, after, hfirst, htypes, hty, herrors⟩ := c.exists_infer? registry e
    obtain ⟨answers, hanswers, hlength, hrest⟩ := ih after
    rw [htypes] at hrest
    refine ⟨(ty, after) :: answers, ?_, congrArg Nat.succ hlength, fun i e' he' => ?_⟩
    · rw [Checker.inferEach?, hfirst, Option.bind_eq_bind, Option.bind_some, hanswers]
      rfl
    · cases i with
      | zero =>
        obtain rfl : e = e' := Option.some.inj he'
        have hinfer : c.infer registry e = (ty, after) := by
          rw [Checker.infer, hfirst, Option.getD_some]
        exact ⟨c, ty, after, rfl, rfl, hfirst, hinfer, rfl, htypes, hty, herrors⟩
      -- the checker before a later question is the one after the question before it
      | succ i => exact hrest i e' he'

/-- The expression `missing`, which is no variable. -/
def missingVariable : Expr := .var ⟨"missing", ⟨0, 7⟩⟩

/-- The expression `len(1)`, with an argument of the wrong type. -/
def lengthOfInteger : Expr :=
  .call ⟨"len", ⟨0, 3⟩⟩ [.integer 1 ⟨4, 5⟩] ⟨3, 6⟩ ⟨0, 6⟩

/-- After a variable of unknown type, a call with a complaint gets its type and only its own
complaint is added. -/
theorem infer_reusable_lengthOfInteger :
    ∃ answers after, Checker.fresh.inferEach? Registry.standard [missingVariable, lengthOfInteger] =
        some answers ∧
      answers[1]? = some (some .integer, after) ∧ after.types = [] ∧
      after.errors = [.unknownVariable "missing" ⟨0, 7⟩,
        .argumentType "len" 1 .string .integer ⟨4, 5⟩] := by
  have hmissing : Checker.fresh.infer Registry.standard missingVariable =
      (none, ⟨[], [.unknownVariable "missing" ⟨0, 7⟩]⟩) := by decide
  have hlength : Checker.fresh.infer Registry.standard lengthOfInteger =
      (some .integer, ⟨[], [.argumentType "len" 1 .string .integer ⟨4, 5⟩]⟩) := by decide
  obtain ⟨answers, hanswers, -, hsteps⟩ :=
    infer_reusable Registry.standard Checker.fresh [missingVariable, lengthOfInteger]
  obtain ⟨first, ty, second, hfirst, hanswer, -, -, -, -, -, herrors⟩ := hsteps 0 missingVariable rfl
  obtain ⟨before, ty', after, hbefore, hanswer', -, -, -, htypes, rfl, herrors'⟩ :=
    hsteps 1 lengthOfInteger rfl
  obtain rfl : Checker.fresh = first := Option.some.inj hfirst
  rw [List.getElem?_cons_succ, List.getElem?_map, hanswer] at hbefore
  obtain rfl : second = before := Option.some.inj hbefore
  rw [hlength] at hanswer' herrors'
  rw [herrors, hmissing] at herrors'
  exact ⟨answers, after, hanswers, hanswer', htypes, herrors'⟩

end SqlPredicates
