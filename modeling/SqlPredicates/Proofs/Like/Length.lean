import SqlPredicates.Proofs.Like.Matching
import SqlPredicates.Proofs.Text.Case
import SqlPredicates.Rule.StandardFunctions

/-!
# Counting characters with LIKE

An underscore is said to stand for exactly one character, so a pattern of `n` underscores should
test whether a text has `n` characters. It tests the text in lowercase, which is longer than the
text if a capital I with a dot is in it. Such a letter is one character to the functions that count,
`left`, `right` and `substring`, and needs two underscores.

## Main definitions

* `Like.underscores` — the pattern that tests for a length

## Main results

* `like_underscores` — the length that is tested, and the texts for which it is that of the text
-/

namespace SqlPredicates

namespace Like

/-- The pattern of `n` underscores. -/
def underscores (n : ℕ) : String := String.ofList (List.replicate n '_')

theorem divides_underscore : Text.Divides '_' :=
  ⟨by decide, by decide, by decide⟩

theorem lowerFrom_replicate (before : List Char) (n : ℕ) :
    Text.lowerFrom before (List.replicate n '_') = List.replicate n '_' := by
  induction n generalizing before with
  | zero => rfl
  | succ n ih =>
    rw [List.replicate_succ, ← List.nil_append ('_' :: _),
      Text.lowerFrom_append_cons divides_underscore, ih]
    rfl

/-- Underscores stand for as many characters as there are of them. -/
theorem standsFor_underscores_iff {n : ℕ} {cs : List Char} :
    StandsFor (List.replicate n '_') cs ↔ cs.length = n := by
  induction n generalizing cs with
  | zero => rw [List.replicate_zero, standsFor_nil_iff, List.length_eq_zero_iff]
  | succ n ih =>
    rw [List.replicate_succ, standsFor_any_iff]
    constructor
    · rintro ⟨c, rest, rfl, hrest⟩
      rw [List.length_cons, ih.mp hrest]
    · intro hlength
      obtain ⟨c, rest, rfl⟩ := List.exists_cons_of_length_eq_add_one hlength
      exact ⟨c, rest, rfl, ih.mpr (Nat.succ.inj hlength)⟩

end Like

/-- **What underscores count.** A text matches `n` underscores if and only if `n` is the number of
its characters, with every capital I with a dot counted twice. So the number of underscores is the
number of characters for those texts that such an I is not in, and only for those. -/
theorem like_underscores (text : String) :
    (∀ n, like text (Like.underscores n) = true ↔ text.length + text.toList.count 'İ' = n) ∧
      ((∀ n, like text (Like.underscores n) = true ↔ text.length = n) ↔ 'İ' ∉ text.toList) := by
  have hcount : ∀ n, like text (Like.underscores n) = true ↔
      text.length + text.toList.count 'İ' = n := by
    intro n
    rw [Like.like_eq_true_iff, Text.toList_lowercase, Text.toList_lowercase, Like.underscores,
      String.toList_ofList, Like.lowerFrom_replicate, Like.standsFor_underscores_iff,
      Text.length_lowerFrom, String.length_toList]
  refine ⟨hcount, ?_⟩
  rw [← List.count_eq_zero]
  constructor
  · intro h
    have hlength := (h _).mp ((hcount _).mpr rfl)
    omega
  · intro h n
    rw [hcount, h, Nat.add_zero]

/-- A capital I with a dot is one character, and does not match one underscore. -/
theorem not_like_underscore_dotted :
    "İ".length = 1 ∧ like "İ" (Like.underscores 1) = false ∧
      StandardFunctions.left "İ" 1 = "İ" ∧ StandardFunctions.right "İ" 1 = "İ" ∧
      StandardFunctions.substring "İ" 1 1 = "İ" :=
  ⟨by decide, by cbv, by decide, by decide, by decide⟩

end SqlPredicates
