import SqlPredicates.Text.Case
import Mathlib.Data.Char
import Mathlib.Data.List.Basic
import Mathlib.Tactic.Common

/-!
# Lowercase texts

What putting a text into lowercase does to it as a list of characters. A character becomes one
character, which is itself or stands at `a` or behind it, with a single exception: the capital I
with a dot becomes two characters. So a lowercase text is longer than the original by the number of
such letters, and has no digits and no signs in front of `a` that the original does not have.

The case of a sigma depends on its neighbours, but these are not looked for behind a character that
is neither cased nor passed over. Such a character divides a text into two parts that are put into
lowercase by themselves.

## Main definitions

* `Text.Divides` — the characters that nothing is looked for behind

## Main results

* `Text.length_lowerFrom` — the length of a lowercase text
* `Text.mem_lowerFrom` — the characters of a lowercase text
* `Text.lowerFrom_append_cons` — a text is put into lowercase part by part
-/

namespace SqlPredicates

namespace Text

@[simp] theorem toList_lowercase (s : String) : (lowercase s).toList = lowerFrom [] s.toList :=
  String.toList_ofList

/-! ### Single characters -/

/-- A shifted code point comes from a run that holds it. -/
theorem exists_of_shifted {ss : List Shift} {n m : ℕ} (h : shifted ss n = some m) :
    ∃ s ∈ ss, s.run.holds n = true ∧ m = (n + s.distance).toNat := by
  induction ss with
  | nil => cases h
  | cons s ss ih =>
    rw [shifted] at h
    split at h
    · cases h
    · split at h
      · next hholds => exact ⟨s, List.mem_cons_self, hholds, (Option.some.inj h).symm⟩
      · obtain ⟨s', hs', hrest⟩ := ih h
        exact ⟨s', List.mem_cons_of_mem s hs', hrest⟩

/-- Every capital moves to a code point of a character, and to none before `a`. -/
theorem lowerShifts_bounds : ∀ s ∈ lowerShifts, 0x61 ≤ s.run.first + s.distance ∧
    (s.run.last + s.distance < 0xd800 ∨
      0xdfff < s.run.first + s.distance ∧ s.run.last + s.distance < 0x110000) := by
  decide +kernel

theorem le_of_mem_shifts {s : Shift} (hs : s ∈ lowerShifts) {n : ℕ} (hn : s.run.holds n = true) :
    'a' ≤ Char.ofNat (n + s.distance).toNat := by
  obtain ⟨hlow, hvalid⟩ := lowerShifts_bounds s hs
  simp only [Run.holds, Bool.and_eq_true, decide_eq_true_eq] at hn
  have hchar : (n + s.distance).toNat.isValidChar := by
    rw [Nat.isValidChar]
    omega
  have hcode : (Char.ofNat (n + s.distance).toNat).toNat = (n + s.distance).toNat := by
    rw [Char.ofNat, dif_pos hchar]
    rfl
  change 0x61 ≤ (Char.ofNat (n + s.distance).toNat).toNat
  rw [hcode]
  omega

/-- The capital I with a dot becomes two characters. -/
theorem lowerChar_dotted : lowerChar 'İ' = ['i', '\u0307'] := by decide +kernel

/-- Every other character becomes one. -/
theorem lowerChar_of_ne {c : Char} (h : c ≠ 'İ') :
    ∃ x, lowerChar c = [x] ∧ (x = c ∨ 'a' ≤ x) := by
  rw [lowerChar, mapped]
  split
  · next n hn =>
    obtain ⟨s, hs, hholds, rfl⟩ := exists_of_shifted hn
    exact ⟨_, rfl, .inr (le_of_mem_shifts hs hholds)⟩
  · have hnone : lowerExpansions.lookup c.toNat = none := by
      have hcode : c.toNat ≠ 0x130 := fun heq => h (Char.ext (UInt32.toNat.inj heq))
      rw [lowerExpansions, List.lookup_cons, beq_false_of_ne hcode]
      rfl
    rw [hnone]
    exact ⟨c, rfl, .inl rfl⟩

/-! ### Texts -/

/-- What stands in a lowercase text for the first character. -/
theorem lowerFrom_cons (before : List Char) (c : Char) (after : List Char) :
    ∃ xs, lowerFrom before (c :: after) = xs ++ lowerFrom (c :: before) after ∧
      (c = 'İ' ∧ xs = ['i', '\u0307'] ∨ c ≠ 'İ' ∧ ∃ x, xs = [x] ∧ (x = c ∨ 'a' ≤ x)) := by
  refine ⟨_, by rw [lowerFrom], ?_⟩
  by_cases hsigma : c = 'Σ'
  · rw [if_pos hsigma]
    refine .inr ⟨?_, _, rfl, .inr ?_⟩
    · rw [hsigma]
      decide
    · split
      · decide
      · decide
  · rw [if_neg hsigma]
    by_cases hdotted : c = 'İ'
    · exact .inl ⟨hdotted, hdotted ▸ lowerChar_dotted⟩
    · exact .inr ⟨hdotted, lowerChar_of_ne hdotted⟩

theorem length_lowerFrom (before cs : List Char) :
    (lowerFrom before cs).length = cs.length + cs.count 'İ' := by
  induction cs generalizing before with
  | nil => rfl
  | cons c cs ih =>
    obtain ⟨xs, hxs, hc⟩ := lowerFrom_cons before c cs
    rw [hxs, List.length_append, ih, List.length_cons]
    rcases hc with ⟨rfl, rfl⟩ | ⟨hne, x, rfl, -⟩
    · rw [List.count_cons_self, List.length_cons, List.length_singleton]
      omega
    · rw [List.count_cons_of_ne hne, List.length_singleton]
      omega

/-- **The characters of a lowercase text** are characters of the text, or stand at `a` or behind. -/
theorem mem_lowerFrom {x : Char} {before cs : List Char} (h : x ∈ lowerFrom before cs) :
    x ∈ cs ∨ 'a' ≤ x := by
  induction cs generalizing before with
  | nil => cases h
  | cons c cs ih =>
    obtain ⟨xs, hxs, hc⟩ := lowerFrom_cons before c cs
    rw [hxs, List.mem_append] at h
    rcases h with h | h
    · rcases hc with ⟨-, rfl⟩ | ⟨-, y, rfl, hy⟩
      · obtain rfl | rfl : x = 'i' ∨ x = '\u0307' := by simpa using h
        · exact .inr (by decide)
        · exact .inr (by decide)
      · obtain rfl := List.mem_singleton.mp h
        rcases hy with rfl | hy
        · exact .inl List.mem_cons_self
        · exact .inr hy
    · exact (ih h).imp_left (List.mem_cons_of_mem c)

/-! ### Parts of texts -/

/-- A character that case rules do not look behind, and that they do not change. -/
structure Divides (c : Char) : Prop where
  /-- The search for a cased neighbour does not pass it over. -/
  seen : isCaseIgnorable c = false
  /-- The search does not find a cased neighbour in it. -/
  uncased : isCased c = false
  kept : lowerChar c = [c]

variable {c : Char}

theorem nextIsCased_append_cons (hc : Divides c) (near far : List Char) :
    nextIsCased (near ++ c :: far) = nextIsCased near := by
  rw [nextIsCased, nextIsCased, List.dropWhile_append]
  cases near.dropWhile isCaseIgnorable with
  | nil => simp [hc.seen, hc.uncased]
  | cons x xs => rfl

/-- What stands before the dividing character does not matter to what follows. -/
theorem lowerFrom_before (hc : Divides c) (near far cs : List Char) :
    lowerFrom (near ++ c :: far) cs = lowerFrom near cs := by
  induction cs generalizing near with
  | nil => rfl
  | cons x cs ih =>
    rw [lowerFrom, lowerFrom, endsWord, endsWord, nextIsCased_append_cons hc, ← List.cons_append,
      ih]

/-- **A text is put into lowercase part by part.** -/
theorem lowerFrom_append_cons (hc : Divides c) (before cs after : List Char) :
    lowerFrom before (cs ++ c :: after) = lowerFrom before cs ++ c :: lowerFrom [] after := by
  induction cs generalizing before with
  | nil =>
    have hsigma : c ≠ 'Σ' := by
      rintro rfl
      exact absurd hc.uncased (by decide +kernel)
    have hfirst : lowerFrom before (c :: after) = c :: lowerFrom (c :: before) after := by
      rw [lowerFrom, if_neg hsigma, hc.kept]
      rfl
    rw [List.nil_append, hfirst, ← List.nil_append (c :: before), lowerFrom_before hc]
    rfl
  | cons x cs ih =>
    rw [List.cons_append, lowerFrom, lowerFrom, ih, endsWord, endsWord, nextIsCased_append_cons hc,
      List.append_assoc]

end Text

end SqlPredicates
