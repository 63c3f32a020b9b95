import SqlPredicates.Proofs.Search.Meaning
import Mathlib.Order.Bounds.Defs
import Mathlib.Order.Interval.Finset.Nat

/-!
# How far NEAR reaches

The number that goes with `NEAR` is announced as the greatest number of words between its sides.
What a search compares with it is the distance of two positions, and neighbouring words have
distance one although nothing stands between them. Two words are therefore found near each other
only if fewer words than announced stand between them.

The difference shows only at the limit: it is seen exactly when the two words come as close to each
other as the limit allows and no closer.

## Main definitions

* `wordsBetween` — the number of positions strictly between two positions
* `Document.Apart` — two words stand in a document with a number of words between them

## Main results

* `Document.fulfils_near_words` — `NEAR` of two words, and when the announced limit is missed
-/

namespace SqlPredicates

/-- The number of positions strictly between two positions. -/
def wordsBetween (p q : ℕ) : ℕ := (Finset.Ioo (min p q) (max p q)).card

/-- The distance of two positions is one more than the number of positions between them. -/
theorem abs_sub_eq_wordsBetween {p q : ℕ} (h : p ≠ q) :
    |(p : ℤ) - q| = wordsBetween p q + 1 := by
  rw [wordsBetween, Nat.card_Ioo]
  rcases Nat.lt_or_gt_of_ne h with hlt | hgt
  · rw [abs_of_nonpos (by omega)]
    omega
  · rw [abs_of_nonneg (by omega)]
    omega

namespace Document

/-- The words `a` and `b` stand in the document, in this order or the other, with `n` words between
them. -/
def Apart (d : Document) (a b : String) (n : ℕ) : Prop :=
  ∃ i j, d.words[i]? = some a ∧ d.words[j]? = some b ∧ wordsBetween i j = n

/-- A bare word is found where the document has it. -/
theorem occursAt_word_iff {d : Document} {text a : String} (h : Text.words text = [a])
    (span : Span) (p : ℕ) : d.OccursAt ⟨.word text, span⟩ p ↔ d.words[p]? = some a := by
  have hwords : SimpleTerm.words ⟨.word text, span⟩ = [a] := h
  rw [OccursAt, hwords]
  constructor
  · rintro ⟨-, hall⟩
    obtain ⟨word, hword, hfits⟩ := hall 0 a rfl
    have heq : word = a := hfits
    rwa [heq] at hword
  · intro hp
    refine ⟨List.cons_ne_nil a [], fun i wanted hwanted => ?_⟩
    obtain ⟨rfl, rfl⟩ : i = 0 ∧ wanted = a := by
      cases i with
      | zero => exact ⟨rfl, (Option.some.inj hwanted).symm⟩
      | succ i => cases hwanted
    exact ⟨wanted, hp, rfl⟩

/-- Two words are found near each other if their positions are at most `near` apart. -/
theorem fulfils_near_iff {d : Document} {s t a b : String} (hs : Text.words s = [a])
    (ht : Text.words t = [b]) (near : ℕ) (span span' span'' : Span) :
    d.fulfils near
        (.joined .near (.simple ⟨.word s, span⟩) (.simple ⟨.word t, span'⟩) span'') = true ↔
      ∃ i j : ℕ, d.words[i]? = some a ∧ d.words[j]? = some b ∧ |(i : ℤ) - j| ≤ near := by
  rw [fulfils, (d.represents_search near _).matched_iff]
  constructor
  · rintro ⟨p, i, hi, j, hj, hij, -⟩
    exact ⟨i, j, (occursAt_word_iff hs span i).mp hi, (occursAt_word_iff ht span' j).mp hj, hij⟩
  · rintro ⟨i, j, hi, hj, hij⟩
    exact ⟨i, i, (occursAt_word_iff hs span i).mpr hi, j, (occursAt_word_iff ht span' j).mpr hj,
      hij, .inl rfl⟩

/-- Two different words are found near each other if fewer than `near` words stand between them. -/
theorem fulfils_near_iff_apart {d : Document} {s t a b : String} (hs : Text.words s = [a])
    (ht : Text.words t = [b]) (hab : a ≠ b) (near : ℕ) (span span' span'' : Span) :
    d.fulfils near
        (.joined .near (.simple ⟨.word s, span⟩) (.simple ⟨.word t, span'⟩) span'') = true ↔
      ∃ n < near, d.Apart a b n := by
  -- one position cannot have both words, so that the distance is at least one
  have hne : ∀ {i j : ℕ}, d.words[i]? = some a → d.words[j]? = some b → i ≠ j := by
    rintro i j hi hj rfl
    exact hab (Option.some.inj (hi.symm.trans hj))
  rw [fulfils_near_iff hs ht]
  constructor
  · rintro ⟨i, j, hi, hj, hij⟩
    rw [abs_sub_eq_wordsBetween (hne hi hj)] at hij
    exact ⟨wordsBetween i j, by omega, i, j, hi, hj, rfl⟩
  · rintro ⟨n, hn, i, j, hi, hj, rfl⟩
    refine ⟨i, j, hi, hj, ?_⟩
    rw [abs_sub_eq_wordsBetween (hne hi hj)]
    omega

/-- **`NEAR` finds words with fewer words between them than its number.** A document fulfils the
condition that one word be near another if and only if they stand in it somewhere with fewer than
`near` words between them. So a document with at most `near` words between them is missed exactly
when the closest such places have `near` words between them. -/
theorem fulfils_near_words {s t a b : String} (hs : Text.words s = [a]) (ht : Text.words t = [b])
    (hab : a ≠ b) (d : Document) (near : ℕ) (span span' span'' : Span) :
    let condition : Term :=
      .joined .near (.simple ⟨.word s, span⟩) (.simple ⟨.word t, span'⟩) span''
    (d.fulfils near condition = true ↔ ∃ n < near, d.Apart a b n) ∧
      ((∃ n ≤ near, d.Apart a b n) ∧ d.fulfils near condition = false ↔
        IsLeast {n | d.Apart a b n} near) := by
  intro condition
  have hfulfils : d.fulfils near condition = true ↔ ∃ n < near, d.Apart a b n :=
    fulfils_near_iff_apart hs ht hab near span span' span''
  refine ⟨hfulfils, ?_⟩
  rw [← Bool.not_eq_true, hfulfils]
  constructor
  · rintro ⟨⟨n, hn, hapart⟩, hnone⟩
    have hleast : ∀ m, d.Apart a b m → near ≤ m := by
      intro m hm
      by_contra hlt
      exact hnone ⟨m, Nat.lt_of_not_le hlt, hm⟩
    obtain rfl := Nat.le_antisymm hn (hleast n hapart)
    exact ⟨hapart, hleast⟩
  · rintro ⟨hapart, hleast⟩
    refine ⟨⟨near, Nat.le_refl near, hapart⟩, ?_⟩
    rintro ⟨n, hn, hn'⟩
    have hle : near ≤ n := hleast hn'
    omega

/-- The condition `microsoft NEAR supports`. -/
def microsoftNearSupports : Term :=
  .joined .near (.simple ⟨.word "microsoft", ⟨0, 9⟩⟩) (.simple ⟨.word "supports", ⟨15, 23⟩⟩)
    ⟨0, 23⟩

/-- Two words stand between `microsoft` and `supports`, which are found with the number three. -/
theorem fulfils_near_words_microsoft :
    Text.words "microsoft" = ["microsoft"] ∧ Text.words "supports" = ["supports"] ∧
      "microsoft" ≠ "supports" ∧
      (ofText "Microsoft SQL Server supports full-text search.").fulfils 3 microsoftNearSupports =
        true := by
  have hs : Text.words "microsoft" = ["microsoft"] := by decide
  have ht : Text.words "supports" = ["supports"] := by decide
  have hab : "microsoft" ≠ "supports" := by decide
  refine ⟨hs, ht, hab, ?_⟩
  exact (fulfils_near_words hs ht hab _ 3 _ _ _).1.mpr
    ⟨2, by decide, 0, 3, by decide, by decide, by decide⟩

/-- The same two words are missed with the number two. -/
theorem not_fulfils_near_at_limit :
    Text.words "microsoft" = ["microsoft"] ∧ Text.words "supports" = ["supports"] ∧
      (ofText "Microsoft SQL Server supports full-text search.").Apart "microsoft" "supports" 2 ∧
      (ofText "Microsoft SQL Server supports full-text search.").fulfils 2 microsoftNearSupports =
        false :=
  ⟨by decide, by decide, ⟨0, 3, by decide, by decide, by decide⟩,
    by decide⟩

end Document

end SqlPredicates
