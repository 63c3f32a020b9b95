import SqlPredicates.Text.Words
import Mathlib.Data.List.Basic
import Mathlib.Tactic.Common

/-!
# Splitting a text into words

A text is split at the characters that belong to no word, so the words of a text can be read off its
parts: a character between words ends the word before it and begins none. The case of a letter can
depend on its neighbours, but only on those in the same word, since each word is put into lowercase
by itself.

The fold in `Text.pieces` keeps the run that is being read at the front, and this run is empty at
first or after a character between words. An empty run makes no word, so it does not matter whether
it is there (`Text.filter_addToPieces`).

A text can also be cut without a character being left out, as long as the cut does not go through a
word.

## Main definitions

* `Text.Parted` — no word goes on from one text into the next

## Main results

* `Text.pieces_append_cons` — a text is split at a character between words
* `Text.words_append_space` — the same for words, with a blank
* `Text.words_append_of_parted` — a text is split between its words
* `Text.flatten_pieces` — the characters of the words
-/

namespace SqlPredicates

namespace Text

theorem addToPieces_of_not {c : Char} (h : isWordChar c = false) (ps : List (List Char)) :
    addToPieces c ps = [] :: ps := by
  simp [addToPieces, h]

theorem addToPieces_cons {c : Char} (h : isWordChar c = true) (p : List Char)
    (ps : List (List Char)) : addToPieces c (p :: ps) = (c :: p) :: ps := by
  simp [addToPieces, h]

/-- Reading characters in front of several runs leaves all but the first of them alone. -/
theorem foldr_addToPieces_cons (cs p : List Char) (ps : List (List Char)) :
    cs.foldr addToPieces (p :: ps) = cs.foldr addToPieces [p] ++ ps ∧
      cs.foldr addToPieces [p] ≠ [] := by
  induction cs with
  | nil => exact ⟨rfl, List.cons_ne_nil p []⟩
  | cons c cs ih =>
    obtain ⟨q, qs, hq⟩ := List.exists_cons_of_ne_nil ih.2
    rw [List.foldr_cons, List.foldr_cons, ih.1, hq, List.cons_append]
    cases hc : isWordChar c with
    | true => simp [addToPieces_cons hc]
    | false => simp [addToPieces_of_not hc]

/-- It does not matter whether the reading begins with an empty run. -/
theorem filter_addToPieces (cs : List Char) :
    (cs.foldr addToPieces [[]]).filter (!·.isEmpty) = pieces cs := by
  obtain heq | happend : cs.foldr addToPieces [[]] = cs.foldr addToPieces [] ∨
      cs.foldr addToPieces [[]] = cs.foldr addToPieces [] ++ [[]] := by
    induction cs with
    | nil => exact .inr rfl
    | cons c cs ih =>
      rw [List.foldr_cons, List.foldr_cons]
      rcases ih with ih | ih
      · exact .inl (congrArg _ ih)
      · rw [ih]
        cases hc : isWordChar c with
        | true =>
          -- the character is added to the empty run, or to the same run as without it
          cases cs.foldr addToPieces [] with
          | nil => exact .inl (by simp [addToPieces, hc])
          | cons p ps => exact .inr (by simp [addToPieces_cons hc])
        | false => exact .inr (by simp [addToPieces_of_not hc])
  · rw [heq, pieces]
  · rw [happend, List.filter_append, pieces]
    exact List.append_nil _

/-- **A text is split at every character between words.** -/
theorem pieces_append_cons {c : Char} (hc : isWordChar c = false) (before after : List Char) :
    pieces (before ++ c :: after) = pieces before ++ pieces after := by
  calc pieces (before ++ c :: after)
      = (before.foldr addToPieces ([] :: after.foldr addToPieces [])).filter (!·.isEmpty) := by
        rw [pieces, List.foldr_append, List.foldr_cons, addToPieces_of_not hc]
    _ = (before.foldr addToPieces [[]]).filter (!·.isEmpty) ++ pieces after := by
        rw [(foldr_addToPieces_cons before [] _).1, List.filter_append, pieces]
    _ = pieces before ++ pieces after := by rw [filter_addToPieces]

theorem words_append_space (s t : String) : words (s ++ " " ++ t) = words s ++ words t := by
  have hspace : isWordChar ' ' = false := by decide
  have hchars : (s ++ " " ++ t).toList = s.toList ++ ' ' :: t.toList := by simp
  rw [words, hchars, pieces_append_cons hspace, List.map_append, words, words]

/-! ### Cuts between words -/

/-- No word goes on from the first text into the second: the characters on either side of the cut
are not both word characters. -/
def Parted (before after : List Char) : Prop :=
  ∀ c ∈ before.getLast?, ∀ c' ∈ after.head?, ¬ (isWordChar c = true ∧ isWordChar c' = true)

instance (before after : List Char) : Decidable (Parted before after) :=
  match hbefore : before.getLast?, hafter : after.head? with
  | some c, some c' =>
    decidable_of_iff (¬ (isWordChar c = true ∧ isWordChar c' = true))
      (by simp [Parted, hbefore, hafter])
  | none, _ => isTrue (by simp [Parted, hbefore])
  | some _, none => isTrue (by simp [Parted, hafter])

/-- What stands before a text does not matter to a cut behind it. -/
theorem Parted.append_left {text after : List Char} (h : Parted text after) (hne : text ≠ [])
    (before : List Char) : Parted (before ++ text) after := by
  intro c hc
  rw [List.getLast?_append_of_ne_nil before hne] at hc
  exact h c hc

theorem pieces_cons_of_not {c : Char} (hc : isWordChar c = false) (cs : List Char) :
    pieces (c :: cs) = pieces cs :=
  pieces_append_cons hc [] cs

theorem pieces_concat_of_not {c : Char} (hc : isWordChar c = false) (cs : List Char) :
    pieces (cs ++ [c]) = pieces cs := by
  rw [pieces_append_cons hc]
  exact List.append_nil _

/-- One of the two characters at the cut, if there are two, is between words. -/
theorem pieces_append_of_parted {before after : List Char} (h : Parted before after) :
    pieces (before ++ after) = pieces before ++ pieces after := by
  rcases List.eq_nil_or_concat' before with rfl | ⟨front, c, rfl⟩
  · rfl
  cases after with
  | nil =>
    rw [List.append_nil]
    exact (List.append_nil _).symm
  | cons c' back =>
    by_cases hc : isWordChar c = true
    · have hc' : isWordChar c' = false := by
        rw [← Bool.not_eq_true]
        intro hc'
        exact h c (by simp) c' rfl ⟨hc, hc'⟩
      rw [pieces_append_cons hc', pieces_cons_of_not hc']
    · rw [Bool.not_eq_true] at hc
      rw [List.append_assoc, List.singleton_append, pieces_append_cons hc, pieces_concat_of_not hc]

/-- **A text is split between its words.** -/
theorem words_append_of_parted {s t : String} (h : Parted s.toList t.toList) :
    words (s ++ t) = words s ++ words t := by
  rw [words, String.toList_append, pieces_append_of_parted h, List.map_append, words, words]

/-- The runs of a text together are its word characters. -/
theorem flatten_pieces (cs : List Char) : (pieces cs).flatten = cs.filter isWordChar := by
  have hruns : (cs.foldr addToPieces []).flatten = cs.filter isWordChar := by
    induction cs with
    | nil => rfl
    | cons c cs ih =>
      rw [List.foldr_cons]
      by_cases hc : isWordChar c = true
      · rw [List.filter_cons_of_pos hc, ← ih]
        cases cs.foldr addToPieces [] with
        | nil => simp [addToPieces, hc]
        | cons p ps =>
          rw [addToPieces_cons hc, List.flatten_cons, List.flatten_cons, List.cons_append]
      · rw [List.filter_cons_of_neg hc, ← ih, addToPieces_of_not (Bool.not_eq_true _ ▸ hc)]
        rfl
  rw [pieces, List.flatten_filter_not_isEmpty, hruns]

/-- A text with a word character has a word. -/
theorem words_ne_nil {s : String} (h : ∃ c ∈ s.toList, isWordChar c = true) : words s ≠ [] := by
  obtain ⟨c, hmem, hc⟩ := h
  intro hnil
  have hpieces : pieces s.toList = [] := List.map_eq_nil_iff.mp hnil
  have hfilter : c ∈ (pieces s.toList).flatten := by
    rw [flatten_pieces]
    exact List.mem_filter.mpr ⟨hmem, hc⟩
  rw [hpieces] at hfilter
  cases hfilter

end Text

end SqlPredicates
