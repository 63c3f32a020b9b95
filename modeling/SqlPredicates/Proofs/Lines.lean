import SqlPredicates.Proofs.Text.Slices
import SqlPredicates.Source
import Mathlib.Data.List.DropRight
import Mathlib.Tactic.Common

/-!
# Lines and columns

The position of an offset is computed from the characters before it, and the line from the characters
on both sides, by searches for the nearest newlines. The pieces of the text between newlines are
found by one pass over the whole text. Both see the same lines: the line of an offset is the piece
whose number is the line of its position, and the column does not lie behind its end.

A position determines its offset, as far as offsets go that are between characters. More characters
before an offset mean a later position, because they hold a newline or make the last line longer.

## Main definitions

* `LineCol.after` — the position behind some characters
* `LineCol.instLT` — positions are ordered by line, and then by column

## Main results

* `LineCol.after_lt_after_append` — a character more is a later position
* `Source.exists_pieces` — the pieces of a text around an offset
* `Source.positions_identify_offsets` — positions and lines of all offsets
-/

namespace SqlPredicates

namespace Text

instance (n : ℕ) (cs : List Char) : Decidable (IsBoundary n cs) :=
  inferInstanceAs (Decidable (bytes (takeBytes n cs) = n))

variable (front back : List Char) (n : ℕ)

/-- Cutting behind a first part. -/
theorem takeBytes_bytes_add :
    takeBytes (bytes front + n) (front ++ back) = front ++ takeBytes n back := by
  induction front with
  | nil => rw [bytes_nil, Nat.zero_add, List.nil_append, List.nil_append]
  | cons c cs ih =>
    have hle : c.utf8Size ≤ bytes (c :: cs) + n := by
      rw [bytes_cons]
      omega
    have hsub : bytes (c :: cs) + n - c.utf8Size = bytes cs + n := by
      rw [bytes_cons]
      omega
    rw [List.cons_append, takeBytes, if_pos hle, hsub, ih, List.cons_append]

theorem dropBytes_bytes_add :
    dropBytes (bytes front + n) (front ++ back) = dropBytes n back := by
  have hcut := takeBytes_append_dropBytes (bytes front + n) (front ++ back)
  rw [takeBytes_bytes_add, List.append_assoc] at hcut
  have hback := takeBytes_append_dropBytes n back
  exact List.append_cancel_left ((List.append_cancel_left hcut).trans hback.symm)

/-- An offset inside the first character cuts in front of it. -/
theorem takeBytes_of_lt {c : Char} {n : ℕ} (h : n < c.utf8Size) (cs : List Char) :
    takeBytes n (c :: cs) = [] := by
  rw [takeBytes, if_neg (Nat.not_le.mpr h)]

/-- A boundary cuts the text into what is before it and the rest. -/
theorem IsBoundary.exists_append {n : ℕ} {cs : List Char} (h : IsBoundary n cs) :
    ∃ front back, cs = front ++ back ∧ n = bytes front :=
  ⟨takeBytes n cs, dropBytes n cs, (takeBytes_append_dropBytes n cs).symm, h.symm⟩

end Text

/-! ### Lines of a text -/

namespace Source

variable {cs : List Char}

theorem lastLine_append_singleton (cs : List Char) (c : Char) :
    lastLine (cs ++ [c]) = if c = '\n' then [] else lastLine cs ++ [c] := by
  rw [lastLine, List.reverse_append, List.reverse_singleton, List.singleton_append,
    List.takeWhile_cons]
  by_cases h : c = '\n' <;> simp [h, lastLine]

theorem lastLine_append_of_notMem {more : List Char} (h : '\n' ∉ more) :
    lastLine (cs ++ more) = lastLine cs ++ more := by
  induction more using List.reverseRecOn with
  | nil => simp
  | append_singleton more c ih =>
    rw [List.mem_append, List.mem_singleton, not_or] at h
    rw [← List.append_assoc, lastLine_append_singleton, if_neg (Ne.symm h.2), ih h.1,
      List.append_assoc]

theorem length_splitOn (c : Char) (cs : List Char) : (cs.splitOn c).length = cs.count c + 1 := by
  induction cs with
  | nil => rfl
  | cons d cs ih =>
    rw [List.splitOn_cons_eq_if_modifyHead, List.count_cons]
    split
    · rw [List.length_cons, ih]
    · rw [List.length_modifyHead, ih]

/-- The first piece ends at the first newline. -/
theorem exists_splitOn_eq_cons (cs : List Char) :
    ∃ later, cs.splitOn '\n' = cs.takeWhile (· ≠ '\n') :: later := by
  induction cs with
  | nil => exact ⟨[], rfl⟩
  | cons c cs ih =>
    obtain ⟨later, hlater⟩ := ih
    rw [List.splitOn_cons_eq_if_modifyHead, hlater]
    by_cases h : c = '\n'
    · exact ⟨cs.takeWhile (· ≠ '\n') :: later, by simp [h]⟩
    · exact ⟨later, by simp [h]⟩

/-- **The piece around a place.** The text is given by what is before and behind the place. The
newlines before it tell the number of pieces that end before it. -/
theorem exists_pieces (before after : List Char) :
    ∃ earlier later, (before ++ after).splitOn '\n' =
        earlier ++ (lastLine before ++ after.takeWhile (· ≠ '\n')) :: later ∧
      earlier.length = before.count '\n' := by
  induction before using List.reverseRecOn generalizing after with
  | nil =>
    obtain ⟨later, hlater⟩ := exists_splitOn_eq_cons after
    exact ⟨[], later, hlater, rfl⟩
  | append_singleton before c ih =>
    rw [List.append_assoc, List.singleton_append, lastLine_append_singleton, List.count_append]
    by_cases h : c = '\n'
    · -- the last line begins here
      obtain ⟨later, hlater⟩ := exists_splitOn_eq_cons after
      refine ⟨before.splitOn '\n', later, ?_, ?_⟩
      · rw [h, List.splitOn_append_cons_self, hlater, if_pos rfl, List.nil_append]
      · rw [length_splitOn, h]
        rfl
    · obtain ⟨earlier, later, hpieces, hlength⟩ := ih (c :: after)
      refine ⟨earlier, later, ?_, ?_⟩
      · rw [hpieces, List.takeWhile_cons, if_pos (by simpa using h), if_neg h, List.append_assoc,
          List.singleton_append]
      · rw [hlength, List.count_singleton, if_neg (by simpa using h)]
        rfl

end Source

/-! ### Positions -/

namespace LineCol

/-- Positions are ordered by line, and those of one line by column. -/
instance : LT LineCol where
  lt a b := a.line < b.line ∨ a.line = b.line ∧ a.col < b.col

theorem lt_def {a b : LineCol} : a < b ↔ a.line < b.line ∨ a.line = b.line ∧ a.col < b.col :=
  Iff.rfl

instance (a b : LineCol) : Decidable (a < b) :=
  inferInstanceAs (Decidable (a.line < b.line ∨ a.line = b.line ∧ a.col < b.col))

theorem lt_irrefl (a : LineCol) : ¬ a < a := by
  rw [lt_def]
  omega

theorem lt_asymm {a b : LineCol} (h : a < b) : ¬ b < a := by
  rw [lt_def] at h ⊢
  omega

/-- The position behind some characters of a text. -/
def after (cs : List Char) : LineCol := ⟨cs.count '\n' + 1, (Source.lastLine cs).length + 1⟩

/-- **A character more is a later position**: a newline begins another line, and without newlines the
last line gets longer. -/
theorem after_lt_after_append (cs : List Char) {more : List Char} (h : more ≠ []) :
    after cs < after (cs ++ more) := by
  rw [lt_def]
  by_cases hnewline : '\n' ∈ more
  · left
    have hcount := List.count_pos_iff.mpr hnewline
    simp only [after, List.count_append]
    omega
  · right
    have hlength := List.length_pos_iff.mpr h
    simp only [after, List.count_append, List.count_eq_zero_of_not_mem hnewline,
      Source.lastLine_append_of_notMem hnewline, List.length_append]
    exact ⟨trivial, by omega⟩

end LineCol

namespace Source

variable {s : Source} {m n : ℕ}

theorem lineCol_eq_after (s : Source) (n : ℕ) : s.lineCol n = .after (s.before n) := rfl

theorem lineCol_lt (hm : Text.IsBoundary m s.content.toList)
    (hn : Text.IsBoundary n s.content.toList) (h : m < n) : s.lineCol m < s.lineCol n := by
  obtain ⟨front, back, hcontent, rfl⟩ := hm.exists_append
  obtain ⟨k, rfl⟩ := Nat.exists_eq_add_of_lt h
  have hbefore : s.before (Text.bytes front) = front := by
    rw [before, hcontent, Text.takeBytes_append]
  have hmore : s.before (Text.bytes front + k + 1) = front ++ Text.takeBytes (k + 1) back := by
    rw [before, hcontent, Nat.add_assoc, Text.takeBytes_bytes_add]
  rw [lineCol_eq_after, lineCol_eq_after, hbefore, hmore]
  refine LineCol.after_lt_after_append front ?_
  -- without characters between them, both offsets would be the same
  intro hnil
  rw [Text.IsBoundary, show Text.takeBytes _ _ = _ from hmore, hnil, List.append_nil] at hn
  omega

theorem lineCol_lt_iff (hm : Text.IsBoundary m s.content.toList)
    (hn : Text.IsBoundary n s.content.toList) : s.lineCol m < s.lineCol n ↔ m < n := by
  refine ⟨fun h => ?_, lineCol_lt hm hn⟩
  rcases Nat.lt_trichotomy m n with hlt | rfl | hgt
  · exact hlt
  · exact absurd h (LineCol.lt_irrefl _)
  · exact absurd (lineCol_lt hn hm hgt) (LineCol.lt_asymm h)

theorem lineCol_inj (hm : Text.IsBoundary m s.content.toList)
    (hn : Text.IsBoundary n s.content.toList) (h : s.lineCol m = s.lineCol n) : m = n := by
  rcases Nat.lt_trichotomy m n with hlt | heq | hgt
  · exact absurd (h ▸ lineCol_lt hm hn hlt) (LineCol.lt_irrefl _)
  · exact heq
  · exact absurd (h ▸ lineCol_lt hn hm hgt) (LineCol.lt_irrefl _)

/-! ### Offsets that are not between characters -/

section Inside

variable {front back : List Char} {c : Char} {k : ℕ}

theorem before_inside (h : s.content.toList = front ++ c :: back) (hk : k < c.utf8Size) :
    s.before (Text.bytes front + k) = front := by
  rw [before, h, Text.takeBytes_bytes_add, Text.takeBytes_of_lt hk, List.append_nil]

theorem after_inside (h : s.content.toList = front ++ c :: back) (hk : k < c.utf8Size) :
    s.after (Text.bytes front + k) = c :: back := by
  rw [after, h, Text.dropBytes_bytes_add, Text.dropBytes, if_neg (Nat.not_le.mpr hk)]

end Inside

theorem before_of_le (h : Text.bytes s.content.toList ≤ n) : s.before n = s.content.toList := by
  obtain ⟨k, rfl⟩ := Nat.exists_eq_add_of_le h
  have hcut := Text.takeBytes_bytes_add s.content.toList [] k
  rwa [List.append_nil, Text.takeBytes, List.append_nil] at hcut

theorem after_of_le (h : Text.bytes s.content.toList ≤ n) : s.after n = [] := by
  have hcut := Text.takeBytes_append_dropBytes n s.content.toList
  rw [show Text.takeBytes n _ = _ from before_of_le h] at hcut
  exact List.append_right_eq_self.mp hcut

/-! ### The line of an offset -/

theorem before_append_after (s : Source) (n : ℕ) : s.before n ++ s.after n = s.content.toList :=
  Text.takeBytes_append_dropBytes n s.content.toList

/-- The line of an offset is the piece with the number of the line. -/
theorem getElem?_splitOn_lineCol (s : Source) (n : ℕ) :
    (s.content.toList.splitOn '\n')[(s.lineCol n).line - 1]? = some (s.lineChars n) := by
  obtain ⟨earlier, later, hpieces, hlength⟩ := exists_pieces (s.before n) (s.after n)
  rw [before_append_after] at hpieces
  have hindex : (s.lineCol n).line - 1 = earlier.length := by
    rw [hlength]
    rfl
  rw [hindex, hpieces, List.getElem?_append_right le_rfl, Nat.sub_self]
  rfl

theorem toList_lineText (s : Source) (n : ℕ) :
    (s.lineText n).toList = (s.lineChars n).rdropWhile (· = '\r') :=
  String.toList_ofList

theorem col_le_length_lineChars (s : Source) (n : ℕ) :
    (s.lineCol n).col - 1 ≤ (s.lineChars n).length := by
  rw [lineChars, List.length_append]
  exact Nat.le_add_right _ _

end Source

/-- **Positions identify offsets.** Among the offsets between characters, later offsets have later
positions, so that no two have the same. An offset inside a character has the position of its start,
and an offset past the end that of the end. The line of an offset is the piece of the text between
newlines that the position counts, without carriage returns at its end, and the column is not behind
the end of that piece. -/
theorem Source.positions_identify_offsets (s : Source) :
    (∀ m n, Text.IsBoundary m s.content.toList → Text.IsBoundary n s.content.toList →
      (s.lineCol m < s.lineCol n ↔ m < n) ∧ (s.lineCol m = s.lineCol n → m = n)) ∧
      (∀ front c back k, s.content.toList = front ++ c :: back → k < c.utf8Size →
        s.lineCol (Text.bytes front + k) = s.lineCol (Text.bytes front)) ∧
      (∀ n, Text.bytes s.content.toList ≤ n →
        s.lineCol n = s.lineCol (Text.bytes s.content.toList)) ∧
      ∀ n, ∃ piece,
        (s.content.toList.splitOn '\n')[(s.lineCol n).line - 1]? = some piece ∧
          (s.lineText n).toList = piece.rdropWhile (· = '\r') ∧
          (s.lineCol n).col - 1 ≤ piece.length := by
  refine ⟨?_, ?_, ?_, ?_⟩
  · intro m n hm hn
    exact ⟨lineCol_lt_iff hm hn, lineCol_inj hm hn⟩
  · intro front c back k hcontent hk
    rw [lineCol_eq_after, lineCol_eq_after, before_inside hcontent hk,
      ← Nat.add_zero (Text.bytes front), before_inside hcontent c.utf8Size_pos]
  · intro n hn
    rw [lineCol_eq_after, lineCol_eq_after, before_of_le hn, before_of_le le_rfl]
  · intro n
    exact ⟨s.lineChars n, getElem?_splitOn_lineCol s n, toList_lineText s n,
      col_le_length_lineChars s n⟩

/-- A text with a letter of two bytes, an empty line, and carriage returns at the end of two lines. -/
def accentedSource : Source := .input "é\r\n\nab\r"

/-- The carriage return is before the newline behind it. The offset inside the letter has the position
of the letter, and one far behind the end is in the third line, which ends in a carriage return. -/
theorem Source.positions_identify_offsets_accented :
    (Text.IsBoundary 2 accentedSource.content.toList ∧
        Text.IsBoundary 3 accentedSource.content.toList ∧
        accentedSource.lineCol 2 < accentedSource.lineCol 3) ∧
      accentedSource.lineCol 1 = ⟨1, 1⟩ ∧
      accentedSource.lineCol 100 = ⟨3, 4⟩ ∧
      ∃ piece, (accentedSource.content.toList.splitOn '\n')[2]? = some piece ∧
        (accentedSource.lineText 100).toList = piece.rdropWhile (· = '\r') ∧ 3 ≤ piece.length := by
  obtain ⟨hboundary, hinside, hpast, hline⟩ := Source.positions_identify_offsets accentedSource
  have hm : Text.IsBoundary 2 accentedSource.content.toList := by decide
  have hn : Text.IsBoundary 3 accentedSource.content.toList := by decide
  have hletter : accentedSource.lineCol 1 = accentedSource.lineCol 0 :=
    hinside [] 'é' "\r\n\nab\r".toList 1 (by decide) (by decide)
  have hend : accentedSource.lineCol 100 = accentedSource.lineCol 8 :=
    hpast 100 (by decide)
  exact ⟨⟨hm, hn, (hboundary 2 3 hm hn).1.mpr (by decide)⟩, hletter.trans (by decide),
    hend.trans (by decide), hline 100⟩

end SqlPredicates
