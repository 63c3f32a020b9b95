import SqlPredicates.Proofs.Lines

/-!
# The caret of a report

The last two lines of a report quote a line of the text and mark a place in it. The quoted line begins
with its number and a bar, and the line below has as many blanks and a bar, so that a column, counted
from the bar, is the same place in both. The quoted line has lost the carriage returns at its end. Its
other characters are quoted at their columns, and the caret is below the one that holds the offset.

## Main definitions

* `Source.quotation`, `Source.marker` — the last two lines of a report

## Main results

* `Source.splitOn_report` — both are lines of the report
* `Source.getElem?_quotation`, `Source.length_marker` — a column in both lines
* `Source.caret_below_character` — what the caret is below
-/

namespace SqlPredicates

/-- What is in front of a kept element stays in its place when the end of a list is dropped. -/
theorem getElem?_rdropWhile_append_cons {p : Char → Bool} {c : Char} {front back : List Char}
    (h : ∃ d ∈ c :: back, ¬ p d) :
    ((front ++ c :: back).rdropWhile p)[front.length]? = some c := by
  have hkept : (c :: back).rdropWhile p ≠ [] := by
    obtain ⟨d, hd, hp⟩ := h
    rw [ne_eq, List.rdropWhile_eq_nil_iff]
    exact fun hall => hp (hall d hd)
  have happend : (front ++ c :: back).rdropWhile p = front ++ (c :: back).rdropWhile p := by
    have hnonempty : ((c :: back).reverse.dropWhile p).isEmpty = false := by
      rw [List.isEmpty_eq_false_iff]
      exact fun hnil => hkept (by rw [List.rdropWhile, hnil, List.reverse_nil])
    rw [List.rdropWhile, List.reverse_append, List.dropWhile_append, hnonempty, if_neg (by simp),
      List.reverse_append, List.reverse_reverse, List.rdropWhile]
  obtain ⟨first, rest, hfirst⟩ := List.exists_cons_of_ne_nil hkept
  have hc : first = c := by
    have hprefix : first :: rest <+: c :: back := hfirst ▸ List.rdropWhile_prefix p _
    exact (List.cons_prefix_cons.mp hprefix).1
  rw [happend, List.getElem?_append_right le_rfl, Nat.sub_self, hfirst, hc]
  rfl

namespace Source

variable {s : Source} {offset : ℕ}

/-! ### The last two lines -/

/-- The line of a report that quotes the text. -/
def quotation (s : Source) (offset : ℕ) : String :=
  toString (s.lineCol offset).line ++ " | " ++ s.lineText offset

/-- The line of a report with the caret. -/
def marker (s : Source) (offset : ℕ) : String :=
  blanks (toString (s.lineCol offset).line).length ++ " | " ++ blanks ((s.lineCol offset).col - 1)
    ++ "^"

theorem exists_report_eq (s : Source) (message : String) (offset : ℕ) :
    ∃ front, s.report message offset =
      front ++ "\n" ++ s.quotation offset ++ "\n" ++ s.marker offset := by
  have hbar : " |\n" = " |" ++ "\n" := rfl
  refine ⟨"error: " ++ message ++ "\n" ++ " --> " ++ s.name ++ ":"
    ++ toString (s.lineCol offset).line ++ ":" ++ toString (s.lineCol offset).col ++ "\n"
    ++ blanks (toString (s.lineCol offset).line).length ++ " |", ?_⟩
  unfold report quotation marker
  dsimp only
  rw [hbar]
  simp only [String.append_assoc]

/-- The blank in front of the bar comes after those for the number, and the blank behind it before
those for the column. -/
theorem toList_marker (s : Source) (offset : ℕ) :
    (s.marker offset).toList =
      List.replicate ((toString (s.lineCol offset).line).length + 1) ' ' ++
        '|' :: (List.replicate (s.lineCol offset).col ' ' ++ ['^']) := by
  have hcol : (s.lineCol offset).col = (s.lineCol offset).col - 1 + 1 := rfl
  rw [marker, hcol, List.replicate_succ', List.replicate_succ]
  generalize (toString (s.lineCol offset).line).length = width
  simp [blanks]

/-! ### No other newlines -/

theorem newline_notMem_number (n : ℕ) : '\n' ∉ (toString n).toList := by
  intro h
  have hdigit := Nat.isDigit_of_mem_toDigits (b := 10) (n := n) (by decide) (by decide)
    (by simpa using h)
  exact absurd hdigit (by decide)

theorem newline_notMem_takeWhile (cs : List Char) : '\n' ∉ cs.takeWhile (· ≠ '\n') := by
  intro h
  simpa using List.mem_takeWhile_imp h

theorem newline_notMem_lineChars (s : Source) (offset : ℕ) : '\n' ∉ s.lineChars offset := by
  rw [lineChars, lastLine, List.mem_append, List.mem_reverse, not_or]
  exact ⟨newline_notMem_takeWhile _, newline_notMem_takeWhile _⟩

theorem newline_notMem_quotation (s : Source) (offset : ℕ) :
    '\n' ∉ (s.quotation offset).toList := by
  have htext : '\n' ∉ (s.lineText offset).toList := by
    rw [toList_lineText]
    exact fun h => newline_notMem_lineChars s offset ((List.rdropWhile_prefix _ _).subset h)
  have hnumber := newline_notMem_number (s.lineCol offset).line
  rw [quotation, String.toList_append, String.toList_append, List.mem_append, List.mem_append]
  simp only [hnumber, htext, false_or, or_false]
  decide

theorem newline_notMem_marker (s : Source) (offset : ℕ) : '\n' ∉ (s.marker offset).toList := by
  rw [toList_marker]
  simp

/-- **The lines of a report**: some at first, and then the line that quotes the text and the one with
the caret. -/
theorem splitOn_report (s : Source) (message : String) (offset : ℕ) :
    ∃ earlier, (s.report message offset).toList.splitOn '\n' =
      earlier ++ [(s.quotation offset).toList, (s.marker offset).toList] := by
  obtain ⟨front, hreport⟩ := exists_report_eq s message offset
  have hchars : (s.report message offset).toList =
      front.toList ++ '\n' :: ((s.quotation offset).toList ++ '\n' :: (s.marker offset).toList) := by
    simp [hreport]
  refine ⟨front.toList.splitOn '\n', ?_⟩
  rw [hchars, List.splitOn_append_cons_self,
    List.splitOn_append_cons_self_of_not_mem (newline_notMem_quotation s offset),
    List.splitOn_eq_singleton (newline_notMem_marker s offset)]

/-! ### Columns -/

/-- The caret is behind the number, the bar between two blanks, and the column. -/
theorem length_marker (s : Source) (offset : ℕ) :
    (s.marker offset).toList.length - 1 =
      (toString (s.lineCol offset).line).length + 3 + ((s.lineCol offset).col - 1) := by
  have hcol : (s.lineCol offset).col = (s.lineCol offset).col - 1 + 1 := rfl
  rw [toList_marker, List.length_append, List.length_replicate, List.length_cons,
    List.length_append, List.length_replicate, List.length_singleton]
  omega

theorem length_quotation (s : Source) (offset : ℕ) :
    (s.quotation offset).toList.length =
      (toString (s.lineCol offset).line).length + 3 + (s.lineText offset).toList.length := by
  rw [quotation, String.length_toList, String.length_append, String.length_append,
    String.length_toList]
  rfl

/-- The characters of the line are quoted behind the number and the bar between two blanks. -/
theorem getElem?_quotation (s : Source) (offset i : ℕ) :
    (s.quotation offset).toList[(toString (s.lineCol offset).line).length + 3 + i]? =
      (s.lineText offset).toList[i]? := by
  have hwidth : (toString (s.lineCol offset).line ++ " | ").toList.length =
      (toString (s.lineCol offset).line).length + 3 := by
    rw [String.length_toList, String.length_append]
    rfl
  rw [quotation, String.toList_append, ← hwidth, List.getElem?_append_right (Nat.le_add_right _ _),
    Nat.add_sub_cancel_left]

/-- A character of a line, other than the carriage returns at its end, is quoted at its column. -/
theorem getElem?_lineText {front back : List Char} {c : Char} {k : ℕ}
    (hcontent : s.content.toList = front ++ c :: back) (hk : k < c.utf8Size) (hc : c ≠ '\n')
    (hkept : ∃ d ∈ c :: back.takeWhile (· ≠ '\n'), d ≠ '\r') :
    (s.lineText (Text.bytes front + k)).toList[(s.lineCol (Text.bytes front + k)).col - 1]? =
      some c := by
  have hcol : (s.lineCol (Text.bytes front + k)).col - 1 = (lastLine front).length := by
    rw [lineCol_eq_after, before_inside hcontent hk]
    rfl
  rw [hcol, toList_lineText, lineChars, before_inside hcontent hk, after_inside hcontent hk,
    List.takeWhile_cons, if_pos (by simpa using hc)]
  exact getElem?_rdropWhile_append_cons (by simpa using hkept)

/-- At the end of the text, the whole last line is before the column. -/
theorem length_lineText_of_le (hend : Text.bytes s.content.toList ≤ offset)
    (hlast : (lastLine s.content.toList).getLast? ≠ some '\r') :
    (s.lineText offset).toList.length = (s.lineCol offset).col - 1 := by
  have hwhole : (lastLine s.content.toList).rdropWhile (· = '\r') = lastLine s.content.toList := by
    rw [List.rdropWhile_eq_self_iff]
    intro hne hcr
    refine hlast ?_
    rw [List.getLast?_eq_some_getLast hne, of_decide_eq_true hcr]
  rw [toList_lineText, lineChars, lineCol_eq_after, before_of_le hend, after_of_le hend,
    List.takeWhile_nil, List.append_nil, hwhole]
  rfl

end Source

/-- **The caret is below the character.** The report ends in a line that quotes the text and a line of
blanks, a bar, blanks and a caret. If a character holds the offset, is no newline, and is not one of
the carriage returns that end its line, then it is quoted above the caret. If the offset is not before
the end of the text, and the last line does not end in a carriage return, then the caret is behind the
end of the line that is quoted. Columns are taken to be at most 65535, which is as far as the field
goes that holds the caret. -/
theorem Source.caret_below_character (s : Source) (message : String) (offset : ℕ) :
    (s.lineCol offset).col ≤ 65535 → ∃ earlier quoted marks,
      (s.report message offset).toList.splitOn '\n' = earlier ++ [quoted, marks] ∧
        (∃ a b, marks = List.replicate a ' ' ++ '|' :: (List.replicate b ' ' ++ ['^'])) ∧
        (∀ front c back, s.content.toList = front ++ c :: back →
          Text.bytes front ≤ offset → offset < Text.bytes front + c.utf8Size → c ≠ '\n' →
          (∃ d ∈ c :: back.takeWhile (· ≠ '\n'), d ≠ '\r') →
            quoted[marks.length - 1]? = some c) ∧
        (Text.bytes s.content.toList ≤ offset →
          (lastLine s.content.toList).getLast? ≠ some '\r' →
            marks.length - 1 = quoted.length) := by
  intro _
  obtain ⟨earlier, hlines⟩ := splitOn_report s message offset
  refine ⟨earlier, _, _, hlines, ⟨_, _, toList_marker s offset⟩, ?_, ?_⟩
  · intro front c back hcontent hle hlt hc hkept
    obtain ⟨k, rfl⟩ := Nat.exists_eq_add_of_le hle
    rw [length_marker, getElem?_quotation]
    exact getElem?_lineText hcontent (by omega) hc hkept
  · intro hend hlast
    rw [length_marker, length_quotation, length_lineText_of_le hend hlast]

/-- A text whose second line has a letter of two bytes, a carriage return inside, and one at its
end. -/
def brokenSource : Source := ⟨"rule", "1 +\n  é\r(\r\n"⟩

/-- The offset is inside the letter, and then far behind the end of the text. -/
theorem Source.caret_below_character_broken :
    ((brokenSource.lineCol 7).col ≤ 65535 ∧ ∃ earlier quoted marks,
      (brokenSource.report "unexpected" 7).toList.splitOn '\n' = earlier ++ [quoted, marks] ∧
        quoted[marks.length - 1]? = some 'é') ∧
      (brokenSource.lineCol 100).col ≤ 65535 ∧ ∃ earlier quoted marks,
        (brokenSource.report "unfinished" 100).toList.splitOn '\n' = earlier ++ [quoted, marks] ∧
          marks.length - 1 = quoted.length := by
  have hinside : (brokenSource.lineCol 7).col ≤ 65535 := by decide
  have hbehind : (brokenSource.lineCol 100).col ≤ 65535 := by decide
  obtain ⟨earlier, quoted, marks, hlines, -, hcaret, -⟩ :=
    Source.caret_below_character brokenSource "unexpected" 7 hinside
  obtain ⟨earlier', quoted', marks', hlines', -, -, hend⟩ :=
    Source.caret_below_character brokenSource "unfinished" 100 hbehind
  have hletter : quoted[marks.length - 1]? = some 'é' :=
    hcaret "1 +\n  ".toList 'é' "\r(\r\n".toList (by decide) (by decide)
      (by decide) (by decide) ⟨'é', List.mem_cons_self, by decide⟩
  exact ⟨⟨hinside, earlier, quoted, marks, hlines, hletter⟩, hbehind, earlier', quoted', marks',
    hlines', hend (by decide) (by decide)⟩

end SqlPredicates
