import SqlPredicates.Span
import SqlPredicates.Text.Bytes
import Mathlib.Tactic.Common

/-!
# Parts of a text at spans

Spans count bytes, and the characters of a text take one to four bytes each. A span picks out a part
of a text only if both its ends are between characters. Cutting at an offset inside a character
never fails here, it cuts before that character, so that the ends are between characters has to be
said separately: `Text.OnBoundaries`.

Readers know a part of a text by what stands before and after it. The lemmas below start from such a
decomposition and compute the part, its boundaries and the text behind it from the span alone.

## Main definitions

* `Text.IsBoundary`, `Text.OnBoundaries` — offsets and spans that cut no character
* `Text.slice` — the part of a text at a span

## Main results

* `Text.onBoundaries_append`, `Text.slice_append`, `Text.dropBytes_append_append` — a text that is
  given by the part before the span, the part at it and the part behind it
-/

namespace SqlPredicates

namespace Text

/-- The offset is between two characters of the text, or at one of its ends. -/
def IsBoundary (n : ℕ) (cs : List Char) : Prop := bytes (takeBytes n cs) = n

/-- The span goes from a boundary of the text to a boundary that is not before it. -/
structure OnBoundaries (span : Span) (cs : List Char) : Prop where
  start_le : span.start ≤ span.stop
  start : IsBoundary span.start cs
  stop : IsBoundary span.stop cs

/-- The part of a text at a span. -/
def slice (span : Span) (cs : List Char) : List Char := dropBytes span.start (takeBytes span.stop cs)

theorem bytes_pos {cs : List Char} (h : cs ≠ []) : 0 < bytes cs := by
  obtain ⟨c, cs, rfl⟩ := List.exists_cons_of_ne_nil h
  exact Nat.add_pos_left c.utf8Size_pos _

theorem takeBytes_zero (cs : List Char) : takeBytes 0 cs = [] := by
  cases cs with
  | nil => rfl
  | cons c cs => rw [takeBytes, if_neg (Nat.not_le.mpr c.utf8Size_pos)]

theorem dropBytes_zero (cs : List Char) : dropBytes 0 cs = cs := by
  cases cs with
  | nil => rfl
  | cons c cs => rw [dropBytes, if_neg (Nat.not_le.mpr c.utf8Size_pos)]

theorem takeBytes_append (before after : List Char) :
    takeBytes (bytes before) (before ++ after) = before := by
  induction before with
  | nil => exact takeBytes_zero after
  | cons c cs ih =>
    rw [List.cons_append, takeBytes, bytes_cons, if_pos (Nat.le_add_right _ _),
      Nat.add_sub_cancel_left, ih]

theorem dropBytes_append (before after : List Char) :
    dropBytes (bytes before) (before ++ after) = after := by
  induction before with
  | nil => exact dropBytes_zero after
  | cons c cs ih =>
    rw [List.cons_append, dropBytes, bytes_cons, if_pos (Nat.le_add_right _ _),
      Nat.add_sub_cancel_left, ih]

theorem isBoundary_append (before after : List Char) :
    IsBoundary (bytes before) (before ++ after) := by
  rw [IsBoundary, takeBytes_append]

theorem IsBoundary.le {n : ℕ} {cs : List Char} (h : IsBoundary n cs) : n ≤ bytes cs := by
  have hcut := congrArg bytes (takeBytes_append_dropBytes n cs)
  rw [bytes_append, show bytes (takeBytes n cs) = n from h] at hcut
  omega

variable (before part after : List Char)

theorem onBoundaries_append :
    OnBoundaries ⟨bytes before, bytes before + bytes part⟩ (before ++ (part ++ after)) := by
  refine ⟨Nat.le_add_right _ _, isBoundary_append before _, ?_⟩
  rw [← bytes_append, ← List.append_assoc]
  exact isBoundary_append _ after

theorem slice_append :
    slice ⟨bytes before, bytes before + bytes part⟩ (before ++ (part ++ after)) = part := by
  rw [slice, ← bytes_append, ← List.append_assoc, takeBytes_append, dropBytes_append]

theorem dropBytes_append_append :
    dropBytes (bytes before + bytes part) (before ++ (part ++ after)) = after := by
  rw [← bytes_append, ← List.append_assoc, dropBytes_append]

end Text

end SqlPredicates
