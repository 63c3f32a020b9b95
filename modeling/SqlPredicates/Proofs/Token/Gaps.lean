import SqlPredicates.Proofs.Token.Items

/-!
# The gaps between tokens

Between tokens stand blanks and comments. `splitLayout` takes them character by character, with a
flag for the inside of a comment. This file describes the same without the flag: a layout is put
together from blanks and whole comments, and what follows it begins with neither.

A comment ends in front of the next line break, or at the end of the text, and the line break need
not be part of the same layout. So a layout is always one in front of a given text, of which only the
first character matters.

## Main definitions

* `blanks` — the characters that may stand alone between tokens
* `IsLayout` — blanks and comments in front of a text
* `EndsLayout` — a text that begins neither with a blank nor with a comment

## Main results

* `splitLayout_eq_iff` — what is passed over in front of a token
-/

namespace SqlPredicates

/-- The characters that may stand alone between tokens: space, tab, line feed, carriage return and
form feed. -/
def blanks : List Char := [' ', '\t', '\n', '\r', '\x0c']

/-- Blanks and comments in front of the text `rest`. A comment runs to just before the next line feed,
or to the end of the whole text. -/
inductive IsLayout (rest : List Char) : List Char → Prop
  | nil : IsLayout rest []
  | blank {c : Char} {cs : List Char} (hc : c ∈ blanks) (h : IsLayout rest cs) :
      IsLayout rest (c :: cs)
  | comment {body cs : List Char} (hbody : '\n' ∉ body) (hend : ∀ c ∈ (cs ++ rest).head?, c = '\n')
      (h : IsLayout rest cs) : IsLayout rest ('-' :: '-' :: (body ++ cs))

/-- The text begins neither with a blank nor with a comment. -/
structure EndsLayout (rest : List Char) : Prop where
  not_blank : ∀ c ∈ rest.head?, c ∉ blanks
  not_comment : ¬ ['-', '-'] <+: rest

theorem isLayoutChar_iff {c : Char} : isLayoutChar c = true ↔ c ∈ blanks := by
  simp only [isLayoutChar, blanks, Bool.or_eq_true, beq_iff_eq, or_assoc, List.mem_cons,
    List.not_mem_nil, or_false]

namespace IsLayout

variable {rest rest' layout : List Char}

/-- Only the first character of what follows matters. -/
theorem congr_head (h : IsLayout rest layout) (hhead : rest.head? = rest'.head?) :
    IsLayout rest' layout := by
  induction h with
  | nil => exact .nil
  | blank hc _ ih => exact .blank hc ih
  | comment hbody hend _ ih =>
    refine .comment hbody ?_ ih
    rw [List.head?_append, ← hhead, ← List.head?_append]
    exact hend

/-- Two minus signs begin a comment, which has the characters up to the end of the line. -/
theorem exists_of_comment (h : IsLayout rest ('-' :: '-' :: layout)) :
    ∃ body cs, layout = body ++ cs ∧ '\n' ∉ body ∧ (∀ c ∈ (cs ++ rest).head?, c = '\n') ∧
      IsLayout rest cs := by
  generalize hcs : '-' :: '-' :: layout = cs at h
  cases h with
  | nil => cases hcs
  | blank hc =>
    cases hcs
    exact absurd hc (by decide)
  | comment hbody hend h =>
    cases hcs
    exact ⟨_, _, rfl, hbody, hend, h⟩

end IsLayout

namespace EndsLayout

/-- A text that is cut short begins with no layout either. -/
theorem of_append {cs tail : List Char} (h : EndsLayout (cs ++ tail)) : EndsLayout cs := by
  refine ⟨fun c hc => h.not_blank c ?_, fun hcomment => h.not_comment ?_⟩
  · rw [List.head?_append, hc]
    rfl
  · exact hcomment.trans (List.prefix_append cs tail)

theorem splitLayout_eq {rest : List Char} (h : EndsLayout rest) :
    splitLayout false rest = ([], rest) := by
  cases rest with
  | nil => rfl
  | cons c cs =>
    have hblank : ¬ isLayoutChar c = true := isLayoutChar_iff.not.mpr (h.not_blank c rfl)
    rw [splitLayout, if_neg hblank]
    rintro ds rfl rfl
    exact h.not_comment ⟨ds, rfl⟩

end EndsLayout

/-! ### What is passed over -/

/-- A comment that is over at once. -/
theorem splitLayout_true_of_head {cs : List Char} (h : ∀ c ∈ cs.head?, c = '\n') :
    splitLayout true cs = splitLayout false cs := by
  cases cs with
  | nil => rfl
  | cons c cs =>
    obtain rfl := h c rfl
    rfl

/-- The inside of a comment is passed over. -/
theorem splitLayout_true_append {body : List Char} (h : '\n' ∉ body) (cs : List Char) :
    splitLayout true (body ++ cs) =
      (body ++ (splitLayout true cs).1, (splitLayout true cs).2) := by
  induction body with
  | nil => rfl
  | cons c body ih =>
    obtain ⟨hc, hbody⟩ := not_or.mp (List.mem_cons.not.mp h)
    have hflag : decide (c ≠ '\n') = true := decide_eq_true (Ne.symm hc)
    rw [List.cons_append, splitLayout, hflag, ih hbody]
    rfl

/-- A layout is passed over to its end. -/
theorem IsLayout.splitLayout_eq {layout rest : List Char} (h : IsLayout rest layout)
    (hrest : EndsLayout rest) : splitLayout false (layout ++ rest) = (layout, rest) := by
  induction h with
  | nil => exact hrest.splitLayout_eq
  | @blank c cs hc _ ih =>
    rw [List.cons_append, splitLayout, if_pos (isLayoutChar_iff.mpr hc), ih]
    rintro ds rfl -
    exact absurd hc (by decide)
  | comment hbody hend _ ih =>
    rw [List.cons_append, List.cons_append, List.append_assoc, splitLayout,
      splitLayout_true_append hbody, splitLayout_true_of_head hend, ih]

/-- What is passed over is a layout. Inside a comment, it is one with the signs that began it. -/
theorem isLayout_splitLayout (comment : Bool) (cs : List Char) :
    IsLayout (splitLayout comment cs).2
      ((if comment then ['-', '-'] else []) ++ (splitLayout comment cs).1) := by
  fun_induction splitLayout comment cs with
  | case1 comment =>
    cases comment with
    | false => exact .nil
    | true => exact @IsLayout.comment _ [] [] (by simp) (by simp) .nil
  | case2 c cs parts ih =>
    by_cases hc : c = '\n'
    · subst hc
      exact @IsLayout.comment _ [] _ (by simp) (by simp) (.blank (by decide) ih)
    · rw [if_pos (decide_eq_true hc)] at ih
      obtain ⟨body, ds, hparts, hbody, hend, h⟩ := ih.exists_of_comment
      change IsLayout parts.2 ('-' :: '-' :: c :: parts.1)
      rw [show parts.1 = body ++ ds from hparts]
      exact @IsLayout.comment _ (c :: body) ds (by simp [hbody, Ne.symm hc]) hend h
  | case3 cs parts ih => exact ih
  | case4 c cs _ hc parts ih => exact .blank (isLayoutChar_iff.mp hc) ih
  | case5 c cs _ hc => exact .nil

theorem endsLayout_splitLayout (comment : Bool) (cs : List Char) :
    EndsLayout (splitLayout comment cs).2 := by
  fun_induction splitLayout comment cs with
  | case1 => exact ⟨by simp, by simp⟩
  | case2 c cs parts ih | case3 cs parts ih | case4 c cs _ _ parts ih => exact ih
  | case5 c cs hdash hc =>
    refine ⟨fun d hd => ?_, ?_⟩
    · cases hd
      exact isLayoutChar_iff.not.mp hc
    · rintro ⟨ds, hds⟩
      cases hds
      exact hdash ds rfl rfl

/-- **What is passed over in front of a token** is all the layout there is. -/
theorem splitLayout_eq_iff {cs layout rest : List Char} :
    splitLayout false cs = (layout, rest) ↔
      cs = layout ++ rest ∧ IsLayout rest layout ∧ EndsLayout rest := by
  constructor
  · intro h
    have happend := splitLayout_append false cs
    have hlayout := isLayout_splitLayout false cs
    have hends := endsLayout_splitLayout false cs
    rw [h] at happend hlayout hends
    exact ⟨happend.symm, hlayout, hends⟩
  · rintro ⟨rfl, hlayout, hends⟩
    exact hlayout.splitLayout_eq hends

end SqlPredicates
