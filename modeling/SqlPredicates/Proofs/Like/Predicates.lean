import SqlPredicates.Proofs.Like.Matching
import SqlPredicates.Proofs.Text.Case
import SqlPredicates.Rule.Evaluation
import SqlPredicates.Rule.StandardFunctions

/-!
# LIKE and the predicates on strings

A pattern without wildcards stands for itself. With a run behind it, in front of it or on both
sides, it stands for the texts that begin with it, end with it or contain it. Rules can ask the same
through `=` and through the functions `starts_with`, `ends_with` and `contains`, and get the same
answer.

All of these compare in lowercase. This could go wrong in two ways: a character could become a
wildcard by being put into lowercase, or a sigma at the end of the pattern could get another form
because of the run next to it. But wildcards come before the letter `a`, and a run is neither cased
nor passed over in the search for cased neighbours (`Text.Divides`).

## Main definitions

* `Like.Plain` — patterns without wildcards
* `Expr.SameAnswer` — two rules give the same answer
* `Expr.AsksLike` — a pattern that asks what a function answers

## Main results

* `Like.standsFor_plain_append_iff` — what a pattern without wildcards at its front stands for
* `eval_like_plain` — the four ways to ask with a pattern
-/

namespace SqlPredicates

namespace Like

/-! ### Patterns without wildcards -/

/-- Every character of the pattern stands for itself. -/
def Plain (pattern : List Char) : Prop := ∀ c ∈ pattern, c ≠ '%' ∧ c ≠ '_' ∧ c ≠ '['

instance (pattern : List Char) : Decidable (Plain pattern) :=
  List.decidableBAll (fun c => c ≠ '%' ∧ c ≠ '_' ∧ c ≠ '[') pattern

variable {p pattern cs : List Char}

/-- Wildcards come before the letters, so that none is made by lowercasing. -/
theorem Plain.lowercase {s : String} (h : Plain s.toList) : Plain (Text.lowercase s).toList := by
  intro c hc
  rw [Text.toList_lowercase] at hc
  rcases Text.mem_lowerFrom hc with hmem | hle
  · exact h c hmem
  · have hother : ∀ x, ¬ 'a' ≤ x → c ≠ x := by
      rintro x hx rfl
      exact hx hle
    exact ⟨hother '%' (by decide), hother '_' (by decide), hother '[' (by decide)⟩

/-- A part without wildcards has to be found as it is. -/
theorem standsFor_plain_append_iff (h : Plain p) :
    StandsFor (p ++ pattern) cs ↔ ∃ rest, cs = p ++ rest ∧ StandsFor pattern rest := by
  induction p generalizing cs with
  | nil => simp
  | cons c p ih =>
    obtain ⟨hc, hp⟩ := List.forall_mem_cons.mp h
    rw [List.cons_append, standsFor_char_iff hc]
    constructor
    · rintro ⟨tail, rfl, htail⟩
      obtain ⟨rest, rfl, hrest⟩ := (ih hp).mp htail
      exact ⟨rest, rfl, hrest⟩
    · rintro ⟨rest, rfl, hrest⟩
      exact ⟨p ++ rest, rfl, (ih hp).mpr ⟨rest, rfl, hrest⟩⟩

theorem standsFor_plain_iff (h : Plain p) : StandsFor p cs ↔ cs = p := by
  rw [← List.append_nil p, standsFor_plain_append_iff h]
  simp only [standsFor_nil_iff, exists_eq_right]

/-- A run at the end takes what is left of the text. -/
theorem standsFor_plain_run_iff (h : Plain p) : StandsFor (p ++ ['%']) cs ↔ p <+: cs := by
  rw [standsFor_plain_append_iff h]
  constructor
  · rintro ⟨rest, rfl, -⟩
    exact List.prefix_append p rest
  · rintro ⟨rest, rfl⟩
    exact ⟨rest, rfl, standsFor_run_iff.mpr ⟨[], List.nil_suffix, .nil⟩⟩

theorem standsFor_run_plain_iff (h : Plain p) : StandsFor ('%' :: p) cs ↔ p <:+ cs := by
  simp only [standsFor_run_iff, standsFor_plain_iff h, exists_eq_right]

theorem standsFor_run_plain_run_iff (h : Plain p) :
    StandsFor ('%' :: (p ++ ['%'])) cs ↔ p <:+: cs := by
  simp only [standsFor_run_iff, standsFor_plain_run_iff h, List.infix_iff_prefix_suffix, and_comm]

/-! ### Lowercase patterns -/

theorem divides_run : Text.Divides '%' := ⟨by decide, by decide, by decide⟩

/-- A run does not change how its neighbours are put into lowercase. -/
theorem lowercase_append_run (s : String) :
    (Text.lowercase (s ++ "%")).toList = (Text.lowercase s).toList ++ ['%'] := by
  simp [Text.lowerFrom_append_cons divides_run, Text.lowerFrom]

theorem lowercase_run_append (s : String) :
    (Text.lowercase ("%" ++ s)).toList = '%' :: (Text.lowercase s).toList := by
  rw [Text.toList_lowercase, Text.toList_lowercase, String.toList_append]
  exact Text.lowerFrom_append_cons divides_run [] [] s.toList

/-! ### The predicates on strings -/

section Strings

variable {s p : String}

theorem like_plain (h : Plain p.toList) :
    like s p = (compare (Text.lowercase s) (Text.lowercase p)).isEq := by
  rw [Bool.eq_iff_iff, like_eq_true_iff, standsFor_plain_iff h.lowercase, String.toList_inj]
  simp

theorem like_plain_run (h : Plain p.toList) :
    like s (p ++ "%") = StandardFunctions.startsWith s p := by
  rw [Bool.eq_iff_iff, like_eq_true_iff, lowercase_append_run, standsFor_plain_run_iff h.lowercase,
    StandardFunctions.startsWith, List.isPrefixOf_iff_prefix]

theorem like_run_plain (h : Plain p.toList) :
    like s ("%" ++ p) = StandardFunctions.endsWith s p := by
  rw [Bool.eq_iff_iff, like_eq_true_iff, lowercase_run_append, standsFor_run_plain_iff h.lowercase,
    StandardFunctions.endsWith, List.isSuffixOf_iff_suffix]

/-- A text occurs in another if it is a part of it without gaps. -/
theorem occursIn_iff_infix {t cs : List Char} :
    StandardFunctions.occursIn t cs = true ↔ t <:+: cs := by
  induction cs with
  | nil => simp [StandardFunctions.occursIn]
  | cons c cs ih =>
    rw [StandardFunctions.occursIn, Bool.or_eq_true, ih, List.isPrefixOf_iff_prefix,
      List.infix_cons_iff]

theorem like_run_plain_run (h : Plain p.toList) :
    like s ("%" ++ p ++ "%") = StandardFunctions.contains s p := by
  rw [Bool.eq_iff_iff, like_eq_true_iff, lowercase_append_run, lowercase_run_append,
    List.cons_append, standsFor_run_plain_run_iff h.lowercase, StandardFunctions.contains,
    occursIn_iff_infix]

end Strings

end Like

/-! ### Rules -/

/-- A function is found under its name in either case. -/
theorem Registry.get?_of_sameAscii (r : Registry) {name name' : String}
    (h : Text.sameAscii name name' = true) : r.get? name' = r.get? name := by
  rw [Text.sameAscii_iff] at h
  simp only [Registry.get?, Text.sameAscii, h]

/-- No operation is decided by a string on its left. -/
theorem Evaluation.decided?_string (op : BinaryOp) (s : String) :
    decided? op (.string s) = none := by
  cases op <;> rfl

namespace Expr

variable {object : ObjectName} {lhs rhs : Expr} {s t : String}

/-- The rules `e` and `e'` give the same answer for the object, which is a truth value. -/
def SameAnswer (object : ObjectName) (e e' : Expr) : Prop :=
  ∃ b, e.eval Registry.standard object = .ok (.boolean b) ∧
    e'.eval Registry.standard object = .ok (.boolean b)

/-- Whatever expression has the pattern as its value, to compare `lhs` with it by `LIKE` is to call
the function `name` with `lhs` and `rhs`. -/
def AsksLike (object : ObjectName) (lhs rhs : Expr) (pattern name : String) : Prop :=
  ∀ (e : Expr) (f : Ident) (argsSpan span span' : Span),
    e.eval Registry.standard object = .ok (.string pattern) → Text.sameAscii name f.name = true →
      SameAnswer object (.binary .like lhs e span) (.call f [lhs, rhs] argsSpan span')

theorem eval_binary_strings (hl : lhs.eval Registry.standard object = .ok (.string s))
    (hr : rhs.eval Registry.standard object = .ok (.string t)) (op : BinaryOp) (span : Span) :
    (binary op lhs rhs span).eval Registry.standard object =
      Evaluation.binary op span (.string s) (.string t) := by
  simp only [eval, hl, hr, bind, Except.bind, Evaluation.decided?_string]

theorem eval_call_strings {f : Ident} {name : String} {answer : String → String → Bool}
    (hf : Registry.standard.get? f.name = some ⟨name, [.string, .string], .boolean,
      StandardFunctions.onStrings fun s t => .boolean (answer s t)⟩)
    (hl : lhs.eval Registry.standard object = .ok (.string s))
    (hr : rhs.eval Registry.standard object = .ok (.string t)) (argsSpan span : Span) :
    (call f [lhs, rhs] argsSpan span).eval Registry.standard object =
      .ok (.boolean (answer s t)) := by
  rw [eval, hf]
  simp only [evalAll, hl, hr]
  rfl

/-- A pattern that asks what a function on two strings answers, in rules as well. -/
theorem asksLike_of_like {pattern name : String} {answer : String → String → Bool}
    (hname : Registry.standard.get? name = some ⟨name, [.string, .string], .boolean,
      StandardFunctions.onStrings fun s t => .boolean (answer s t)⟩)
    (hlike : like s pattern = answer s t)
    (hl : lhs.eval Registry.standard object = .ok (.string s))
    (hr : rhs.eval Registry.standard object = .ok (.string t)) :
    AsksLike object lhs rhs pattern name := by
  intro e f argsSpan span span' he hf
  refine ⟨answer s t, ?_, ?_⟩
  · rw [eval_binary_strings hl he, ← hlike]
    rfl
  · rw [← Registry.get?_of_sameAscii _ hf] at hname
    exact eval_call_strings hname hl hr argsSpan span'

end Expr

/-- **LIKE agrees with the predicates on strings.** If two expressions have strings as their values
and the second string has no wildcards, then `LIKE` with the second string is `=`, with a run behind
it `starts_with`, with a run in front of it `ends_with`, and with a run on both sides `contains`. -/
theorem eval_like_plain {object : ObjectName} {lhs rhs : Expr} {s t : String}
    (hplain : Like.Plain t.toList) (hl : lhs.eval Registry.standard object = .ok (.string s))
    (hr : rhs.eval Registry.standard object = .ok (.string t)) :
    (∀ span span',
        Expr.SameAnswer object (.binary .like lhs rhs span) (.binary .equal lhs rhs span')) ∧
      Expr.AsksLike object lhs rhs (t ++ "%") "starts_with" ∧
      Expr.AsksLike object lhs rhs ("%" ++ t) "ends_with" ∧
      Expr.AsksLike object lhs rhs ("%" ++ t ++ "%") "contains" := by
  refine ⟨fun span span' => ⟨like s t, ?_, ?_⟩, ?_, ?_, ?_⟩
  · rw [Expr.eval_binary_strings hl hr]
    rfl
  · rw [Expr.eval_binary_strings hl hr, Like.like_plain hplain]
    rfl
  · exact Expr.asksLike_of_like rfl (Like.like_plain_run hplain) hl hr
  · exact Expr.asksLike_of_like rfl (Like.like_run_plain hplain) hl hr
  · exact Expr.asksLike_of_like rfl (Like.like_run_plain_run hplain) hl hr

/-- The table that is named `Mississippi`. -/
def mississippiTable : ObjectName := ⟨"Mississippi", "table", "dbo"⟩

/-- The rules `name LIKE '%ISSI%'` and `CONTAINS(name, 'ISSI')`, where the second string is in the
first one twice and overlaps with itself. -/
theorem eval_like_plain_issi :
    Like.Plain "ISSI".toList ∧
      (Expr.var ⟨"name", ⟨0, 4⟩⟩).eval Registry.standard mississippiTable =
        .ok (.string "Mississippi") ∧
      (Expr.string ⟨"ISSI", .single⟩ ⟨15, 21⟩).eval Registry.standard mississippiTable =
        .ok (.string "ISSI") ∧
      Expr.SameAnswer mississippiTable
        (.binary .like (.var ⟨"name", ⟨0, 4⟩⟩) (.string ⟨"%ISSI%", .single⟩ ⟨10, 18⟩) ⟨0, 18⟩)
        (.call ⟨"CONTAINS", ⟨0, 8⟩⟩
          [.var ⟨"name", ⟨0, 4⟩⟩, .string ⟨"ISSI", .single⟩ ⟨15, 21⟩] ⟨8, 22⟩ ⟨0, 22⟩) := by
  have hplain : Like.Plain "ISSI".toList := by decide
  have hl : (Expr.var ⟨"name", ⟨0, 4⟩⟩).eval Registry.standard mississippiTable =
      .ok (.string "Mississippi") := rfl
  have hr : (Expr.string ⟨"ISSI", .single⟩ ⟨15, 21⟩).eval Registry.standard mississippiTable =
      .ok (.string "ISSI") := rfl
  obtain ⟨-, -, -, hcontains⟩ := eval_like_plain hplain hl hr
  have hname : Text.sameAscii "contains" "CONTAINS" = true := by decide
  exact ⟨hplain, hl, hr, hcontains _ ⟨"CONTAINS", ⟨0, 8⟩⟩ ⟨8, 22⟩ ⟨0, 18⟩ ⟨0, 22⟩ rfl hname⟩

end SqlPredicates
