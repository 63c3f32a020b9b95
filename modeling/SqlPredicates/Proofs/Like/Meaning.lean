import SqlPredicates.Like
import Mathlib.Data.Char
import Mathlib.Tactic.Common

/-!
# What a LIKE pattern stands for

The meaning of a pattern as a relation between the characters of the pattern and those of a text. It
is stated without tokens, so that the division into tokens is itself a part of what is proved: a set
ends at the first closing bracket, an opening bracket without one is an ordinary character, and
joining runs changes nothing.

## Main definitions

* `Like.setRanges`, `Like.SetHas` — the characters of a set
* `Like.StandsFor` — the meaning of a pattern
* `Like.Fits` — the meaning of a list of tokens

## Main results

* `Like.inSet_iff` — the test for sets
* `Like.fits_joinRuns_iff` — joining runs keeps the meaning
* `Like.fits_tokens_iff` — the tokens of a pattern mean what the pattern means
-/

namespace SqlPredicates

namespace Like

/-! ### Sets -/

/-- The ranges that a set lists, read from left to right: `x-y` is the range from `x` to `y`, and
any other character is the range of itself. -/
def setRanges : List Char → List (Char × Char)
  | low :: '-' :: high :: rest => (low, high) :: setRanges rest
  | x :: rest => (x, x) :: setRanges rest
  | [] => []

/-- The characters of a set. A caret at the front negates it. -/
def SetHas : List Char → Char → Prop
  | '^' :: rest, c => ¬ ∃ r ∈ setRanges rest, r.1 ≤ c ∧ c ≤ r.2
  | chars, c => ∃ r ∈ setRanges chars, r.1 ≤ c ∧ c ≤ r.2

theorem listed_iff (c : Char) (chars : List Char) :
    listed c chars = true ↔ ∃ r ∈ setRanges chars, r.1 ≤ c ∧ c ≤ r.2 := by
  fun_induction listed c chars with
  | case1 low high rest ih => simp [setRanges, ih]
  | case2 x rest hne ih =>
    have hself : x = c ↔ x ≤ c ∧ c ≤ x :=
      ⟨fun h => h ▸ ⟨le_rfl, le_rfl⟩, fun h => le_antisymm h.1 h.2⟩
    rw [setRanges.eq_2 x rest hne]
    simp [ih, hself]
  | case3 => simp [setRanges]

theorem inSet_iff (c : Char) (chars : List Char) : inSet c chars = true ↔ SetHas chars c := by
  fun_cases inSet c chars with
  | case1 rest => rw [SetHas, Bool.not_eq_true', ← Bool.not_eq_true, listed_iff]
  | case2 chars hne => rw [SetHas.eq_2 chars c hne, listed_iff]

/-! ### Patterns and tokens -/

/-- **The meaning of a pattern.** The pattern stands for the text, all of it. -/
inductive StandsFor : List Char → List Char → Prop
  | nil : StandsFor [] []
  | run {pattern cs : List Char} (skipped : List Char) (rest : StandsFor pattern cs) :
      StandsFor ('%' :: pattern) (skipped ++ cs)
  | any {pattern cs : List Char} (c : Char) (rest : StandsFor pattern cs) :
      StandsFor ('_' :: pattern) (c :: cs)
  | set {pattern cs chars : List Char} {c : Char} (closes : ']' ∉ chars) (has : SetHas chars c)
      (rest : StandsFor pattern cs) : StandsFor ('[' :: (chars ++ ']' :: pattern)) (c :: cs)
  | opening {pattern cs : List Char} (unmatched : ']' ∉ pattern) (rest : StandsFor pattern cs) :
      StandsFor ('[' :: pattern) ('[' :: cs)
  | char {pattern cs : List Char} {c : Char} (plain : c ≠ '%' ∧ c ≠ '_' ∧ c ≠ '[')
      (rest : StandsFor pattern cs) : StandsFor (c :: pattern) (c :: cs)

/-- The meaning of a list of tokens. -/
inductive Fits : List Token → List Char → Prop
  | nil : Fits [] []
  | run {ts : List Token} {cs : List Char} (skipped : List Char) (rest : Fits ts cs) :
      Fits (.run :: ts) (skipped ++ cs)
  | element {ts : List Token} {cs : List Char} {e : Element} {c : Char}
      (accepts : e.accepts c = true)
      (rest : Fits ts cs) : Fits (.element e :: ts) (c :: cs)

theorem fits_nil_iff {cs : List Char} : Fits [] cs ↔ cs = [] :=
  ⟨fun h => by cases h; rfl, fun h => h ▸ .nil⟩

theorem fits_run_iff {ts : List Token} {cs : List Char} :
    Fits (.run :: ts) cs ↔ ∃ k, Fits ts (cs.drop k) := by
  constructor
  · intro h
    cases h with
    | run skipped rest => exact ⟨skipped.length, by rwa [List.drop_left]⟩
  · rintro ⟨k, h⟩
    rw [← List.take_append_drop k cs]
    exact .run _ h

theorem fits_element_cons_iff {ts : List Token} {cs : List Char} {e : Element} {c : Char} :
    Fits (.element e :: ts) (c :: cs) ↔ e.accepts c = true ∧ Fits ts cs :=
  ⟨fun h => by cases h with | element accepts rest => exact ⟨accepts, rest⟩,
    fun h => .element h.1 h.2⟩

theorem not_fits_element_nil {ts : List Token} {e : Element} : ¬ Fits (.element e :: ts) [] :=
  fun h => nomatch h

/-- A run may take nothing. -/
theorem fits_run_of_fits {ts : List Token} {cs : List Char} (h : Fits ts cs) :
    Fits (.run :: ts) cs :=
  .run [] h

/-- Two runs in a row take what one of them can take. -/
theorem fits_run_run_iff {ts : List Token} {cs : List Char} :
    Fits (.run :: .run :: ts) cs ↔ Fits (.run :: ts) cs := by
  refine ⟨fun h => ?_, fits_run_of_fits⟩
  obtain ⟨k, h⟩ := fits_run_iff.mp h
  obtain ⟨l, h⟩ := fits_run_iff.mp h
  exact fits_run_iff.mpr ⟨k + l, by rwa [← List.drop_drop]⟩

/-- Joining runs keeps the meaning. -/
theorem fits_joinRuns_iff {ts : List Token} {cs : List Char} :
    Fits (joinRuns ts) cs ↔ Fits ts cs := by
  fun_induction joinRuns ts generalizing cs with
  | case1 ts ih => rw [ih, fits_run_run_iff]
  | case2 t ts hne ih =>
    cases t with
    | run => simp only [fits_run_iff, ih]
    | element e =>
      cases cs with
      | nil => exact iff_of_false not_fits_element_nil not_fits_element_nil
      | cons c cs => simp only [fits_element_cons_iff, ih]
  | case3 => rfl

/-! ### The first part of a pattern -/

section First

variable {pattern cs : List Char}

theorem standsFor_nil_iff : StandsFor [] cs ↔ cs = [] :=
  ⟨fun h => by cases h; rfl, fun h => h ▸ .nil⟩

theorem standsFor_run_iff :
    StandsFor ('%' :: pattern) cs ↔ ∃ rest, rest <:+ cs ∧ StandsFor pattern rest := by
  constructor
  · intro h
    cases h with
    | run skipped rest => exact ⟨_, List.suffix_append skipped _, rest⟩
    | char plain rest => exact absurd rfl plain.1
  · rintro ⟨rest, ⟨skipped, rfl⟩, h⟩
    exact .run skipped h

theorem standsFor_any_iff :
    StandsFor ('_' :: pattern) cs ↔ ∃ c rest, cs = c :: rest ∧ StandsFor pattern rest := by
  constructor
  · intro h
    cases h with
    | any c rest => exact ⟨c, _, rfl, rest⟩
    | char plain rest => exact absurd rfl plain.2.1
  · rintro ⟨c, rest, rfl, h⟩
    exact .any c h

theorem standsFor_char_iff {c : Char} (plain : c ≠ '%' ∧ c ≠ '_' ∧ c ≠ '[') :
    StandsFor (c :: pattern) cs ↔ ∃ rest, cs = c :: rest ∧ StandsFor pattern rest := by
  constructor
  · intro h
    cases h with
    | run => exact absurd rfl plain.1
    | any => exact absurd rfl plain.2.1
    | set => exact absurd rfl plain.2.2
    | opening => exact absurd rfl plain.2.2
    | char _ rest => exact ⟨_, rfl, rest⟩
  · rintro ⟨rest, rfl, h⟩
    exact .char plain h

end First

/-! ### The division into tokens -/

/-- The characters up to the closing bracket make up the set. -/
theorem tokensFrom_some {chars rest : List Char} (taken : List Char) (h : ']' ∉ chars) :
    tokensFrom (some taken) (chars ++ ']' :: rest)
      = .element (.set (taken ++ chars)) :: tokensFrom none rest := by
  induction chars generalizing taken with
  | nil => simp [tokensFrom]
  | cons c chars ih =>
    obtain ⟨hc, h⟩ := not_or.mp (mt List.mem_cons.mpr h)
    simp [tokensFrom, ih _ h, Ne.symm hc]

theorem tokensFrom_set {chars rest : List Char} (h : ']' ∉ chars) :
    tokensFrom none ('[' :: (chars ++ ']' :: rest)) =
      .element (.set chars) :: tokensFrom none rest := by
  simp [tokensFrom, tokensFrom_some [] h]

theorem tokensFrom_opening {rest : List Char} (h : ']' ∉ rest) :
    tokensFrom none ('[' :: rest) = .element (.char '[') :: tokensFrom none rest := by
  simp [tokensFrom, h]

theorem tokensFrom_char {c : Char} {rest : List Char} (h : c ≠ '%' ∧ c ≠ '_' ∧ c ≠ '[') :
    tokensFrom none (c :: rest) = .element (.char c) :: tokensFrom none rest := by
  simp [tokensFrom, h]

theorem fits_of_standsFor {pattern cs : List Char} (h : StandsFor pattern cs) :
    Fits (tokensFrom none pattern) cs := by
  induction h with
  | nil => exact .nil
  | run skipped _ ih => exact .run skipped ih
  | any c _ ih => exact .element rfl ih
  | set closes has _ ih =>
    rw [tokensFrom_set closes]
    exact .element ((inSet_iff _ _).mpr has) ih
  | opening unmatched _ ih =>
    rw [tokensFrom_opening unmatched]
    exact .element (beq_self_eq_true _) ih
  | char plain _ ih =>
    rw [tokensFrom_char plain]
    exact .element (beq_self_eq_true _) ih

/-- The converse goes through the pattern token by token, so the induction is on its length. -/
theorem standsFor_of_fits {pattern cs : List Char} (h : Fits (tokensFrom none pattern) cs) :
    StandsFor pattern cs := by
  obtain ⟨n, hn⟩ : ∃ n, pattern.length = n := ⟨_, rfl⟩
  induction n using Nat.strongRecOn generalizing pattern cs with
  | _ n ih =>
    subst hn
    cases pattern with
    | nil =>
      obtain rfl := fits_nil_iff.mp h
      exact .nil
    | cons p pattern =>
      have hrest {cs : List Char} : Fits (tokensFrom none pattern) cs → StandsFor pattern cs :=
        fun h => ih _ (Nat.lt_succ_self _) h rfl
      by_cases hrun : p = '%'
      · subst hrun
        cases h with
        | run skipped rest => exact .run skipped (hrest rest)
      by_cases hany : p = '_'
      · subst hany
        cases h with
        | element _ rest => exact .any _ (hrest rest)
      by_cases hset : p = '['
      · subst hset
        by_cases hclosing : ']' ∈ pattern
        · obtain ⟨chars, rest, rfl, hchars⟩ := List.eq_append_cons_of_mem hclosing
          rw [tokensFrom_set hchars] at h
          cases h with
          | element accepts h =>
            refine .set hchars ((inSet_iff _ _).mp accepts) (ih _ ?_ h rfl)
            simp only [List.length_cons, List.length_append]
            omega
        · rw [tokensFrom_opening hclosing] at h
          cases h with
          | element accepts rest =>
            obtain rfl := eq_of_beq accepts
            exact .opening hclosing (hrest rest)
      · rw [tokensFrom_char ⟨hrun, hany, hset⟩] at h
        cases h with
        | element accepts rest =>
          obtain rfl := eq_of_beq accepts
          exact .char ⟨hrun, hany, hset⟩ (hrest rest)

/-- **Dividing into tokens keeps the meaning.** -/
theorem fits_tokens_iff {pattern cs : List Char} :
    Fits (tokens pattern) cs ↔ StandsFor pattern cs := by
  rw [tokens, fits_joinRuns_iff]
  exact ⟨standsFor_of_fits, fits_of_standsFor⟩

end Like

end SqlPredicates
