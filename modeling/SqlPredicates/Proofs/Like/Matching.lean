import SqlPredicates.Proofs.Like.Meaning
import Mathlib

/-!
# LIKE finds a match whenever there is one

The matching tries only the last run again and never comes back to an earlier one. No match is lost
by that. When a new run is met, everything between the old run and the new one consists of elements,
which take one character each. A match in which the old run takes more characters than now therefore
lets the new run begin further to the right, and the new run can reach that place by taking more
characters itself.

The argument is carried by `Like.Place.Open`, which says that a match is still possible: from where
the matching stands, or from a later place behind the last run. Every round keeps it, in both
directions.

## Main definitions

* `Like.Place.Aligned` — what was matched since the last run
* `Like.Place.Open` — a match is still possible
* `Like.Place.Goes`, `Like.Place.Reached` — the rounds of a matching, and the places it comes to

## Main results

* `Like.Place.open_iff_of_round?` — a round keeps `Open`
* `Like.matchFrom_iff` — the rounds together decide `Open`
* `like_iff_standsFor` — the meaning of LIKE, and the bounds and the end of its matching
-/

namespace SqlPredicates

namespace Like

/-! ### Fitting a list of elements -/

/-- Elements take one character each. -/
theorem Fits.drop_elements {es : List Element} {ts : List Token} {cs : List Char}
    (h : Fits (es.map .element ++ ts) cs) : Fits ts (cs.drop es.length) := by
  induction es generalizing cs with
  | nil => simpa using h
  | cons e es ih =>
    rw [List.map_cons, List.cons_append] at h
    cases h with
    | element _ rest => simpa using ih rest

/-- Nothing but runs fits the empty text. -/
theorem fits_nil_right_iff {ts : List Token} : Fits ts [] ↔ ts.all (· == .run) = true := by
  induction ts with
  | nil => exact iff_of_true .nil rfl
  | cons t ts ih =>
    cases t with
    | run => simp [fits_run_iff, ih]
    | element e => simp [not_fits_element_nil]

namespace Place

variable {cs : Array Char} {ts : Array Token} {s s' : Place} {c : Char}

/-! ### The invariant -/

/-- Behind the last run stand the elements that were matched since then, one for each character from
the place where the run was tried up to the current place. -/
def Aligned (ts : Array Token) (s : Place) : Prop :=
  ∀ {run tried : ℕ}, s.retry = some (run, tried) →
    ∃ es : List Element, ts.toList.drop (run + 1) = es.map .element ++ ts.toList.drop s.token ∧
      s.text = tried + es.length

/-- A match is still possible: the tokens left fit the text left, or the tokens behind the last run
fit the text from a place later than the one tried. -/
def Open (cs : Array Char) (ts : Array Token) (s : Place) : Prop :=
  Fits (ts.toList.drop s.token) (cs.toList.drop s.text) ∨
    ∃ run tried, s.retry = some (run, tried) ∧
      ∃ k, tried < k ∧ Fits (ts.toList.drop (run + 1)) (cs.toList.drop k)

theorem aligned_start (ts : Array Token) : start.Aligned ts := fun h => nomatch h

theorem open_start_iff : start.Open cs ts ↔ Fits ts.toList cs.toList := by
  simp [Open, start]

theorem drop_token {t : Token} (h : ts[s.token]? = some t) :
    ts.toList.drop s.token = t :: ts.toList.drop (s.token + 1) := by
  obtain ⟨hlt, rfl⟩ := Array.getElem?_eq_some_iff.mp h
  exact List.drop_eq_getElem_cons (by simpa using hlt)

theorem drop_text (h : s.text < cs.size) :
    cs.toList.drop s.text = cs[s.text] :: cs.toList.drop (s.text + 1) :=
  List.drop_eq_getElem_cons (by simpa using h)

theorem Aligned.round? (hs : s.Aligned ts) (h : s.round? ts c = some s') : s'.Aligned ts := by
  rcases round?_cases h with ⟨-, rfl⟩ | ⟨e, ht, -, rfl⟩ | ⟨-, run, tried, -, rfl⟩
  · rintro run tried hr
    cases hr
    exact ⟨[], rfl, rfl⟩
  · intro run tried hr
    obtain ⟨es, hes, htext⟩ := hs hr
    refine ⟨es ++ [e], ?_, ?_⟩
    · rw [hes, drop_token ht]
      simp
    · simp only [htext, List.length_append, List.length_singleton]
      omega
  · rintro run tried hr
    cases hr
    exact ⟨[], rfl, rfl⟩

/-- A match with a later place behind the last run leaves the tokens that are next at a later place
than the current one. -/
theorem Aligned.exists_later (hs : s.Aligned ts) {run tried k : ℕ}
    (hr : s.retry = some (run, tried))
    (hk : tried < k) (hfits : Fits (ts.toList.drop (run + 1)) (cs.toList.drop k)) :
    ∃ l, s.text < l ∧ Fits (ts.toList.drop s.token) (cs.toList.drop l) := by
  obtain ⟨es, hes, htext⟩ := hs hr
  rw [hes] at hfits
  refine ⟨k + es.length, by omega, ?_⟩
  rw [← List.drop_drop]
  exact hfits.drop_elements

/-! ### One round -/

/-- The next token does not fit the next character. -/
theorem not_fits_of_refused (hlt : s.text < cs.size)
    (hrefused : ∀ t, ts[s.token]? = some t → ∃ e, t = .element e ∧ e.accepts cs[s.text] = false) :
    ¬ Fits (ts.toList.drop s.token) (cs.toList.drop s.text) := by
  intro hfits
  rw [drop_text hlt] at hfits
  cases ht : ts[s.token]? with
  | none =>
    have hend : ts.toList.drop s.token = [] := by
      rw [List.drop_eq_nil_iff]
      simpa using ht
    rw [hend] at hfits
    cases hfits
  | some t =>
    obtain ⟨e, rfl, haccepts⟩ := hrefused t ht
    rw [drop_token ht, fits_element_cons_iff, haccepts] at hfits
    exact Bool.false_ne_true hfits.1

/-- A new run: whatever a later place behind the old run allows, a later place behind the new one
allows as well. -/
theorem open_iff_of_run (hs : s.Aligned ts) (ht : ts[s.token]? = some .run) :
    s.Open cs ts ↔ Open cs ts ⟨s.text, s.token + 1, some (s.token, s.text)⟩ := by
  have hnew : Open cs ts ⟨s.text, s.token + 1, some (s.token, s.text)⟩ ↔
      ∃ k, s.text ≤ k ∧ Fits (ts.toList.drop (s.token + 1)) (cs.toList.drop k) := by
    constructor
    · rintro (hfits | ⟨run, tried, hr, k, hk, hfits⟩)
      · exact ⟨s.text, le_rfl, hfits⟩
      · cases hr
        exact ⟨k, Nat.le_of_lt hk, hfits⟩
    · rintro ⟨k, hk, hfits⟩
      rcases Nat.eq_or_lt_of_le hk with rfl | hk
      · exact .inl hfits
      · exact .inr ⟨s.token, s.text, rfl, k, hk, hfits⟩
  rw [hnew]
  constructor
  · rintro (hfits | ⟨run, tried, hr, k, hk, hfits⟩)
    · rw [drop_token ht] at hfits
      obtain ⟨k, hfits⟩ := fits_run_iff.mp hfits
      rw [List.drop_drop] at hfits
      exact ⟨s.text + k, Nat.le_add_right _ _, hfits⟩
    · obtain ⟨l, hl, hfits⟩ := hs.exists_later hr hk hfits
      rw [drop_token ht] at hfits
      obtain ⟨j, hfits⟩ := fits_run_iff.mp hfits
      rw [List.drop_drop] at hfits
      exact ⟨l + j, by omega, hfits⟩
  · rintro ⟨k, hk, hfits⟩
    refine .inl ?_
    rw [drop_token ht, fits_run_iff]
    exact ⟨k - s.text, by rwa [List.drop_drop, Nat.add_sub_cancel' hk]⟩

/-- **A round loses no match and invents none.** -/
theorem open_iff_of_round? (hs : s.Aligned ts) (hlt : s.text < cs.size)
    (h : s.round? ts cs[s.text] = some s') : s.Open cs ts ↔ s'.Open cs ts := by
  rcases round?_cases h with ⟨ht, rfl⟩ | ⟨e, ht, haccepts, rfl⟩ | ⟨hrefused, run, tried, hr, rfl⟩
  · exact open_iff_of_run hs ht
  · refine or_congr_left ?_
    rw [drop_token ht, drop_text hlt, fits_element_cons_iff]
    exact and_iff_right haccepts
  · have hnow := not_fits_of_refused hlt hrefused
    constructor
    · rintro (hfits | ⟨run', tried', hr', k, hk, hfits⟩)
      · exact absurd hfits hnow
      · cases hr.symm.trans hr'
        rcases Nat.eq_or_lt_of_le (Nat.succ_le_of_lt hk) with rfl | hk
        · exact .inl hfits
        · exact .inr ⟨run, tried + 1, rfl, k, hk, hfits⟩
    · rintro (hfits | ⟨run', tried', hr', k, hk, hfits⟩)
      · exact .inr ⟨run, tried, hr, tried + 1, Nat.lt_succ_self _, hfits⟩
      · cases hr'
        exact .inr ⟨run, tried, hr, k, by omega, hfits⟩

/-- A round gives up when the next token does not fit and no run was met. -/
theorem round?_eq_none (h : s.round? ts c = none) :
    (∀ t, ts[s.token]? = some t → ∃ e, t = .element e ∧ e.accepts c = false) ∧ s.retry = none := by
  have hretry : s.goBack? = none → s.retry = none := by
    intro hback
    rw [goBack?] at hback
    split at hback
    · cases hback
    · assumption
  rw [round?] at h
  split at h
  · cases h
  · next e he =>
    split at h
    · cases h
    · next haccepts =>
      refine ⟨fun t ht => ⟨e, ?_, Bool.eq_false_iff.mpr haccepts⟩, hretry h⟩
      exact Option.some.inj (ht.symm.trans he)
  · next hnone =>
    refine ⟨fun t ht => ?_, hretry h⟩
    rw [hnone] at ht
    cases ht

/-- A round that gives up has no match left. -/
theorem not_open_of_round?_eq_none (hlt : s.text < cs.size) (h : s.round? ts cs[s.text] = none) :
    ¬ s.Open cs ts := by
  obtain ⟨hrefused, hretry⟩ := round?_eq_none h
  rintro (hfits | ⟨run, tried, hr, -⟩)
  · exact not_fits_of_refused hlt hrefused hfits
  · rw [hretry] at hr
    cases hr

/-- At the end of the text a match needs the tokens left to be runs. Taking more characters behind
the last run would need characters after the end. -/
theorem open_iff_of_end (hs : s.Aligned ts) (hend : ¬ s.text < cs.size) :
    s.Open cs ts ↔ (ts.toList.drop s.token).all (· == .run) = true := by
  have hdrop : ∀ k, s.text ≤ k → cs.toList.drop k = [] := by
    intro k hk
    rw [List.drop_eq_nil_iff, Array.length_toList]
    omega
  rw [← fits_nil_right_iff, Open, hdrop _ le_rfl]
  refine or_iff_left_of_imp ?_
  rintro ⟨run, tried, hr, k, hk, hfits⟩
  obtain ⟨l, hl, hfits⟩ := hs.exists_later hr hk hfits
  rwa [hdrop l (Nat.le_of_lt hl)] at hfits

end Place

/-! ### All rounds -/

/-- The rounds from a place on decide whether a match is still possible there. -/
theorem matchFrom_iff {cs : Array Char} {ts : Array Token} {s : Place} (valid : s.Valid ts)
    (hs : s.Aligned ts) : matchFrom cs ts s valid = true ↔ s.Open cs ts := by
  fun_induction matchFrom cs ts s valid with
  | case1 s valid within s' went ih =>
    rw [ih (hs.round? went), Place.open_iff_of_round? hs within went]
  | case2 s valid within went =>
    exact iff_of_false Bool.false_ne_true (Place.not_open_of_round?_eq_none within went)
  | case3 s valid within => rw [Place.open_iff_of_end hs within]

theorem matchTokens_iff {cs : Array Char} {ts : Array Token} :
    matchTokens cs ts = true ↔ Fits ts.toList cs.toList := by
  rw [matchTokens, matchFrom_iff _ (Place.aligned_start ts), Place.open_start_iff]

namespace Place

/-- One round of a matching, which takes place while there is text left. -/
def Goes (cs : Array Char) (ts : Array Token) (s s' : Place) : Prop :=
  ∃ _ : s.text < cs.size, s.round? ts cs[s.text] = some s'

/-- The places that a matching comes to. -/
def Reached (cs : Array Char) (ts : Array Token) (s : Place) : Prop :=
  Relation.ReflTransGen (Goes cs ts) start s

theorem Reached.valid {cs : Array Char} {ts : Array Token} {s : Place} (h : Reached cs ts s) :
    s.Valid ts := by
  induction h with
  | refl => exact valid_start ts
  | tail _ hgoes ih =>
    obtain ⟨_, went⟩ := hgoes
    exact ih.round? went

/-- There is no endless sequence of rounds: it would go down in a well-founded order. -/
theorem not_endless (cs : Array Char) (ts : Array Token) :
    ¬ ∃ places : ℕ → Place, places 0 = start ∧ ∀ i, Goes cs ts (places i) (places (i + 1)) := by
  rintro ⟨places, hstart, hgoes⟩
  have hvalid : ∀ i, (places i).Valid ts := by
    intro i
    induction i with
    | zero => exact hstart ▸ valid_start ts
    | succ i ih =>
      obtain ⟨_, went⟩ := hgoes i
      exact ih.round? went
  have hdown : ∀ i, Prod.Lex (· < ·) (Prod.Lex (· < ·) (· < ·)) ((places (i + 1)).rank cs ts)
      ((places i).rank cs ts) := by
    intro i
    obtain ⟨within, went⟩ := hgoes i
    exact rank_lt_of_round? (hvalid i) within went
  have hwf : WellFounded (Prod.Lex (· < ·) (Prod.Lex (· < ·) (· < ·)) : ℕ × ℕ × ℕ → _ → Prop) :=
    (Prod.lex Nat.lt_wfRel (Prod.lex Nat.lt_wfRel Nat.lt_wfRel)).wf
  exact (wellFounded_iff_isEmpty_descending_chain.mp hwf).elim
    ⟨fun i => (places i).rank cs ts, hdown⟩

end Place

/-- A comparison is decided by what the lowercase pattern stands for. -/
theorem like_eq_true_iff {text pattern : String} :
    like text pattern = true ↔
      StandsFor (Text.lowercase pattern).toList (Text.lowercase text).toList := by
  rw [like, matchTokens_iff, ← fits_tokens_iff]

end Like

/-- **LIKE is correct.** A text matches a pattern exactly when the pattern, in lowercase, stands for
the text, in lowercase. In every matching the number of the next token stays within the list of
tokens, and the rounds come to an end. -/
theorem like_iff_standsFor :
    (∀ text pattern : String, like text pattern = true ↔
      Like.StandsFor (Text.lowercase pattern).toList (Text.lowercase text).toList) ∧
    ∀ (cs : Array Char) (ts : Array Like.Token),
      (∀ s, Like.Place.Reached cs ts s → s.token ≤ ts.size) ∧
        ¬ ∃ places : ℕ → Like.Place, places 0 = .start ∧
          ∀ i, Like.Place.Goes cs ts (places i) (places (i + 1)) := by
  refine ⟨fun text pattern => ?_, fun cs ts => ⟨fun s hs => hs.valid.token_le, ?_⟩⟩
  · rw [like, Like.matchTokens_iff, ← Like.fits_tokens_iff]
  · exact Like.Place.not_endless cs ts

/-- A pattern with two runs, of which the first has to give way to the second, and a place in the
middle of a matching. -/
theorem like_mississippi :
    Like.StandsFor "m%iss%pi".toList "mississippi".toList ∧
      (Like.Place.mk 1 1 none).token ≤ #[Like.Token.element (.char 'm'), .run].size := by
  have hlike : like "Mississippi" "m%ISS%pi" = true := by cbv
  have hgoes : Like.Place.Goes #['m', 'i'] #[.element (.char 'm'), .run] .start ⟨1, 1, none⟩ :=
    ⟨by decide, rfl⟩
  have hstands := (like_iff_standsFor.1 "Mississippi" "m%ISS%pi").mp hlike
  have htext : (Text.lowercase "Mississippi").toList = "mississippi".toList := by decide
  have hpattern : (Text.lowercase "m%ISS%pi").toList = "m%iss%pi".toList := by decide
  rw [htext, hpattern] at hstands
  exact ⟨hstands, (like_iff_standsFor.2 #['m', 'i'] _).1 _ (.single hgoes)⟩

end SqlPredicates
