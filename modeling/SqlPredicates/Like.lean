import SqlPredicates.Text.Case

/-!
# LIKE patterns

In a pattern, `%` stands for any run of characters, `_` for one character, and `[…]` for one
character of a set. The set ends at the first closing bracket; it is negated by a caret at its front,
and `x-y` in it is a range. An opening bracket without a closing one stands for itself, as does every
other character. Texts and patterns are compared in lowercase.

A text is matched from left to right. A run is first tried as the empty run. When the tokens after it
stop fitting, it takes one character more and they are tried again behind it. Only the last run that was
met is ever tried again; earlier ones keep what they have taken.

## Termination

A retry moves back in the text, so the place in the text is no measure of the work left. What goes down,
in this order of importance, is the number of tokens behind the run to be tried again, the number of
characters behind the place it was tried at, and the number of tokens left. `Place.Valid` is what the
comparison needs, and `Place.rank_lt_of_round?` is the comparison.

## Main definitions

* `Like.Element`, `Like.Token` — the parts of a pattern
* `Like.tokens` — the tokens of a pattern
* `Like.Place`, `Like.Place.round?` — where a matching stands, and one round of it
* `Like.matchFrom` — the rounds until the text ends
* `like` — the comparison of a text with a pattern
-/

namespace SqlPredicates

namespace Like

/-- A part of a pattern that stands for one character. -/
inductive Element where
  | any
  | set (chars : List Char)
  | char (c : Char)
  deriving DecidableEq, Repr

/-- A part of a pattern. -/
inductive Token where
  | run
  | element (e : Element)
  deriving DecidableEq, Repr

/-- Whether a character is listed in a set, alone or within a range. -/
def listed (c : Char) : List Char → Bool
  | low :: '-' :: high :: rest => (low ≤ c && c ≤ high) || listed c rest
  | x :: rest => x == c || listed c rest
  | [] => false

/-- Whether a set, which may be negated, has a character. -/
def inSet (c : Char) : List Char → Bool
  | '^' :: rest => !listed c rest
  | chars => listed c chars

/-- Whether an element stands for a character. -/
def Element.accepts : Element → Char → Bool
  | .any, _ => true
  | .set chars, c => inSet c chars
  | .char x, c => x == c

/-- The tokens of a pattern. The first argument holds the characters of the set being read. -/
def tokensFrom : Option (List Char) → List Char → List Token
  | _, [] => []
  | some chars, c :: cs =>
    if c = ']' then .element (.set chars) :: tokensFrom none cs
    else tokensFrom (some (chars ++ [c])) cs
  | none, c :: cs =>
    if c = '%' then .run :: tokensFrom none cs
    else if c = '_' then .element .any :: tokensFrom none cs
    else if c = '[' && cs.contains ']' then tokensFrom (some []) cs
    else .element (.char c) :: tokensFrom none cs

/-- Runs next to each other are one run. -/
def joinRuns : List Token → List Token
  | .run :: .run :: ts => joinRuns (.run :: ts)
  | t :: ts => t :: joinRuns ts
  | [] => []

/-- The tokens of a pattern. -/
def tokens (pattern : List Char) : List Token := joinRuns (tokensFrom none pattern)

/-! ### Matching -/

/-- Where a matching stands: the numbers of characters and tokens before it and, once a run was met, the
number of the last run and the number of characters before the place it was last tried at. -/
structure Place where
  text : Nat
  token : Nat
  retry : Option (Nat × Nat)

namespace Place

/-- The start of the text and of the pattern. -/
def start : Place := ⟨0, 0, none⟩

/-- Lets the last run take one character more. -/
def goBack? (s : Place) : Option Place :=
  match s.retry with
  | some (run, tried) => some ⟨tried + 1, run + 1, some (run, tried + 1)⟩
  | none => none

/-- One round: what the next token makes of the next character `c`. -/
def round? (ts : Array Token) (c : Char) (s : Place) : Option Place :=
  match ts[s.token]? with
  | some .run => some ⟨s.text, s.token + 1, some (s.token, s.text)⟩
  | some (.element e) =>
    if e.accepts c then some ⟨s.text + 1, s.token + 1, s.retry⟩ else s.goBack?
  | none => s.goBack?

/-- A place that a matching can come to. -/
structure Valid (ts : Array Token) (s : Place) : Prop where
  /-- No token after the last one is looked at. -/
  token_le : s.token ≤ ts.size
  /-- The last run has been passed, and was tried at a character that has been passed. -/
  retry_le : ∀ {run tried : Nat}, s.retry = some (run, tried) → run < s.token ∧ tried ≤ s.text

theorem valid_start (ts : Array Token) : start.Valid ts :=
  ⟨Nat.zero_le _, by simp [start]⟩

/-- The work left, in order of importance. -/
def rank (cs : Array Char) (ts : Array Token) (s : Place) : Nat × Nat × Nat :=
  match s.retry with
  | some (run, tried) => (ts.size - run, cs.size - tried, ts.size - s.token)
  | none => (ts.size + 1, 0, ts.size - s.token)

theorem goBack?_eq_some {s s' : Place} (h : s.goBack? = some s') :
    ∃ run tried, s.retry = some (run, tried) ∧ s' = ⟨tried + 1, run + 1, some (run, tried + 1)⟩ := by
  rw [goBack?] at h
  split at h
  · next run tried hretry => exact ⟨run, tried, hretry, (Option.some.inj h).symm⟩
  · cases h

/-- What one round can do. -/
theorem round?_cases {ts : Array Token} {c : Char} {s s' : Place} (h : s.round? ts c = some s') :
    (ts[s.token]? = some .run ∧ s' = ⟨s.text, s.token + 1, some (s.token, s.text)⟩) ∨
    (∃ e, ts[s.token]? = some (.element e) ∧ e.accepts c = true ∧
      s' = ⟨s.text + 1, s.token + 1, s.retry⟩) ∨
    ((∀ t, ts[s.token]? = some t → ∃ e, t = .element e ∧ e.accepts c = false) ∧
      ∃ run tried, s.retry = some (run, tried) ∧
        s' = ⟨tried + 1, run + 1, some (run, tried + 1)⟩) := by
  rw [round?] at h
  split at h
  · next hrun => exact .inl ⟨hrun, (Option.some.inj h).symm⟩
  · next e he =>
    split at h
    · next hacc => exact .inr (.inl ⟨e, he, hacc, (Option.some.inj h).symm⟩)
    · next hacc =>
      refine .inr (.inr ⟨fun t ht => ⟨e, ?_, by simpa using hacc⟩, goBack?_eq_some h⟩)
      exact Option.some.inj (ht.symm.trans he)
  · next hnone =>
    refine .inr (.inr ⟨fun t ht => ?_, goBack?_eq_some h⟩)
    rw [hnone] at ht
    cases ht

theorem Valid.round? {ts : Array Token} {c : Char} {s s' : Place} (hs : s.Valid ts)
    (h : s.round? ts c = some s') : s'.Valid ts := by
  rcases round?_cases h with ⟨ht, rfl⟩ | ⟨e, ht, -, rfl⟩ | ⟨-, run, tried, hretry, rfl⟩
  · have hlt : s.token < ts.size := (Array.getElem?_eq_some_iff.mp ht).1
    refine ⟨hlt, fun hr => ?_⟩
    cases hr
    exact ⟨Nat.lt_succ_self _, Nat.le_refl _⟩
  · have hlt : s.token < ts.size := (Array.getElem?_eq_some_iff.mp ht).1
    refine ⟨hlt, fun hr => ?_⟩
    obtain ⟨hrun, htried⟩ := hs.retry_le hr
    exact ⟨Nat.lt_succ_of_lt hrun, Nat.le_succ_of_le htried⟩
  · have hrun := (hs.retry_le hretry).1
    refine ⟨Nat.lt_of_lt_of_le hrun hs.token_le, fun hr => ?_⟩
    cases hr
    exact ⟨Nat.lt_succ_self _, Nat.le_refl _⟩

/-- Every round leaves less to do. -/
theorem rank_lt_of_round? {cs : Array Char} {ts : Array Token} {c : Char} {s s' : Place}
    (hs : s.Valid ts) (hlt : s.text < cs.size) (h : s.round? ts c = some s') :
    Prod.Lex (· < ·) (Prod.Lex (· < ·) (· < ·)) (s'.rank cs ts) (s.rank cs ts) := by
  rcases round?_cases h with ⟨ht, rfl⟩ | ⟨e, ht, -, rfl⟩ | ⟨-, run, tried, hretry, rfl⟩
  · have htoken : s.token < ts.size := (Array.getElem?_eq_some_iff.mp ht).1
    simp only [rank]
    split
    · next run tried hr =>
      have hrun := (hs.retry_le hr).1
      exact .left _ _ (by omega)
    · exact .left _ _ (by omega)
  · have htoken : s.token < ts.size := (Array.getElem?_eq_some_iff.mp ht).1
    have hless : ts.size - (s.token + 1) < ts.size - s.token := by omega
    simp only [rank]
    split
    · exact .right _ (.right _ hless)
    · exact .right _ (.right _ hless)
  · obtain ⟨-, htried⟩ := hs.retry_le hretry
    have hless : cs.size - (tried + 1) < cs.size - tried := by omega
    simp only [rank, hretry]
    exact .right _ (.left _ _ hless)

end Place

/-- Goes on from a place until the text ends. What is left of the pattern then must be runs. -/
def matchFrom (cs : Array Char) (ts : Array Token) (s : Place) (valid : s.Valid ts) : Bool :=
  if within : s.text < cs.size then
    match went : s.round? ts cs[s.text] with
    | some s' => matchFrom cs ts s' (valid.round? went)
    | none => false
  else (ts.toList.drop s.token).all (· == .run)
termination_by s.rank cs ts
decreasing_by exact Place.rank_lt_of_round? valid within went

/-- Whether the characters of a text are what the tokens of a pattern stand for. -/
def matchTokens (cs : Array Char) (ts : Array Token) : Bool :=
  matchFrom cs ts .start (Place.valid_start ts)

end Like

/-- Whether a text matches a pattern, ignoring case. -/
def like (text pattern : String) : Bool :=
  Like.matchTokens (Text.lowercase text).toList.toArray
    (Like.tokens (Text.lowercase pattern).toList).toArray

end SqlPredicates
