import SqlPredicates.Proofs.Outcome

/-!
# Comparing two readings

What a reader does depends on the kinds of the tokens that it has looked at, and on nothing else. So
two texts are read alike as long as their tokens agree, whatever stands between the tokens and
whatever follows later.

## The places that are compared

A `Comparison` says which tokens of the two texts belong together, and up to which places the two
texts are compared; of what stands behind these places nothing is known. `Comparison.Alike p p'`
holds of two places that are equally far from these last places. If the first reading goes beyond
its last place, nothing is claimed about the second one: `Comparison.Follows` allows for that, and
since no action goes back (`Reads.Forward`), a reading that ends at the last place has never been
beyond it.

Two readings that agree may return different values: trees that agree up to places, or tokens that
belong together. They may also fail with different errors, because the offsets differ. A `Fault` is
what two such errors have in common.

## Main definitions

* `Fault`, `Fault.errorAt` — what is wrong at a token, and the error for it
* `Parser.ahead`, `Reads.Forward` — a measure of what is left, which no action increases
* `Comparison`, `Comparison.Alike`, `Comparison.Agrees` — what is compared, and how
* `Comparison.Follows` — the second reading does the same as the first one

## Main results

* `Reads.Orderly.forward` — what passes over tokens never goes back
* `Comparison.Follows.bind` — sequences of actions are compared action by action
* `Comparison.follows_advance`, `Comparison.follows_eat?`, `Comparison.follows_expect` — single tokens
* `Comparison.follows_whole` — whole texts
-/

namespace SqlPredicates

/-! ### Faults -/

/-- What a reader finds wrong at a token. -/
inductive Fault where
  | unexpected (expected : Expectation)
  | weightOutOfRange (value : Binary64)
  | nestingTooDeep
  deriving DecidableEq, Repr

/-- The error for a fault at a token. -/
def Fault.errorAt (t : Token) : Fault → SyntaxError
  | .unexpected expected => .unexpected t.span.start expected t.kind
  | .weightOutOfRange value => .weightOutOfRange t.span.start value
  | .nestingTooDeep => .nestingTooDeep t.span.start

/-! ### Going forward -/

namespace Parser

variable {p q : Parser}

/-- Twice the number of remaining items, and one more unless the end of the input is looked at. -/
def ahead (p : Parser) : ℕ :=
  2 * p.rest.length + if p.current.kind = .endOfInput then 0 else 1

theorem ahead_atDepth (depth : ℕ) (p : Parser) : (p.atDepth depth).ahead = p.ahead := rfl

theorem ahead_le_of_rest (p : Parser) : p.ahead ≤ 2 * p.rest.length + 1 := by
  rw [ahead]
  split <;> omega

end Parser

namespace Reads

open SqlPredicates.Parser

variable {α β : Type} {x : Reads α} {f : α → Reads β}

/-- The action never goes back. -/
def Forward (x : Reads α) : Prop := ∀ p, (x.after p).ahead ≤ p.ahead

theorem Forward.bind (hx : x.Forward) (hf : ∀ a, (f a).Forward) : (x >>= f).Forward := by
  intro p
  have hfirst := hx p
  cases h : x p with
  | ok a q =>
    have hsecond := hf a q
    rw [after_of_ok h] at hfirst
    rw [after, bind_of_ok h]
    exact Nat.le_trans hsecond hfirst
  | error e q =>
    rw [after_of_error h] at hfirst
    rw [after_of_error (bind_of_error h)]
    exact hfirst

theorem forward_pure (a : α) : (pure a : Reads α).Forward := fun _ => Nat.le_refl _

theorem forward_look : look.Forward := fun _ => Nat.le_refl _

theorem forward_leave : leave.Forward := fun _ => Nat.le_refl _

theorem forward_unexpected (expected : Expectation) : (unexpected expected : Reads α).Forward :=
  fun _ => Nat.le_refl _

/-- Moving on leaves less, unless the end of the input is looked at. That holds also if there is no
next token because the text cannot be read. -/
theorem ahead_after_advance_add (p : Parser) :
    (advance.after p).ahead + (if p.current.kind = .endOfInput then 0 else 1) ≤ p.ahead := by
  have hone : (if p.current.kind = .endOfInput then 0 else 1) ≤ 1 := by split <;> omega
  rw [after, advance]
  nth_rewrite 2 [ahead]
  cases hrest : p.rest with
  | nil => simp [firstItem, ahead]
  | cons item items =>
    cases item with
    | ok next =>
      have hle := ahead_le_of_rest { p with current := next, rest := items }
      simp only [firstItem, List.tail_cons, List.length_cons] at hle ⊢
      omega
    | error e =>
      have hle := ahead_le_of_rest { p with rest := items }
      simp only [firstItem, List.tail_cons, List.length_cons] at hle ⊢
      omega

theorem ahead_lt_of_ne {p : Parser} (h : p.current.kind ≠ .endOfInput) :
    (advance.after p).ahead < p.ahead := by
  have hle := ahead_after_advance_add p
  rw [if_neg h] at hle
  exact hle

theorem ahead_le_of_passes {p q : Parser} {ts : List Token} (h : Passes p ts q) :
    q.ahead ≤ p.ahead := by
  induction h with
  | nil => exact Nat.le_refl _
  | @cons p q r t ts first _ ih =>
    have hle := ahead_after_advance_add p
    rw [after_of_ok first] at hle
    omega

/-- What passes over tokens, and does nothing else to the place, never goes back. -/
theorem Orderly.forward (hx : x.Orderly) : x.Forward := by
  intro p
  have houtcome := hx p
  cases h : x p with
  | ok a q =>
    rw [h] at houtcome
    rw [after_of_ok h]
    cases houtcome with
    | ok hts => exact ahead_le_of_passes hts
  | error e q =>
    rw [h] at houtcome
    rw [after_of_error h]
    cases houtcome with
    | refused hts =>
      rw [ahead_atDepth]
      exact ahead_le_of_passes hts
    | @unreadable _ _ q r hts hadvance depth =>
      have hle := ahead_after_advance_add q
      rw [after_of_error hadvance] at hle
      have hpasses := ahead_le_of_passes hts
      rw [ahead_atDepth]
      omega

end Reads

/-! ### What is compared -/

/-- Two readings that are compared: the tokens that belong together, whose kinds are the same up to
spelling, and the places up to which they are compared. -/
structure Comparison (spelling : Token.Kind → Token.Kind) where
  /-- The tokens that belong together. -/
  Paired : Token → Token → Prop
  spelling_eq : ∀ {t t' : Token}, Paired t t' → spelling t.kind = spelling t'.kind
  /-- The last place of the first text. -/
  last : Parser
  /-- The last place of the second text. -/
  last' : Parser
  paired_last : Paired last.current last'.current

namespace Comparison

open SqlPredicates.Parser SqlPredicates.Reads

variable {spelling : Token.Kind → Token.Kind} (c : Comparison spelling)

/-- Two places that are equally far from the last ones, with tokens between that belong together. The
same height is noted at both. -/
inductive Alike : Parser → Parser → Prop
  | last (depth depth' height : ℕ) :
      Alike ((c.last.atDepth depth).atHeight height) ((c.last'.atDepth depth').atHeight height)
  | step {p p' q q' : Parser} (hne : p.current.kind ≠ .endOfInput)
      (hpaired : c.Paired p.current p'.current) (h : advance p = .ok p.current q)
      (h' : advance p' = .ok p'.current q') (hrest : Alike q q') : Alike p p'

/-- The place is beyond the last one. -/
def Lost (p : Parser) : Prop := p.ahead < c.last.ahead

/-- Two results that agree: values that are related, or one fault at tokens that belong together. A
fault that is not about nesting stands at the current token. -/
inductive Agrees {α β : Type} (R : α → β → Prop) :
    EStateM.Result SyntaxError Parser α → EStateM.Result SyntaxError Parser β → Prop
  | ok {a : α} {b : β} {q q' : Parser} (h : R a b) (hq : c.Alike q q') :
      Agrees R (.ok a q) (.ok b q')
  | fault {q q' : Parser} (fault : Fault) (hq : c.Alike q q') :
      Agrees R (.error (fault.errorAt q.current) q) (.error (fault.errorAt q'.current) q')
  | tooDeep {q q' : Parser} {t t' : Token} (h : c.Paired t t') :
      Agrees R (.error (.nestingTooDeep t.span.start) q) (.error (.nestingTooDeep t'.span.start) q')
  | emptyInput {q q' : Parser} : Agrees R (.error .emptyInput q) (.error .emptyInput q')

/-- The second action does at `p'` what the first one does at `p`, unless that goes beyond the last
place. -/
def Follows {α β : Type} (R : α → β → Prop) (x : Reads α) (x' : Reads β) (p p' : Parser) : Prop :=
  c.Lost (x.after p) ∨ c.Agrees R (x p) (x' p')

/-- The values are related, and their heights are the same. -/
def EquallyHigh {α β : Type} (R : α → β → Prop) (r : α × ℕ) (r' : β × ℕ) : Prop :=
  R r.1 r'.1 ∧ r.2 = r'.2

/-- The kind is spelled in one way only. -/
def Plain (spelling : Token.Kind → Token.Kind) (kind : Token.Kind) : Prop :=
  ∀ other, spelling other = spelling kind → other = kind

variable {c} {p p' : Parser}

theorem kind_eq_iff {kind : Token.Kind} (hplain : Plain spelling kind) {t t' : Token}
    (h : c.Paired t t') : t.kind = kind ↔ t'.kind = kind := by
  have hspelling := c.spelling_eq h
  constructor
  · rintro rfl
    exact hplain _ hspelling.symm
  · rintro rfl
    exact hplain _ hspelling

namespace Alike

theorem paired (h : c.Alike p p') : c.Paired p.current p'.current := by
  cases h with
  | last => exact c.paired_last
  | step _ hpaired _ _ _ => exact hpaired

theorem height_eq (h : c.Alike p p') : p.height = p'.height := by
  induction h with
  | last => rfl
  | step _ _ h h' _ ih => rw [← height_eq_of_advance h, ih, height_eq_of_advance h']

theorem atHeight (h : c.Alike p p') (height : ℕ) :
    c.Alike (p.atHeight height) (p'.atHeight height) := by
  induction h with
  | last depth depth' => exact .last depth depth' height
  | step hne hpaired h h' _ ih =>
    exact .step hne hpaired (advance_atHeight h height) (advance_atHeight h' height) ih

theorem atDepth (h : c.Alike p p') (depth depth' : ℕ) :
    c.Alike (p.atDepth depth) (p'.atDepth depth') := by
  induction h with
  | last _ _ height => exact .last depth depth' height
  | step hne hpaired h h' _ ih =>
    obtain ⟨-, next, hnext, rfl⟩ := advance_eq_ok.mp h
    obtain ⟨-, next', hnext', rfl⟩ := advance_eq_ok.mp h'
    exact .step hne hpaired (advance_eq_ok.mpr ⟨rfl, next, hnext, rfl⟩)
      (advance_eq_ok.mpr ⟨rfl, next', hnext', rfl⟩) ih

theorem ahead_le (h : c.Alike p p') : c.last.ahead ≤ p.ahead := by
  induction h with
  | last => exact Nat.le_refl _
  | step hne _ h _ _ ih =>
    have hlt := ahead_lt_of_ne hne
    rw [after_of_ok h] at hlt
    exact Nat.le_trans ih (Nat.le_of_lt hlt)

/-- At the last place of the first text the second one is at its last place, too. -/
theorem exists_of_ahead_le (h : c.Alike p p') (hle : p.ahead ≤ c.last.ahead) :
    ∃ depth height, p' = (c.last'.atDepth depth).atHeight height := by
  cases h with
  | last depth depth' height => exact ⟨depth', height, rfl⟩
  | step hne _ h _ hrest =>
    have hlt := ahead_lt_of_ne hne
    rw [after_of_ok h] at hlt
    have hge := hrest.ahead_le
    omega

end Alike

/-- Two places from which the last ones are reached over tokens that belong together. -/
theorem alike_of_passes {ts ts' : List Token} {depth depth' : ℕ}
    (h : Passes p ts (c.last.atDepth depth)) (h' : Passes p' ts' (c.last'.atDepth depth'))
    (hpaired : List.Forall₂ c.Paired ts ts') (hend : ∀ t ∈ ts, t.kind ≠ .endOfInput)
    (hheight : p.height = p'.height) : c.Alike p p' := by
  induction hpaired generalizing p p' with
  | nil =>
    rw [h.eq_atHeight, h'.eq_atHeight, ← hheight]
    exact .last depth depth' p.height
  | cons hfirst _ ih =>
    obtain ⟨hne, hends⟩ := List.forall_mem_cons.mp hend
    obtain ⟨q, hadvance, hrest⟩ := h.of_cons
    obtain ⟨q', hadvance', hrest'⟩ := h'.of_cons
    obtain rfl := (advance_eq_ok.mp hadvance).1
    obtain rfl := (advance_eq_ok.mp hadvance').1
    refine .step hne hfirst hadvance hadvance' (ih hrest hrest' hends ?_)
    rw [height_eq_of_advance hadvance, hheight, height_eq_of_advance hadvance']

/-! ### Sequences of actions -/

section Actions

variable {α α' β β' : Type} {R : α → α' → Prop} {S : β → β' → Prop}

theorem Follows.bind_of_forward {x : Reads α} {x' : Reads α'} {f : α → Reads β}
    {f' : α' → Reads β'} (hx : c.Follows R x x' p p') (hforward : ∀ a, (f a).Forward)
    (hf : ∀ {a a' q q'}, R a a' → c.Alike q q' → c.Follows S (f a) (f' a') q q') :
    c.Follows S (x >>= f) (x' >>= f') p p' := by
  rcases hx with hlost | hagrees
  · refine .inl (Nat.lt_of_le_of_lt ?_ hlost)
    cases h : x p with
    | ok a q =>
      rw [after, bind_of_ok h, after_of_ok h]
      exact hforward a q
    | error e q => exact Nat.le_of_eq (by rw [after_of_error h, after_of_error (bind_of_error h)])
  · cases h : x p with
    | ok a q =>
      rw [h] at hagrees
      generalize h' : x' p' = r' at hagrees
      cases hagrees with
      | ok hR hq =>
        have hfollows := hf hR hq
        rw [Follows, after, bind_of_ok h, bind_of_ok h']
        exact hfollows
    | error e q =>
      rw [h] at hagrees
      generalize h' : x' p' = r' at hagrees
      refine .inr ?_
      rw [bind_of_error h]
      cases hagrees with
      | fault fault hq =>
        rw [bind_of_error h']
        exact .fault fault hq
      | tooDeep hpaired =>
        rw [bind_of_error h']
        exact .tooDeep hpaired
      | emptyInput =>
        rw [bind_of_error h']
        exact .emptyInput

/-- Sequences of actions that pass over tokens. -/
theorem Follows.bind {x : Reads α} {x' : Reads α'} {f : α → Reads β} {f' : α' → Reads β'}
    (hx : c.Follows R x x' p p') (horderly : ∀ a, (f a).Orderly)
    (hf : ∀ {a a' q q'}, R a a' → c.Alike q q' → c.Follows S (f a) (f' a') q q') :
    c.Follows S (x >>= f) (x' >>= f') p p' :=
  hx.bind_of_forward (fun a => (horderly a).forward) hf

/-- Only what the actions do at these two places matters. -/
theorem Follows.congr {x y : Reads α} {x' y' : Reads α'} (h : c.Follows R y y' p p')
    (hx : x p = y p) (hx' : x' p' = y' p') : c.Follows R x x' p p' := by
  rw [Follows, after, hx, hx']
  exact h

theorem follows_pure {a : α} {a' : α'} (h : R a a') (hp : c.Alike p p') :
    c.Follows R (pure a) (pure a') p p' :=
  .inr (.ok h hp)

theorem follows_look_bind {f : Token → Reads β} {f' : Token → Reads β'}
    (h : c.Follows S (f p.current) (f' p'.current) p p') :
    c.Follows S (look >>= f) (look >>= f') p p' := h

theorem follows_unexpected (expected : Expectation) (hp : c.Alike p p') :
    c.Follows R (unexpected expected) (unexpected expected) p p' :=
  .inr (.fault (.unexpected expected) hp)

theorem follows_tooDeep (hp : c.Alike p p') : c.Follows R tooDeep tooDeep p p' :=
  .inr (.tooDeep hp.paired)

/-- The counter does not matter for what is read. -/
theorem follows_counted {x : Reads α} {x' : Reads α'}
    (hx : ∀ {q q'}, c.Alike q q' → c.Follows R x x' q q') (hp : c.Alike p p') :
    c.Follows R (counted x) (counted x') p p' := by
  change c.Follows R (x >>= fun a => leave >>= fun _ => pure a)
    (x' >>= fun a => leave >>= fun _ => pure a) p.deeper p'.deeper
  refine (hx (hp.atDepth _ _)).bind_of_forward
    (fun _ => forward_leave.bind fun _ => forward_pure _) ?_
  intro a a' q q' ha hq
  exact .inr (.ok ha (hq.atDepth _ _))

theorem follows_lastHeight_bind {f : ℕ → Reads β} {f' : ℕ → Reads β'} (hp : c.Alike p p')
    (h : c.Follows S (f p.height) (f' p.height) p p') :
    c.Follows S (lastHeight >>= f) (lastHeight >>= f') p p' := by
  change c.Follows S (f p.height) (f' p'.height) p p'
  rwa [← hp.height_eq]

theorem follows_setHeight (height : ℕ) (hp : c.Alike p p') :
    c.Follows Eq (setHeight height) (setHeight height) p p' :=
  .inr (.ok rfl (hp.atHeight height))

/-- Nodes that are equally high are refused alike, at tokens that belong together. -/
theorem follows_nodeHeight (child : ℕ) {t t' : Token} (ht : c.Paired t t') (hp : c.Alike p p') :
    c.Follows Eq (nodeHeight child t.span.start) (nodeHeight child t'.span.start) p p' := by
  rw [nodeHeight, nodeHeight]
  by_cases h : child + 1 ≤ maxNesting
  · rw [if_pos h, if_pos h]
    exact follows_pure rfl hp
  · rw [if_neg h, if_neg h]
    exact .inr (.tooDeep ht)

theorem follows_wrap {t t' : Token} (ht : c.Paired t t') (hp : c.Alike p p') :
    c.Follows Eq (wrap t.span.start) (wrap t'.span.start) p p' := by
  refine follows_lastHeight_bind hp ?_
  refine (follows_nodeHeight p.height ht hp).bind (fun _ => orderly_setHeight _) ?_
  rintro height _ q q' rfl hq
  exact follows_setHeight height hq

theorem Follows.note {x : Reads (α × ℕ)} {x' : Reads (α' × ℕ)}
    (hx : c.Follows (EquallyHigh R) x x' p p') :
    c.Follows R (x >>= Parser.note) (x' >>= Parser.note) p p' := by
  refine hx.bind orderly_note ?_
  rintro ⟨a, height⟩ ⟨a', _⟩ q q' ⟨ha, rfl⟩ hq
  exact .inr (.ok ha (hq.atHeight height))

/-! ### Single tokens -/

theorem follows_advance (hne : p.current.kind ≠ .endOfInput) (hp : c.Alike p p') :
    c.Follows c.Paired advance advance p p' := by
  cases hp with
  | last => exact .inl (ahead_lt_of_ne hne)
  | step _ hpaired h h' hrest =>
    refine .inr ?_
    rw [h, h']
    exact .ok hpaired hrest

variable {kind : Token.Kind}

theorem follows_eat? (hplain : Plain spelling kind) (hne : kind ≠ .endOfInput) (hp : c.Alike p p') :
    c.Follows (Option.Rel c.Paired) (eat? kind) (eat? kind) p p' := by
  have hiff := kind_eq_iff hplain hp.paired
  refine follows_look_bind ?_
  by_cases h : p.current.kind = kind
  · rw [if_pos h, if_pos (hiff.mp h)]
    refine (follows_advance (h ▸ hne) hp).bind (fun _ => orderly_pure _) ?_
    intro t t' q q' ht hq
    exact follows_pure (.some ht) hq
  · rw [if_neg h, if_neg fun h' => h (hiff.mpr h')]
    exact follows_pure .none hp

theorem follows_expect (hplain : Plain spelling kind) (hne : kind ≠ .endOfInput)
    (hp : c.Alike p p') : c.Follows c.Paired (expect kind) (expect kind) p p' := by
  refine (follows_eat? hplain hne hp).bind (fun found => ?_) ?_
  · cases found with
    | none => exact orderly_unexpected fun hkind => hne (Expectation.token.inj hkind)
    | some t => exact orderly_pure _
  · intro found found' q q' hfound hq
    cases hfound with
    | none => exact follows_unexpected _ hq
    | some ht => exact follows_pure ht hq

/-! ### Whole texts -/

theorem follows_whole {x x' : Reads α} {R : α → α → Prop} (hend : Plain spelling .endOfInput)
    (hforward : x.Forward)
    (hx : ∀ {q q'}, c.Alike q q' → c.Follows R x x' q q') (hp : c.Alike p p') :
    c.Follows R (whole x) (whole x') p p' := by
  have hexpectEnd : expectEnd.Forward := by
    refine forward_look.bind fun token => ?_
    split
    · exact forward_pure _
    · exact forward_unexpected _
  have hempty : c.Follows Eq rejectEmpty rejectEmpty p p' := by
    have hiff := kind_eq_iff hend hp.paired
    refine follows_look_bind ?_
    by_cases h : p.current.kind = .endOfInput
    · rw [if_pos h, if_pos (hiff.mp h)]
      exact .inr .emptyInput
    · rw [if_neg h, if_neg fun h' => h (hiff.mpr h')]
      exact follows_pure rfl hp
  refine hempty.bind_of_forward (fun _ => ?_) ?_
  · exact hforward.bind fun _ => hexpectEnd.bind fun _ => forward_pure _
  intro _ _ q q' _ hq
  refine (hx hq).bind_of_forward (fun _ => hexpectEnd.bind fun _ => forward_pure _) ?_
  intro a a' r r' ha hr
  have hlast : c.Follows Eq expectEnd expectEnd r r' := by
    have hiff := kind_eq_iff hend hr.paired
    refine follows_look_bind ?_
    by_cases h : r.current.kind = .endOfInput
    · rw [if_pos h, if_pos (hiff.mp h)]
      exact follows_pure rfl hr
    · rw [if_neg h, if_neg fun h' => h (hiff.mpr h')]
      exact follows_unexpected _ hr
  refine hlast.bind_of_forward (fun _ => forward_pure _) ?_
  intro _ _ s s' _ hs
  exact follows_pure ha hs

end Actions

end Comparison

end SqlPredicates
