import SqlPredicates.Parser
import SqlPredicates.Proofs.Token.Items

/-!
# What an action reads

Every action that succeeds has passed over some tokens, one after the other. `Parser.Passes p ts q`
says that `q` is the place after `p` and the tokens `ts`; grammars are related to readers through
it. The end of the input repeats itself for ever, so a place can be passed at the end as well; what
a grammar accepts never contains it, and `Passes.length_le` bounds the number of all other tokens.

The counter of readings under way is no part of a place: `Passes` keeps it, and does not depend on
it. Nor does it depend on the height that is noted, which may be any at both ends: tokens are passed
over alike whatever has been measured before, and a reading notes the height of what it has read.

## Main definitions

* `Reads.after` — the place where an action ends
* `Reads.Yields` — reading something unless it is too deep
* `Parser.Passes` — passing over tokens
* `Parser.atDepth`, `Parser.deeper`, `Parser.shallower` — changes of the counter
* `Parser.atHeight`, `Parser.Measured` — another height noted, and the height of a node
* `BeginsWith` — a text that begins with given tokens

## Main results

* `Reads.bind_eq_ok`, `Reads.bind_eq_error` — where a sequence of actions succeeds or fails
* `Parser.advance_eq_ok`, `Parser.eat?_eq_ok`, `Parser.expect_eq_ok` — reading one token
* `Parser.whole_eq_error`, `Parser.run_eq_error` — how the reading of a whole text fails
* `Parser.Passes.length_le` — tokens that are not the end of the input use up what remains
* `Parser.mem_tokenize_of_passes` — what is passed over from the start are tokens of the text
* `Parser.exists_passes_of_beginsWith`, `Parser.beginsWith_of_passes` — what is passed over from the
  start is the beginning of the text
* `Parser.tokenize_of_passes` — what is passed over from the start to the end is the whole text
-/

namespace SqlPredicates

/-! ### Sequences of actions -/

namespace Reads

variable {α β : Type} {x : Reads α} {f : α → Reads β} {p q r : Parser}

theorem bind_eq_ok {b : β} :
    (x >>= f) p = .ok b r ↔ ∃ a q, x p = .ok a q ∧ f a q = .ok b r := by
  change EStateM.bind x f p = _ ↔ _
  rw [EStateM.bind]
  cases x p with
  | ok a q => simp
  | error e q => simp

theorem bind_of_ok {a : α} (h : x p = .ok a q) : (x >>= f) p = f a q := by
  change EStateM.bind x f p = _
  rw [EStateM.bind, h]

theorem bind_of_error {e : SyntaxError} (h : x p = .error e q) : (x >>= f) p = .error e q := by
  change EStateM.bind x f p = _
  rw [EStateM.bind, h]

theorem bind_eq_error {e : SyntaxError} :
    (x >>= f) p = .error e r ↔ x p = .error e r ∨ ∃ a q, x p = .ok a q ∧ f a q = .error e r := by
  cases h : x p with
  | ok a q => simp [bind_of_ok h]
  | error e' q => simp [bind_of_error h]

/-- A sequence of actions is the same as another one if they go on alike. -/
theorem bind_congr {g : α → Reads β} (h : ∀ a q, x p = .ok a q → f a q = g a q) :
    (x >>= f) p = (x >>= g) p := by
  cases hx : x p with
  | ok a q => rw [bind_of_ok hx, bind_of_ok hx, h a q hx]
  | error e q => rw [bind_of_error hx, bind_of_error hx]

/-- A sequence of actions is the same as another one if they begin alike. -/
theorem bind_congr_left {y : Reads α} (h : x p = y p) : (x >>= f) p = (y >>= f) p := by
  cases hx : x p with
  | ok a q => rw [bind_of_ok hx, bind_of_ok (h ▸ hx)]
  | error e q => rw [bind_of_error hx, bind_of_error (h ▸ hx)]

theorem pure_eq_ok {a b : α} : (pure a : Reads α) p = .ok b q ↔ a = b ∧ p = q := by
  change (EStateM.Result.ok a p : EStateM.Result SyntaxError Parser α) = .ok b q ↔ _
  rw [EStateM.Result.ok.injEq]

/-- The place where an action ends, also if it fails. -/
def after (x : Reads α) (p : Parser) : Parser :=
  match x p with
  | .ok _ q => q
  | .error _ q => q

theorem after_of_ok {a : α} (h : x p = .ok a q) : x.after p = q := by
  rw [after, h]

theorem after_of_error {e : SyntaxError} (h : x p = .error e q) :
    x.after p = q := by
  rw [after, h]

/-- The action reads `a` up to `q`, or it fails because the tree is too deep, which happens only if
the tree is tall. -/
def Yields (x : Reads α) (p : Parser) (a : α) (q : Parser) (tall : Prop) : Prop :=
  x p = .ok a q ∨ tall ∧ ∃ offset q', x p = .error (.nestingTooDeep offset) q'

namespace Yields

variable {a : α} {b : β} {tall tall' : Prop}

theorem mono (h : Yields x p a q tall) (htall : tall → tall') : Yields x p a q tall' :=
  h.imp_right fun h => ⟨htall h.1, h.2⟩

theorem bind (hx : Yields x p a q tall) (hf : Yields (f a) q b r tall) :
    Yields (x >>= f) p b r tall := by
  rcases hx with hx | ⟨htall, offset, q', hx⟩
  · rw [Yields, bind_of_ok hx]
    exact hf
  · exact .inr ⟨htall, offset, q', bind_of_error hx⟩

theorem bind_of_ok (hx : x p = .ok a q) (hf : Yields (f a) q b r tall) :
    Yields (x >>= f) p b r tall :=
  bind (.inl hx) hf

end Yields

end Reads

namespace Parser

variable {p q r : Parser} {t : Token} {kind : Token.Kind}

/-! ### Single tokens -/

theorem advance_eq_ok : advance p = .ok t q ↔
    t = p.current ∧ ∃ next, firstItem p.length p.rest = .ok next ∧
      q = { p with current := next, rest := p.rest.tail } := by
  rw [advance]
  cases firstItem p.length p.rest with
  | ok next => simp [eq_comm]
  | error e => simp

/-- Moving on fails if what follows is an error. The current token stays. -/
theorem advance_eq_error {e : SyntaxError} : advance p = .error e q ↔
    firstItem p.length p.rest = .error e ∧ q = { p with rest := p.rest.tail } := by
  rw [advance]
  cases firstItem p.length p.rest with
  | ok next => simp
  | error e' => simp [eq_comm]

theorem look_bind {α : Type} (f : Token → Reads α) (p : Parser) :
    (look >>= f) p = f p.current p := rfl

theorem remaining_bind {α : Type} (f : ℕ → Reads α) (p : Parser) :
    (remaining >>= f) p = f (p.rest.length + 1) p := rfl

theorem eat?_eq_ok {found : Option Token} : eat? kind p = .ok found q ↔
    (p.current.kind = kind ∧ ∃ t, found = some t ∧ advance p = .ok t q) ∨
      (p.current.kind ≠ kind ∧ found = none ∧ p = q) := by
  rw [eat?, look_bind]
  by_cases h : p.current.kind = kind
  · simp only [h, if_true, Reads.bind_eq_ok, Reads.pure_eq_ok, ne_eq, not_true_eq_false, false_and,
      or_false, true_and]
    constructor
    · rintro ⟨t, r, hadvance, rfl, rfl⟩
      exact ⟨t, rfl, hadvance⟩
    · rintro ⟨t, rfl, hadvance⟩
      exact ⟨t, q, hadvance, rfl, rfl⟩
  · simp [h, Reads.pure_eq_ok, eq_comm]

theorem eat?_of_ne (h : p.current.kind ≠ kind) : eat? kind p = .ok none p :=
  eat?_eq_ok.mpr (.inr ⟨h, rfl, rfl⟩)

theorem eat?_of_advance (h : advance p = .ok t q) (hk : t.kind = kind) :
    eat? kind p = .ok (some t) q :=
  eat?_eq_ok.mpr (.inl ⟨(advance_eq_ok.mp h).1 ▸ hk, t, rfl, h⟩)

theorem expect_eq_ok : expect kind p = .ok t q ↔ t.kind = kind ∧ advance p = .ok t q := by
  rw [expect, Reads.bind_eq_ok]
  constructor
  · rintro ⟨found, r, hfound, h⟩
    rcases eat?_eq_ok.mp hfound with ⟨hk, t', rfl, hadvance⟩ | ⟨-, rfl, rfl⟩
    · obtain ⟨rfl, rfl⟩ := Reads.pure_eq_ok.mp h
      exact ⟨(advance_eq_ok.mp hadvance).1 ▸ hk, hadvance⟩
    · cases h
  · rintro ⟨hk, hadvance⟩
    exact ⟨some t, q, eat?_of_advance hadvance hk, rfl⟩

/-! ### The counter and the note -/

/-- The place with another number of readings under way. -/
def atDepth (depth : ℕ) (p : Parser) : Parser := { p with depth := depth }

/-- The place with one more reading under way. -/
def deeper (p : Parser) : Parser := { p with depth := p.depth + 1 }

/-- The place with one reading less under way. -/
def shallower (p : Parser) : Parser := { p with depth := p.depth - 1 }

theorem enter_eq (p : Parser) : enter p = .ok () p.deeper := rfl

theorem leave_eq (p : Parser) : leave p = .ok () p.shallower := rfl

/-- The place with another height noted. -/
def atHeight (height : ℕ) (p : Parser) : Parser := { p with height := height }

@[simp] theorem current_atHeight (height : ℕ) (p : Parser) :
    (p.atHeight height).current = p.current := rfl

@[simp] theorem rest_atHeight (height : ℕ) (p : Parser) : (p.atHeight height).rest = p.rest := rfl

@[simp] theorem depth_atHeight (height : ℕ) (p : Parser) :
    (p.atHeight height).depth = p.depth := rfl

@[simp] theorem height_atHeight (height : ℕ) (p : Parser) :
    (p.atHeight height).height = height := rfl

theorem setHeight_eq (height : ℕ) (p : Parser) : setHeight height p = .ok () (p.atHeight height) :=
  rfl

theorem advance_atHeight (h : advance p = .ok t q) (height : ℕ) :
    advance (p.atHeight height) = .ok t (q.atHeight height) := by
  obtain ⟨rfl, next, hnext, rfl⟩ := advance_eq_ok.mp h
  exact advance_eq_ok.mpr ⟨rfl, next, hnext, rfl⟩

theorem height_eq_of_advance (h : advance p = .ok t q) : q.height = p.height := by
  obtain ⟨-, next, -, rfl⟩ := advance_eq_ok.mp h
  rfl

theorem lastHeight_bind {α : Type} (f : ℕ → Reads α) (p : Parser) :
    (lastHeight >>= f) p = f p.height p := rfl

theorem yields_nodeHeight {child offset : ℕ} (p : Parser) :
    Reads.Yields (nodeHeight child offset) p (child + 1) p (maxNesting < child + 1) := by
  rcases Nat.lt_or_ge maxNesting (child + 1) with h | h
  · refine .inr ⟨h, offset, p, ?_⟩
    rw [nodeHeight, if_neg (Nat.not_le_of_lt h)]
    rfl
  · refine .inl ?_
    rw [nodeHeight, if_pos h]
    rfl

theorem yields_wrap {offset : ℕ} (p : Parser) :
    Reads.Yields (wrap offset) p () (p.atHeight (p.height + 1)) (maxNesting < p.height + 1) :=
  (yields_nodeHeight p).bind (.inl rfl)

theorem nodeHeight_bind_eq_ok {α : Type} {f : ℕ → Reads α} {child offset : ℕ} {a : α} :
    (nodeHeight child offset >>= f) p = .ok a q ↔
      child + 1 ≤ maxNesting ∧ f (child + 1) p = .ok a q := by
  rw [nodeHeight]
  split
  · next h => exact (and_iff_right h).symm
  · next h => exact iff_of_false (fun hc => by cases hc) fun hc => h hc.1

theorem wrap_bind_eq_ok {α : Type} {f : Unit → Reads α} {offset : ℕ} {a : α} :
    (wrap offset >>= f) p = .ok a q ↔
      p.height + 1 ≤ maxNesting ∧ f () (p.atHeight (p.height + 1)) = .ok a q := by
  rw [wrap, bind_assoc, lastHeight_bind, bind_assoc, nodeHeight_bind_eq_ok]
  rfl

/-- A node of this height has been read last, and it is not too high. -/
structure Measured (p : Parser) (height : ℕ) : Prop where
  height_eq : p.height = height
  height_le : height ≤ maxNesting

theorem measured_atHeight (p : Parser) {height : ℕ} (h : height ≤ maxNesting) :
    (p.atHeight height).Measured height :=
  ⟨rfl, h⟩

/-! ### Passing over tokens -/

/-- `q` is the place after `p` and the tokens `ts`. -/
inductive Passes : Parser → List Token → Parser → Prop
  | nil (p : Parser) (height : ℕ) : Passes p [] (p.atHeight height)
  | cons {p q r : Parser} {t : Token} {ts : List Token} (first : advance p = .ok t q)
      (rest : Passes q ts r) : Passes p (t :: ts) r

namespace Passes

theorem refl (p : Parser) : Passes p [] p := .nil p p.height

theorem single (h : advance p = .ok t q) : Passes p [t] q := .cons h (.refl q)

/-- What has been noted before does not matter. -/
theorem from_atHeight {ts : List Token} (h : Passes p ts q) (height : ℕ) :
    Passes (p.atHeight height) ts q := by
  induction h with
  | nil p height' => exact .nil (p.atHeight height) height'
  | cons first _ ih => exact .cons (advance_atHeight first height) ih

/-- Any height may be noted at the end. -/
theorem to_atHeight {ts : List Token} (h : Passes p ts q) (height : ℕ) :
    Passes p ts (q.atHeight height) := by
  induction h with
  | nil p _ => exact .nil p height
  | cons first _ ih => exact .cons first ih

theorem append {ts us : List Token} (h : Passes p ts q) (h' : Passes q us r) :
    Passes p (ts ++ us) r := by
  induction h with
  | nil p _ => exact h'.from_atHeight p.height
  | cons first _ ih => exact .cons first (ih h')

theorem of_append {ts us : List Token} (h : Passes p (ts ++ us) r) :
    ∃ q, Passes p ts q ∧ Passes q us r := by
  induction ts generalizing p with
  | nil => exact ⟨p, .refl p, h⟩
  | cons t ts ih =>
    cases h with
    | cons first rest =>
      obtain ⟨q, hts, hus⟩ := ih rest
      exact ⟨q, .cons first hts, hus⟩

theorem of_cons {ts : List Token} (h : Passes p (t :: ts) r) :
    ∃ q, advance p = .ok t q ∧ Passes q ts r := by
  cases h with
  | cons first rest => exact ⟨_, first, rest⟩

/-- One token is passed over by moving on, which keeps what is noted. -/
theorem advance_eq (h : Passes p [t] q) (height : ℕ) :
    advance (p.atHeight height) = .ok t (q.atHeight height) := by
  obtain ⟨r, hadvance, ⟨⟩⟩ := h.of_cons
  exact advance_atHeight hadvance height

theorem eq_atHeight (h : Passes p [] q) : p = q.atHeight p.height := by
  cases h
  rfl

theorem current_eq {ts : List Token} (h : Passes p (t :: ts) r) : p.current = t := by
  obtain ⟨q, hq, -⟩ := h.of_cons
  exact (advance_eq_ok.mp hq).1.symm

theorem depth_eq {ts : List Token} (h : Passes p ts q) : q.depth = p.depth := by
  induction h with
  | nil => rfl
  | cons first _ ih =>
    obtain ⟨-, next, -, rfl⟩ := advance_eq_ok.mp first
    exact ih

theorem atDepth {ts : List Token} (h : Passes p ts q) (depth : ℕ) :
    Passes (p.atDepth depth) ts (q.atDepth depth) := by
  induction h with
  | nil => exact .nil _ _
  | cons first _ ih =>
    obtain ⟨rfl, next, hnext, rfl⟩ := advance_eq_ok.mp first
    exact .cons (advance_eq_ok.mpr ⟨rfl, next, hnext, rfl⟩) ih

theorem deeper {ts : List Token} (h : Passes p ts q) : Passes p.deeper ts q.deeper := by
  have hq : q.deeper = q.atDepth (p.depth + 1) := by
    rw [← h.depth_eq]
    rfl
  rw [hq]
  exact h.atDepth _

theorem shallower {ts : List Token} (h : Passes p ts q) : Passes p.shallower ts q.shallower := by
  have hq : q.shallower = q.atDepth (p.depth - 1) := by
    rw [← h.depth_eq]
    rfl
  rw [hq]
  exact h.atDepth _

/-- Tokens that are not the end of the input use up what remains. Only the first of them need not be
counted, since the current token is no part of the rest. -/
theorem length_le {ts : List Token} (h : Passes p ts q) (hend : ∀ t ∈ ts, t.kind ≠ .endOfInput) :
    q.rest.length + ts.length ≤ p.rest.length + 1 := by
  induction h with
  | nil p => simp
  | @cons p q r t ts first rest ih =>
    have ih := ih fun t ht => hend t (List.mem_cons_of_mem _ ht)
    obtain ⟨-, next, hnext, rfl⟩ := advance_eq_ok.mp first
    cases hrest : p.rest with
    | nil =>
      rw [hrest] at hnext
      cases hnext
      -- the place is now at the end of the input, which none of the tokens is
      cases rest with
      | nil => simp [hrest]
      | @cons _ _ _ u us first' _ =>
        have hu := hend u (List.mem_cons_of_mem _ List.mem_cons_self)
        rw [(advance_eq_ok.mp first').1] at hu
        exact absurd rfl hu
    | cons item items =>
      simp only [hrest, List.tail_cons] at ih
      simp only [List.length_cons]
      omega

/-- A token that is passed over is the current one or comes later in the list. -/
theorem mem {ts : List Token} (h : Passes p ts q) (ht : t ∈ ts) (hend : t.kind ≠ .endOfInput) :
    t = p.current ∨ .ok t ∈ p.rest := by
  induction h with
  | nil => cases ht
  | @cons p q r u ts first _ ih =>
    obtain ⟨rfl, next, hnext, rfl⟩ := advance_eq_ok.mp first
    rcases List.mem_cons.mp ht with rfl | ht
    · exact .inl rfl
    refine .inr ?_
    cases hrest : p.rest with
    | nil =>
      rw [hrest] at hnext
      cases hnext
      rcases ih ht with rfl | hmem
      · exact absurd rfl hend
      · simp [hrest] at hmem
    | cons item items =>
      rw [hrest] at hnext
      change item = .ok next at hnext
      subst hnext
      rcases ih ht with rfl | hmem
      · exact List.mem_cons_self
      · exact List.mem_cons_of_mem _ (by simpa [hrest] using hmem)

end Passes

/-! ### Whole texts -/

theorem rejectEmpty_eq_ok : rejectEmpty p = .ok () q ↔ p.current.kind ≠ .endOfInput ∧ p = q := by
  rw [rejectEmpty, look_bind]
  by_cases h : p.current.kind = .endOfInput
  · rw [if_pos h]
    exact iff_of_false (fun hc => by cases hc) fun hc => hc.1 h
  · simp [h, Reads.pure_eq_ok]

theorem expectEnd_eq_ok : expectEnd p = .ok () q ↔ p.current.kind = .endOfInput ∧ p = q := by
  rw [expectEnd, look_bind]
  by_cases h : p.current.kind = .endOfInput
  · simp [h, Reads.pure_eq_ok]
  · rw [if_neg h]
    exact iff_of_false (fun hc => by cases hc) fun hc => h hc.1

theorem rejectEmpty_eq_error (h : p.current.kind = .endOfInput) :
    rejectEmpty p = .error .emptyInput p := by
  rw [rejectEmpty, look_bind, if_pos h]
  rfl

theorem expectEnd_eq_error (h : p.current.kind ≠ .endOfInput) :
    expectEnd p =
      .error (.unexpected p.current.span.start (.token .endOfInput) p.current.kind) p := by
  rw [expectEnd, look_bind, if_neg h]
  rfl

theorem of_whole_eq_ok {α : Type} {reads : Reads α} {a : α} (h : whole reads p = .ok a q) :
    reads p = .ok a q ∧ q.current.kind = .endOfInput := by
  obtain ⟨⟨⟩, p₁, hfirst, h⟩ := Reads.bind_eq_ok.mp h
  obtain ⟨-, rfl⟩ := rejectEmpty_eq_ok.mp hfirst
  obtain ⟨b, p₂, hreads, h⟩ := Reads.bind_eq_ok.mp h
  obtain ⟨⟨⟩, p₃, hlast, h⟩ := Reads.bind_eq_ok.mp h
  obtain ⟨hend, rfl⟩ := expectEnd_eq_ok.mp hlast
  obtain ⟨rfl, rfl⟩ := Reads.pure_eq_ok.mp h
  exact ⟨hreads, hend⟩

/-- A whole text is refused because there is nothing to read, as what is read refuses it, or because
something follows. -/
theorem whole_eq_error {α : Type} {reads : Reads α} {e : SyntaxError}
    (h : whole reads p = .error e q) :
    (p.current.kind = .endOfInput ∧ e = .emptyInput ∧ q = p) ∨ reads p = .error e q ∨
      ∃ a, reads p = .ok a q ∧
        e = .unexpected q.current.span.start (.token .endOfInput) q.current.kind := by
  by_cases hempty : p.current.kind = .endOfInput
  · rw [whole, Reads.bind_of_error (rejectEmpty_eq_error hempty)] at h
    cases h
    exact .inl ⟨hempty, rfl, rfl⟩
  rw [whole, Reads.bind_of_ok (rejectEmpty_eq_ok.mpr ⟨hempty, rfl⟩)] at h
  rcases Reads.bind_eq_error.mp h with hreads | ⟨a, r, hreads, h⟩
  · exact .inr (.inl hreads)
  · by_cases hlast : r.current.kind = .endOfInput
    · rw [Reads.bind_of_ok (expectEnd_eq_ok.mpr ⟨hlast, rfl⟩)] at h
      cases h
    · rw [Reads.bind_of_error (expectEnd_eq_error hlast)] at h
      cases h
      exact .inr (.inr ⟨a, hreads, rfl⟩)

theorem whole_congr {α : Type} {x y : Reads α} (h : x p = y p) : whole x p = whole y p := by
  refine Reads.bind_congr fun _ q hfirst => ?_
  obtain ⟨-, rfl⟩ := rejectEmpty_eq_ok.mp hfirst
  exact Reads.bind_congr_left h

theorem yields_whole {α : Type} {reads : Reads α} {a : α} {tall : Prop}
    (h : Reads.Yields reads p a q tall) (hfirst : p.current.kind ≠ .endOfInput)
    (hlast : q.current.kind = .endOfInput) : Reads.Yields (whole reads) p a q tall :=
  .bind_of_ok (rejectEmpty_eq_ok.mpr ⟨hfirst, rfl⟩)
    (h.bind (.bind_of_ok (expectEnd_eq_ok.mpr ⟨hlast, rfl⟩) (.inl rfl)))

/-- A place at the first of some tokens, after which the input ends. -/
theorem passes_tokens (t : Token) (ts : List Token) (length depth height : ℕ) :
    Passes ⟨t, ts.map .ok, length, depth, height⟩ (t :: ts)
      ⟨⟨.endOfInput, Span.point length⟩, [], length, depth, height⟩ := by
  induction ts generalizing t with
  | nil => exact .single rfl
  | cons u us ih => exact .cons rfl (ih u)

theorem run_eq_ok {α : Type} {reads : Reads α} {text : String} {a : α} :
    run reads text = .ok a ↔ ∃ p q, ofText text = .ok p ∧ reads p = .ok a q := by
  rw [run]
  cases ofText text with
  | error e => simp
  | ok p =>
    cases hreads : reads p with
    | ok b q => simp [hreads]
    | error e q => simp [hreads]

theorem run_eq_error {α : Type} {reads : Reads α} {text : String} {e : SyntaxError} :
    run reads text = .error e ↔
      ofText text = .error e ∨ ∃ p q, ofText text = .ok p ∧ reads p = .error e q := by
  rw [run]
  cases ofText text with
  | error e => simp
  | ok p =>
    cases hreads : reads p with
    | ok b q => simp [hreads]
    | error e q => simp [hreads]

theorem run_of_yields {α : Type} {reads : Reads α} {text : String} {a : α} {tall : Prop}
    (hp : ofText text = .ok p) (h : Reads.Yields reads p a q tall) :
    run reads text = .ok a ∨ tall ∧ ∃ offset, run reads text = .error (.nestingTooDeep offset) := by
  rcases h with h | ⟨htall, offset, q', h⟩
  · exact .inl (run_eq_ok.mpr ⟨p, q, hp, h⟩)
  · refine .inr ⟨htall, offset, ?_⟩
    rw [run, hp]
    simp only [h]

theorem depth_of_ofText {text : String} (h : ofText text = .ok p) : p.depth = 0 := by
  rw [ofText] at h
  split at h
  · cases h
    rfl
  · cases h

theorem height_of_ofText {text : String} (h : ofText text = .ok p) : p.height = 0 := by
  rw [ofText] at h
  split at h
  · cases h
    rfl
  · cases h

/-- A text that does not begin with a token begins with the error that ends its tokens. -/
theorem mem_tokenize_of_ofText_eq_error {text : String} {e : SyntaxError}
    (h : ofText text = .error e) : .error e ∈ tokenize text := by
  rw [ofText] at h
  cases hitems : tokenize text with
  | nil =>
    rw [hitems] at h
    cases h
  | cons item items =>
    rw [hitems] at h
    cases item with
    | ok t => cases h
    | error e' =>
      cases h
      exact List.mem_cons_self

theorem mem_tokenize_of_mem_rest {text : String} {item : TokenItem} (hp : ofText text = .ok p)
    (h : item ∈ p.rest) : item ∈ tokenize text := by
  rw [ofText] at hp
  split at hp
  · cases hp
    exact List.mem_of_mem_tail h
  · cases hp

theorem mem_tokenize_of_passes {text : String} {ts : List Token} (hp : ofText text = .ok p)
    (h : Passes p ts q) (ht : t ∈ ts) (hend : t.kind ≠ .endOfInput) : .ok t ∈ tokenize text := by
  rw [ofText] at hp
  cases hitems : tokenize text with
  | nil =>
    rw [hitems] at hp
    cases hp
    rcases h.mem ht hend with rfl | hmem
    · exact absurd rfl hend
    · cases hmem
  | cons item items =>
    rw [hitems] at hp
    cases item with
    | error e => cases hp
    | ok first =>
      cases hp
      rcases h.mem ht hend with rfl | hmem
      · exact List.mem_cons_self
      · exact List.mem_cons_of_mem _ hmem

end Parser

/-! ### Texts that begin with given tokens -/

/-- The end of a text, which counts as the token after the last one. -/
def endToken (text : String) : Token := ⟨.endOfInput, Span.point (Text.bytes text.toList)⟩

/-- The text begins with these tokens, of which the last one may be its end. What follows them need
not even consist of tokens. -/
def BeginsWith (text : String) (ts : List Token) : Prop :=
  ts.map .ok <+: tokenize text ++ [.ok (endToken text)]

namespace Parser

variable {p q : Parser} {t : Token} {ts : List Token} {text : String}

/-- The current token, the items after it, and the end of the input. -/
def upcoming (p : Parser) : List TokenItem :=
  .ok p.current :: (p.rest ++ [.ok ⟨.endOfInput, Span.point p.length⟩])

theorem exists_passes_of_upcoming (h : (ts ++ [t]).map .ok <+: p.upcoming) :
    ∃ q, Passes p ts q ∧ q.current = t := by
  induction ts generalizing p with
  | nil =>
    obtain ⟨hcurrent, -⟩ := List.cons_prefix_cons.mp h
    cases hcurrent
    exact ⟨p, .refl p, rfl⟩
  | cons u us ih =>
    obtain ⟨hcurrent, hrest⟩ := List.cons_prefix_cons.mp h
    cases hcurrent
    obtain ⟨current, rest, length, depth, height⟩ := p
    cases rest with
    | nil =>
      have hadvance : advance ⟨current, [], length, depth, height⟩ =
          .ok current ⟨⟨.endOfInput, Span.point length⟩, [], length, depth, height⟩ := rfl
      obtain ⟨q, hq, hcurrent⟩ := ih
        (p := ⟨⟨.endOfInput, Span.point length⟩, [], length, depth, height⟩) (hrest.trans ⟨_, rfl⟩)
      exact ⟨q, .cons hadvance hq, hcurrent⟩
    | cons item items =>
      -- the next item is a token, since the text goes on with one
      obtain ⟨next, rfl⟩ : ∃ next, item = .ok next := by
        cases us <;> exact ⟨_, (List.cons_prefix_cons.mp hrest).1.symm⟩
      have hadvance : advance ⟨current, .ok next :: items, length, depth, height⟩ =
          .ok current ⟨next, items, length, depth, height⟩ := rfl
      obtain ⟨q, hq, hcurrent⟩ := ih (p := ⟨next, items, length, depth, height⟩) hrest
      exact ⟨q, .cons hadvance hq, hcurrent⟩

theorem upcoming_of_passes (h : Passes p ts q) (hend : ∀ t ∈ ts, t.kind ≠ .endOfInput) :
    (ts ++ [q.current]).map .ok <+: p.upcoming := by
  induction h with
  | nil p => exact List.cons_prefix_cons.mpr ⟨rfl, List.nil_prefix⟩
  | @cons p q r t ts first rest ih =>
    obtain ⟨rfl, next, hnext, rfl⟩ := advance_eq_ok.mp first
    refine List.cons_prefix_cons.mpr ⟨rfl, ?_⟩
    have ih := ih fun t ht => hend t (List.mem_cons_of_mem _ ht)
    cases hrest : p.rest with
    | nil =>
      rw [hrest] at hnext
      cases hnext
      -- the place is at the end of the input, so no token has been passed after that
      cases rest with
      | nil => exact List.prefix_rfl
      | @cons _ _ _ u us first' _ =>
        have hu := hend u (List.mem_cons_of_mem _ List.mem_cons_self)
        rw [(advance_eq_ok.mp first').1] at hu
        exact absurd rfl hu
    | cons item items =>
      rw [hrest] at hnext
      change item = .ok next at hnext
      subst hnext
      simpa [upcoming, hrest] using ih

/-- A text that begins with some tokens is read from its start up to the last of them. -/
theorem exists_passes_of_beginsWith (h : BeginsWith text (ts ++ [t])) :
    ∃ p q, ofText text = .ok p ∧ Passes p ts q ∧ q.current = t := by
  rw [BeginsWith] at h
  cases hitems : tokenize text with
  | nil =>
    rw [hitems] at h
    have hp : ofText text = .ok ⟨endToken text, [], Text.bytes text.toList, 0, 0⟩ := by
      rw [ofText, hitems]
      rfl
    obtain ⟨q, hq, hcurrent⟩ := exists_passes_of_upcoming
      (p := ⟨endToken text, [], Text.bytes text.toList, 0, 0⟩) (h.trans ⟨_, rfl⟩)
    exact ⟨_, q, hp, hq, hcurrent⟩
  | cons item items =>
    rw [hitems] at h
    obtain ⟨first, rfl⟩ : ∃ first, item = .ok first := by
      cases ts <;> exact ⟨_, (List.cons_prefix_cons.mp h).1.symm⟩
    have hp : ofText text = .ok ⟨first, items, Text.bytes text.toList, 0, 0⟩ := by
      rw [ofText, hitems]
      rfl
    obtain ⟨q, hq, hcurrent⟩ := exists_passes_of_upcoming
      (p := ⟨first, items, Text.bytes text.toList, 0, 0⟩) h
    exact ⟨_, q, hp, hq, hcurrent⟩

/-- What is passed over from the start, and the token after it, are the beginning of the text. -/
theorem beginsWith_of_passes (hp : ofText text = .ok p) (h : Passes p ts q)
    (hend : ∀ t ∈ ts, t.kind ≠ .endOfInput) : BeginsWith text (ts ++ [q.current]) := by
  have hupcoming := upcoming_of_passes h hend
  rw [BeginsWith]
  rw [ofText] at hp
  cases hitems : tokenize text with
  | nil =>
    rw [hitems] at hp
    cases hp
    cases h with
    | nil => exact List.prefix_rfl
    | @cons _ _ _ u us first _ =>
      have hu := hend u List.mem_cons_self
      rw [(advance_eq_ok.mp first).1] at hu
      exact absurd rfl hu
  | cons item items =>
    rw [hitems] at hp
    cases item with
    | error e => cases hp
    | ok first =>
      cases hp
      exact hupcoming

/-- What is passed over from the start to the end of the input is the whole text. -/
theorem tokenize_of_passes (hp : ofText text = .ok p) (h : Passes p ts q)
    (hts : ∀ t ∈ ts, t.kind ≠ .endOfInput) (hq : q.current.kind = .endOfInput) :
    tokenize text = ts.map .ok := by
  have hbegins := beginsWith_of_passes hp h hts
  rw [BeginsWith, List.map_append, List.prefix_concat_iff] at hbegins
  rcases hbegins with hall | hbegins
  · exact (List.append_inj_left' hall rfl).symm
  · -- the end of the input is none of the tokens of a text
    have hmem : .ok q.current ∈ tokenize text := hbegins.subset (by simp)
    exact absurd hq (lexical_of_mem_tokenize hmem).ne_endOfInput

/-- A text that consists of tokens is read from its start to its end. -/
theorem exists_passes_to_end (h : tokenize text = ts.map .ok) :
    ∃ p, ofText text = .ok p ∧
      Passes p ts ⟨endToken text, [], Text.bytes text.toList, 0, 0⟩ := by
  cases ts with
  | nil =>
    refine ⟨_, ?_, .refl _⟩
    rw [ofText, h]
    rfl
  | cons t ts =>
    refine ⟨_, ?_, passes_tokens t ts (Text.bytes text.toList) 0 0⟩
    rw [ofText, h]
    rfl

/-- A text whose tokens are `t :: ts` is read from the first of them to the end of the input. -/
theorem exists_passes_of_tokenize (h : tokenize text = (t :: ts).map .ok) :
    ∃ p q, ofText text = .ok p ∧ Passes p (t :: ts) q ∧ q.current.kind = .endOfInput := by
  obtain ⟨p, hp, hpasses⟩ := exists_passes_to_end h
  exact ⟨p, _, hp, hpasses, rfl⟩

end Parser

end SqlPredicates
