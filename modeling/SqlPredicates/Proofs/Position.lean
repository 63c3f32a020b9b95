import SqlPredicates.Proofs.Moving

/-!
# Where a parser stands in its text

A parser does not keep the text that it reads. It keeps the current token and the items after it, and
these say where in the text it stands, which is what readings in sequence are about.

As long as no reading has met the error that ends the tokens of a text, a parser stands in front of
its current token: `Parser.StandsAt`. Then nothing of what has been read before matters. A fresh
parser on the text from the current token on is the same parser, up to its places, to the counter and
to the height that is noted: `Parser.StandsAt.exists_fresh`. Once the error has been met, nothing
follows, whatever the text goes on with, and the token in front of the error is still the current one:
`Parser.CutOff`.

## Main definitions

* `Parser.StandsAt` — a parser that stands in front of its current token
* `Parser.CutOff` — a parser that has met the error that ends the tokens
* `Parser.Placed` — one of the two

## Main results

* `Parser.StandsAt.of_passes`, `Parser.CutOff.of_passes` — passing over tokens
* `Parser.StandsAt.cutOff` — meeting the error
* `Parser.StandsAt.exists_fresh` — a fresh parser on the rest of the text
-/

namespace SqlPredicates

namespace Parser

variable {text : String} {p q : Parser} {c : Cursor} {t : Token} {ts : List Token} {depth height : ℕ}

/-- The parser stands at the place `c` of the text, which is reached over tokens. It looks at the token
that is taken next, or at the end of the input if there is none. -/
inductive StandsAt (text : String) : Cursor → Parser → Prop
  | token {ts : List Token} {t : Token} {c d : Cursor} {depth height : ℕ}
      (hts : (Cursor.ofText text).Takes ts c) (hnext : c.Next (some (.ok t, d))) :
      StandsAt text c ⟨t, d.items, Text.bytes text.toList, depth, height⟩
  | done {ts : List Token} {c : Cursor} {depth height : ℕ}
      (hts : (Cursor.ofText text).Takes ts c) (hnext : c.Next none) :
      StandsAt text c ⟨endToken text, [], Text.bytes text.toList, depth, height⟩

/-- The parser has met the error that ends the tokens of the text, so that nothing seems to follow. It
looks at the token in front of the error, or at the end of the input. -/
inductive CutOff (text : String) : Parser → Prop
  | token {ts : List Token} {t : Token} {c d : Cursor} {e : SyntaxError} {depth height : ℕ}
      (hts : (Cursor.ofText text).Takes (ts ++ [t]) c) (hnext : c.Next (some (.error e, d))) :
      CutOff text ⟨t, [], Text.bytes text.toList, depth, height⟩
  | done {depth height : ℕ} :
      CutOff text ⟨endToken text, [], Text.bytes text.toList, depth, height⟩

/-! ### At a token -/

theorem standsAt_of_firstItem (hts : (Cursor.ofText text).Takes ts c)
    (hfirst : firstItem (Text.bytes text.toList) c.items = .ok t) :
    StandsAt text c ⟨t, c.items.tail, Text.bytes text.toList, depth, height⟩ := by
  cases hnext : c.next? with
  | none =>
    have hdone := Cursor.next?_eq_iff.mp hnext
    rw [hdone.items_eq_nil] at hfirst ⊢
    cases hfirst
    exact .done hts hdone
  | some r =>
    obtain ⟨item, d⟩ := r
    have hstep := Cursor.next?_eq_iff.mp hnext
    rw [hstep.items_eq_cons] at hfirst ⊢
    obtain rfl : item = .ok t := hfirst
    exact .token hts hstep

theorem standsAt_of_ofText (h : ofText text = .ok p) : StandsAt text (Cursor.ofText text) p := by
  rw [ofText] at h
  split at h
  · next hfirst =>
    cases h
    exact standsAt_of_firstItem (.nil _) hfirst
  · cases h

namespace StandsAt

theorem exists_takes (h : StandsAt text c p) : ∃ ts, (Cursor.ofText text).Takes ts c := by
  cases h with
  | token hts | done hts => exact ⟨_, hts⟩

/-- The counter does not matter for where a parser stands. -/
theorem atDepth (h : StandsAt text c p) (depth : ℕ) : StandsAt text c (p.atDepth depth) := by
  cases h with
  | token hts hnext => exact .token hts hnext
  | done hts hnext => exact .done hts hnext

/-- Nor does the height that is noted. -/
theorem atHeight (h : StandsAt text c p) (height : ℕ) : StandsAt text c (p.atHeight height) := by
  cases h with
  | token hts hnext => exact .token hts hnext
  | done hts hnext => exact .done hts hnext

/-- The end of the input can be passed over, which leads nowhere. -/
theorem of_advance (h : StandsAt text c p) (hq : advance p = .ok t q) :
    (t.kind = .endOfInput ∧ q = p) ∨ ∃ d, c.Next (some (.ok t, d)) ∧ StandsAt text d q := by
  obtain ⟨rfl, next, hfirst, rfl⟩ := advance_eq_ok.mp hq
  cases h with
  | token hts hnext =>
    have htakes := Cursor.Takes.append_iff.mpr ⟨_, hts, .cons hnext (.nil _)⟩
    exact .inr ⟨_, hnext, standsAt_of_firstItem htakes hfirst⟩
  | done hts hnext =>
    cases hfirst
    exact .inl ⟨rfl, rfl⟩

/-- **Passing over tokens** leads to a place in the same text. -/
theorem of_passes (h : StandsAt text c p) (hts : Passes p ts q) :
    ∃ d, StandsAt text d q ∧ ((∀ t ∈ ts, t.kind ≠ .endOfInput) → c.Takes ts d) := by
  induction hts generalizing c with
  | nil p height => exact ⟨c, h.atHeight height, fun _ => .nil c⟩
  | @cons p q r t ts first _ ih =>
    rcases h.of_advance first with ⟨hend, rfl⟩ | ⟨d, hnext, hq⟩
    · obtain ⟨d', hr, -⟩ := ih h
      exact ⟨d', hr, fun hends => absurd hend (hends t List.mem_cons_self)⟩
    · obtain ⟨d', hr, htakes⟩ := ih hq
      exact ⟨d', hr, fun hends =>
        .cons hnext (htakes fun u hu => hends u (List.mem_cons_of_mem _ hu))⟩

/-- The end of the input can be left out of what is passed over. -/
theorem exists_passes (h : StandsAt text c p) (hts : Passes p ts q) :
    ∃ us, Passes p us q ∧ ∀ t ∈ us, t.kind ≠ .endOfInput := by
  induction hts generalizing c with
  | nil p height => exact ⟨[], .nil p height, by simp⟩
  | @cons p q r t ts first _ ih =>
    rcases h.of_advance first with ⟨-, rfl⟩ | ⟨d, hnext, hq⟩
    · exact ih h
    · obtain ⟨us, hus, hends⟩ := ih hq
      have hlexical : t.kind.Lexical :=
        (Cursor.next?_eq_some (Cursor.next?_eq_iff.mpr hnext)).2
      exact ⟨t :: us, .cons first hus, List.forall_mem_cons.mpr ⟨hlexical.ne_endOfInput, hends⟩⟩

/-- **Meeting the error** that ends the tokens. -/
theorem cutOff {e : SyntaxError} (h : StandsAt text c p) (hq : advance p = .error e q) :
    .error e ∈ tokenize text ∧ CutOff text q := by
  obtain ⟨hfirst, rfl⟩ := advance_eq_error.mp hq
  cases h with
  | @token ts t _ d _ _ hts hnext =>
    have htakes := Cursor.Takes.append_iff.mpr ⟨_, hts, .cons hnext (.nil d)⟩
    cases hstep : d.next? with
    | none =>
      rw [(Cursor.next?_eq_iff.mp hstep).items_eq_nil] at hfirst
      cases hfirst
    | some r =>
      obtain ⟨item, d'⟩ := r
      have hfault := Cursor.next?_eq_iff.mp hstep
      rw [hfault.items_eq_cons] at hfirst
      obtain rfl : item = .error e := hfirst
      refine ⟨?_, ?_⟩
      · rw [tokenize, htakes.items_eq, hfault.items_of_error]
        simp
      · rw [hfault.items_of_error]
        exact .token htakes hfault
  | done => cases hfirst

/-- At the end of the input only layout is left of the text. -/
theorem isLayout_of_endOfInput (h : StandsAt text c p) (hend : p.current.kind = .endOfInput) :
    IsLayout [] c.rest := by
  cases h with
  | @token _ t _ _ _ _ hts hnext =>
    have hmem : .ok t ∈ tokenize text := by
      rw [tokenize, hts.items_eq, hnext.items_eq_cons]
      simp
    exact absurd hend (lexical_of_mem_tokenize hmem).ne_endOfInput
  | done hts hnext =>
    cases hnext with
    | done h => exact h

/-- A text whose rest begins with a token is the rest with the places moved. -/
theorem exists_fresh_of_next {d : Cursor} (hts : (Cursor.ofText text).Takes ts c)
    (hnext : c.Next (some (.ok t, d))) :
    ∃ front back, text.toList = front ++ back ∧ t.span.start = Text.bytes front ∧
      ∃ fresh, ofText (String.ofList back) = .ok fresh ∧
        fresh.shift t.span.start = ⟨t, d.items, Text.bytes text.toList, 0, 0⟩ := by
  obtain ⟨front, htext, hoffset⟩ := hts.exists_chars
  obtain ⟨layout, back, hrest, hstart, hstep⟩ := hnext.exists_start
  have hsplit : text.toList = front ++ layout ++ back := by
    rw [List.append_assoc, ← hrest]
    exact htext
  have hbytes : t.span.start = Text.bytes (front ++ layout) := by
    rw [hstart, hoffset, Text.bytes_append]
    exact congrArg (· + _) (Nat.zero_add _)
  -- the first token of the rest, read alone, is the current one before it is moved
  obtain ⟨t₀, k, hfirst, ht, hk⟩ := hstep.exists_unshift (Nat.zero_add t.span.start).symm
  have htokens : tokenize (String.ofList back) = .ok t₀ :: (⟨d.rest, k⟩ : Cursor).items := by
    rw [tokenize, Cursor.ofText, String.toList_ofList]
    exact hfirst.items_eq_cons
  have hitems : d.items = (⟨d.rest, k⟩ : Cursor).items.map (TokenItem.move (· + t.span.start)) := by
    rw [← Cursor.items_move, ← hk]
  have hlength : Text.bytes text.toList = Text.bytes back + t.span.start := by
    rw [hsplit, Text.bytes_append, hbytes, Nat.add_comm]
  refine ⟨front ++ layout, back, hsplit, hbytes,
    ⟨t₀, (⟨d.rest, k⟩ : Cursor).items, Text.bytes back, 0, 0⟩, ?_, ?_⟩
  · rw [ofText, htokens, String.toList_ofList]
    rfl
  · rw [hlength, hitems]
    exact congrArg (Parser.mk · _ _ 0 0) ht

/-- The end of the empty text, moved to the end of another one. -/
theorem shift_end (n : ℕ) :
    (⟨endToken "", [], 0, 0, 0⟩ : Parser).shift n = ⟨⟨.endOfInput, Span.point n⟩, [], n, 0, 0⟩ := by
  simp [endToken, shift, Token.shift, Span.point, Span.shift]

/-- **What has been read before does not matter.** The text can be cut in front of the current token,
and a fresh parser on the rest is the same parser, up to its places, to the counter and to the height
that is noted. -/
theorem exists_fresh (h : StandsAt text c p) :
    Text.IsBoundary p.current.span.start text.toList ∧
      ∃ fresh, ofText (Text.back p.current.span.start text) = .ok fresh ∧
        p = ((fresh.shift p.current.span.start).atDepth p.depth).atHeight p.height := by
  obtain ⟨front, back, htext, hstart, fresh, hfresh, hp⟩ : ∃ front back,
      text.toList = front ++ back ∧ p.current.span.start = Text.bytes front ∧
        ∃ fresh, ofText (String.ofList back) = .ok fresh ∧
          p = ((fresh.shift p.current.span.start).atDepth p.depth).atHeight p.height := by
    cases h with
    | token hts hnext =>
      obtain ⟨front, back, htext, hstart, fresh, hfresh, hshift⟩ := exists_fresh_of_next hts hnext
      exact ⟨front, back, htext, hstart, fresh, hfresh, by rw [hshift]; rfl⟩
    | done =>
      refine ⟨text.toList, [], (List.append_nil _).symm, rfl, ⟨endToken "", [], 0, 0, 0⟩, rfl, ?_⟩
      rw [shift_end]
      rfl
  rw [Text.back, hstart, htext, Text.dropBytes_append]
  exact ⟨Text.isBoundary_append front back, fresh, hfresh, hstart ▸ hp⟩

end StandsAt

/-! ### Behind an error -/

namespace CutOff

theorem atDepth (h : CutOff text p) (depth : ℕ) : CutOff text (p.atDepth depth) := by
  cases h with
  | token hts hnext => exact .token hts hnext
  | done => exact .done

theorem atHeight (h : CutOff text p) (height : ℕ) : CutOff text (p.atHeight height) := by
  cases h with
  | token hts hnext => exact .token hts hnext
  | done => exact .done

theorem rest_eq_nil (h : CutOff text p) : p.rest = [] := by
  cases h <;> rfl

/-- No error is met twice. -/
theorem advance_ne_error {e : SyntaxError} (h : CutOff text p) : advance p ≠ .error e q := by
  intro hq
  obtain ⟨hfirst, -⟩ := advance_eq_error.mp hq
  rw [h.rest_eq_nil] at hfirst
  cases hfirst

theorem of_passes (h : CutOff text p) (hts : Passes p ts q) : CutOff text q := by
  induction hts with
  | nil p height => exact h.atHeight height
  | cons first _ ih =>
    refine ih ?_
    obtain ⟨-, next, hfirst, rfl⟩ := advance_eq_ok.mp first
    cases h with
    | token | done =>
      cases hfirst
      exact .done

end CutOff

/-- The parser stands at a token of the text or has met the error that ends the tokens. -/
def Placed (text : String) (p : Parser) : Prop := (∃ c, StandsAt text c p) ∨ CutOff text p

namespace Placed

theorem of_ofText (h : ofText text = .ok p) : Placed text p := .inl ⟨_, standsAt_of_ofText h⟩

theorem of_passes (h : Placed text p) (hts : Passes p ts q) : Placed text q := by
  rcases h with ⟨c, h⟩ | h
  · obtain ⟨d, hq, -⟩ := h.of_passes hts
    exact .inl ⟨d, hq⟩
  · exact .inr (h.of_passes hts)

/-- The only error that a parser can meet is the one that ends the tokens. -/
theorem mem_of_advance {e : SyntaxError} (h : Placed text p) (hq : advance p = .error e q) :
    .error e ∈ tokenize text := by
  rcases h with ⟨c, h⟩ | h
  · exact (h.cutOff hq).1
  · exact absurd hq h.advance_ne_error

end Placed

end Parser

end SqlPredicates
