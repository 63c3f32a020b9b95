import SqlPredicates.Proofs.Text.Slices
import SqlPredicates.Proofs.Token.Gaps

/-!
# Tokens and gaps cover the text

A text is cut into tokens up to its end, or up to a place where no token begins. Nothing is lost on
the way: each byte before that place belongs to one token or to one gap between tokens, and the gaps
hold layout only.

`Cursor.Next` lists what one step of the lexer can do, and `Cursor.Takes` strings such steps
together. The steps know a text by what is still to be read. That is enough to find every token and
every gap again by the span alone, because the characters read before a place take as many bytes as
its offset says.

## Main definitions

* `Cursor.Next`, `Cursor.Takes` — one step, and the steps from one place to another
* `Span.InOrder`, `Span.gaps` — spans that follow each other, and what is between them
* `Token.StandsIn`, `Span.IsGap` — a token and a gap at their places in a text
* `LexedUpTo` — where the tokens of a text end, and why

## Main results

* `Cursor.next?_eq_iff` — what one step does
* `Cursor.exists_takes` — tokens are taken up to the end of the text or up to an error
* `Cursor.Takes.lexed` — tokens and gaps are where their spans say
* `tokenize_covers` — the whole text
-/

namespace SqlPredicates

namespace Cursor

/-! ### One step -/

/-- What one step can do. Layout is passed over; then the text is at its end, or no lexeme can be
read, or one is read. -/
inductive Next (c : Cursor) : Option (TokenItem × Cursor) → Prop
  | done (h : IsLayout [] c.rest) : Next c none
  | fault {layout cs : List Char} {first : Char} {fault : LexicalFault}
      (hrest : c.rest = layout ++ first :: cs) (hlayout : IsLayout (first :: cs) layout)
      (hends : EndsLayout (first :: cs)) (hread : Lexeme.read first cs = .error fault) :
      Next c (some (.error (fault.toError (c.offset + Text.bytes layout)),
        ⟨[], c.offset + Text.bytes layout⟩))
  | token {layout cs : List Char} {first : Char} {l : Lexeme}
      (hrest : c.rest = layout ++ first :: cs) (hlayout : IsLayout (first :: cs) layout)
      (hends : EndsLayout (first :: cs)) (hread : Lexeme.read first cs = .ok l) :
      Next c (some
        (.ok ⟨l.kind, ⟨c.offset + Text.bytes layout,
            c.offset + Text.bytes layout + Text.bytes l.chars⟩⟩,
          ⟨l.rest, c.offset + Text.bytes layout + Text.bytes l.chars⟩))

theorem next?_eq_iff {c : Cursor} {r : Option (TokenItem × Cursor)} : c.next? = r ↔ c.Next r := by
  constructor
  · rintro rfl
    obtain ⟨layout, rest, hsplit⟩ : ∃ layout rest, splitLayout false c.rest = (layout, rest) :=
      ⟨_, _, rfl⟩
    obtain ⟨hrest, hlayout, hends⟩ := splitLayout_eq_iff.mp hsplit
    simp only [next?, hsplit]
    cases rest with
    | nil => exact .done (by rwa [hrest, List.append_nil])
    | cons first cs =>
      dsimp only
      cases hread : Lexeme.read first cs with
      | error fault => exact .fault hrest hlayout hends hread
      | ok l => exact .token hrest hlayout hends hread
  · intro h
    cases h with
    | done h =>
      have hsplit : splitLayout false c.rest = (c.rest, []) :=
        splitLayout_eq_iff.mpr ⟨by simp, h, ⟨by simp, by simp⟩⟩
      simp only [next?, hsplit]
    | fault hrest hlayout hends hread =>
      simp only [next?, splitLayout_eq_iff.mpr ⟨hrest, hlayout, hends⟩, hread]
    | token hrest hlayout hends hread =>
      simp only [next?, splitLayout_eq_iff.mpr ⟨hrest, hlayout, hends⟩, hread]

namespace Next

variable {c c' : Cursor}

theorem items_eq_nil (h : c.Next none) : c.items = [] := by
  rw [items_eq, next?_eq_iff.mpr h]

theorem items_eq_cons {item : TokenItem} (h : c.Next (some (item, c'))) :
    c.items = item :: c'.items := by
  rw [items_eq, next?_eq_iff.mpr h]

/-- Where an item is read there is more than layout. -/
theorem not_isLayout {r : TokenItem × Cursor} (h : c.Next (some r)) : ¬ IsLayout [] c.rest := by
  intro hlayout
  have hnext := next?_eq_iff.mpr h
  rw [next?_eq_iff.mpr (.done hlayout)] at hnext
  cases hnext

/-- After an error there is nothing to read. -/
theorem items_of_error {e : SyntaxError} (h : c.Next (some (.error e, c'))) :
    c.items = [.error e] := by
  rw [h.items_eq_cons]
  cases h
  rfl

end Next

/-! ### Several steps -/

/-- The tokens `ts` are taken one after the other from `c` on, up to `c'`. -/
inductive Takes : Cursor → List Token → Cursor → Prop
  | nil (c : Cursor) : Takes c [] c
  | cons {c c' c'' : Cursor} {t : Token} {ts : List Token} (h : c.Next (some (.ok t, c')))
      (hs : Takes c' ts c'') : Takes c (t :: ts) c''

theorem Takes.items_eq {c c' : Cursor} {ts : List Token} (h : c.Takes ts c') :
    c.items = ts.map .ok ++ c'.items := by
  induction h with
  | nil => rfl
  | cons h _ ih => rw [h.items_eq_cons, ih, List.map_cons, List.cons_append]

/-- Taking tokens uses up characters, and the offset counts their bytes. -/
theorem Takes.exists_chars {c c' : Cursor} {ts : List Token} (h : c.Takes ts c') :
    ∃ cs, c.rest = cs ++ c'.rest ∧ c'.offset = c.offset + Text.bytes cs := by
  induction h with
  | nil => exact ⟨[], rfl, rfl⟩
  | cons hstep _ ih =>
    obtain ⟨cs, hcs, hoffset⟩ := ih
    cases hstep with
    | @token layout _ _ l hrest _ _ hread =>
      obtain ⟨happend, -, -⟩ := Lexeme.append_of_read hread
      dsimp only at hcs hoffset
      refine ⟨layout ++ (l.chars ++ cs), ?_, ?_⟩
      · rw [hrest, ← happend, hcs, List.append_assoc, List.append_assoc]
      · rw [hoffset, Text.bytes_append, Text.bytes_append]
        omega

/-- From every place on, tokens are taken until the text is at its end or an error occurs. -/
theorem exists_takes (c : Cursor) :
    ∃ (ts : List Token) (c' : Cursor), c.Takes ts c' ∧
      (c'.Next none ∨ ∃ e c'', c'.Next (some (.error e, c''))) := by
  -- on the number of characters left, which each token lowers
  induction hlength : c.rest.length using Nat.strongRecOn generalizing c with
  | _ length ih =>
    subst hlength
    cases hnext : c.next? with
    | none => exact ⟨[], c, .nil c, .inl (next?_eq_iff.mp hnext)⟩
    | some r =>
      obtain ⟨item, c'⟩ := r
      have hstep := next?_eq_iff.mp hnext
      cases item with
      | error e => exact ⟨[], c, .nil c, .inr ⟨e, c', hstep⟩⟩
      | ok t =>
        obtain ⟨ts, d, htakes, hend⟩ := ih _ (next?_eq_some hnext).1 c' rfl
        exact ⟨t :: ts, d, .cons hstep htakes, hend⟩

end Cursor

/-! ### Spans that follow each other -/

namespace Span

/-- The spans are not empty and follow each other between `start` and `stop`. -/
def InOrder : ℕ → List Span → ℕ → Prop
  | start, [], stop => start ≤ stop
  | start, s :: spans, stop => start ≤ s.start ∧ s.start < s.stop ∧ InOrder s.stop spans stop

/-- What spans leave free between `start` and `stop`: in front of each of them, and behind the last
one. -/
def gaps : ℕ → List Span → ℕ → List Span
  | start, [], stop => [⟨start, stop⟩]
  | start, s :: spans, stop => ⟨start, s.start⟩ :: gaps s.stop spans stop

/-- The span holds the byte at an offset. -/
def holds (offset : ℕ) (s : Span) : Bool := s.start ≤ offset && offset < s.stop

namespace InOrder

variable {start stop : ℕ} {spans : List Span}

theorem start_le_stop (h : InOrder start spans stop) : start ≤ stop := by
  induction spans generalizing start with
  | nil => exact h
  | cons s spans ih =>
    obtain ⟨hstart, hlt, hrest⟩ := h
    have hle := ih hrest
    omega

theorem start_le (h : InOrder start spans stop) : ∀ s ∈ spans, start ≤ s.start := by
  induction spans generalizing start with
  | nil => simp
  | cons s spans ih =>
    obtain ⟨hstart, hlt, hrest⟩ := h
    refine List.forall_mem_cons.mpr ⟨hstart, fun u hu => ?_⟩
    have hle := ih hrest u hu
    omega

/-- Of two spans the first ends before the second begins. -/
theorem pairwise (h : InOrder start spans stop) :
    spans.Pairwise fun s u => s.stop ≤ u.start := by
  induction spans generalizing start with
  | nil => exact .nil
  | cons s spans ih =>
    obtain ⟨-, -, hrest⟩ := h
    exact .cons hrest.start_le (ih hrest)

/-- Each byte is held once, by one of the spans or by what they leave free. -/
theorem countP_holds (h : InOrder start spans stop) (offset : ℕ) :
    (spans ++ gaps start spans stop).countP (holds offset) =
      if start ≤ offset ∧ offset < stop then 1 else 0 := by
  induction spans generalizing start with
  | nil => simp [gaps, holds]
  | cons s spans ih =>
    obtain ⟨hstart, hlt, hrest⟩ := h
    have hle := hrest.start_le_stop
    have hcount := ih hrest
    rw [List.countP_append] at hcount
    rw [gaps, List.countP_append, List.countP_cons, List.countP_cons]
    simp only [holds, Bool.and_eq_true, decide_eq_true_eq] at hcount ⊢
    grind

end InOrder

end Span

/-! ### Places in a text -/

/-- The token stands in the text where its span says: the lexeme that is read there is of its kind
and has the characters of the span. -/
structure Token.StandsIn (t : Token) (text : List Char) : Prop where
  start_lt : t.span.start < t.span.stop
  onBoundaries : Text.OnBoundaries t.span text
  exists_read : ∃ c cs, Text.dropBytes t.span.start text = c :: cs ∧
    Lexeme.read c cs =
      .ok ⟨t.kind, Text.slice t.span text, Text.dropBytes t.span.stop text⟩

/-- The span holds layout in front of what follows it in the text. -/
structure Span.IsGap (gap : Span) (text : List Char) : Prop where
  onBoundaries : Text.OnBoundaries gap text
  isLayout : IsLayout (Text.dropBytes gap.stop text) (Text.slice gap text)

/-- Tokens of a text and the gaps between them, from one offset to another. -/
structure Lexed (text : List Char) (start : ℕ) (ts : List Token) (stop : ℕ) : Prop where
  inOrder : Span.InOrder start (ts.map Token.span) stop
  tokens : ∀ t ∈ ts, t.StandsIn text
  gaps : ∀ gap ∈ Span.gaps start (ts.map Token.span) stop, gap.IsGap text

/-- Where the tokens of a text end: at the end of the text if there is no error, else at a place
where no lexeme can be read, which is the place of the error. -/
inductive LexedUpTo (text : List Char) : Option SyntaxError → ℕ → Prop
  | done : LexedUpTo text none (Text.bytes text)
  | fault {stop : ℕ} {c : Char} {cs : List Char} {fault : LexicalFault}
      (hrest : Text.dropBytes stop text = c :: cs) (hread : Lexeme.read c cs = .error fault) :
      LexedUpTo text (some (fault.toError stop)) stop

theorem Span.isGap_of_isLayout {before layout after : List Char} (h : IsLayout after layout) :
    Span.IsGap ⟨Text.bytes before, Text.bytes before + Text.bytes layout⟩
      (before ++ (layout ++ after)) := by
  refine ⟨Text.onBoundaries_append before layout after, ?_⟩
  rw [Text.dropBytes_append_append, Text.slice_append]
  exact h

theorem Token.standsIn_of_read {before cs : List Char} {c : Char} {l : Lexeme}
    (h : Lexeme.read c cs = .ok l) :
    Token.StandsIn ⟨l.kind, ⟨Text.bytes before, Text.bytes before + Text.bytes l.chars⟩⟩
      (before ++ c :: cs) := by
  obtain ⟨happend, hne, -⟩ := Lexeme.append_of_read h
  have hpos := Text.bytes_pos hne
  rw [← happend]
  refine ⟨Nat.lt_add_of_pos_right hpos, Text.onBoundaries_append _ _ _, c, cs, ?_, ?_⟩
  · rw [Text.dropBytes_append, happend]
  · rw [Text.slice_append, Text.dropBytes_append_append]
    exact h

namespace Lexed

variable {before layout after : List Char} {stop : ℕ}

/-- Layout and no token. -/
theorem nil (h : IsLayout after layout) :
    Lexed (before ++ (layout ++ after)) (Text.bytes before) []
      (Text.bytes before + Text.bytes layout) := by
  refine ⟨Nat.le_add_right _ _, by simp, fun gap hgap => ?_⟩
  obtain rfl := List.mem_singleton.mp hgap
  exact Span.isGap_of_isLayout h

/-- Layout, and a token behind it. -/
theorem cons {c : Char} {cs : List Char} {l : Lexeme} {ts : List Token}
    (hlayout : IsLayout (c :: cs) layout) (hread : Lexeme.read c cs = .ok l)
    (h : Lexed (before ++ (layout ++ c :: cs))
      (Text.bytes before + Text.bytes layout + Text.bytes l.chars) ts stop) :
    Lexed (before ++ (layout ++ c :: cs)) (Text.bytes before)
      (⟨l.kind, ⟨Text.bytes before + Text.bytes layout,
        Text.bytes before + Text.bytes layout + Text.bytes l.chars⟩⟩ :: ts) stop := by
  have htoken := @Token.standsIn_of_read (before ++ layout) cs c l hread
  rw [Text.bytes_append, List.append_assoc] at htoken
  exact
    { inOrder := ⟨Nat.le_add_right _ _, htoken.start_lt, h.inOrder⟩
      tokens := List.forall_mem_cons.mpr ⟨htoken, h.tokens⟩
      gaps := List.forall_mem_cons.mpr ⟨Span.isGap_of_isLayout hlayout, h.gaps⟩ }

end Lexed

/-- **Tokens and gaps are where their spans say.** The characters before a place take as many bytes
as its offset; each step keeps this, since it takes the characters of its layout and its lexeme. -/
theorem Cursor.Takes.lexed {c c' : Cursor} {ts : List Token} (h : c.Takes ts c')
    {before layout after : List Char} (hbefore : Text.bytes before = c.offset)
    (hrest : c'.rest = layout ++ after) (hlayout : IsLayout after layout) :
    Lexed (before ++ c.rest) c.offset ts (c'.offset + Text.bytes layout) := by
  induction h generalizing before with
  | nil c =>
    rw [hrest, ← hbefore]
    exact Lexed.nil hlayout
  | @cons c c' c'' t ts hstep _ ih =>
    cases hstep with
    | @token gap cs first l htext hgap hends hread =>
      obtain ⟨happend, -, -⟩ := Lexeme.append_of_read hread
      have hsplit : before ++ c.rest = before ++ (gap ++ l.chars) ++ l.rest := by
        rw [htext, ← happend, List.append_assoc, List.append_assoc]
      have hlexed := @ih (before ++ (gap ++ l.chars))
        (by rw [Text.bytes_append, Text.bytes_append, hbefore, Nat.add_assoc]) hrest
      rw [← hsplit, htext, ← hbefore] at hlexed
      rw [htext, ← hbefore]
      exact hlexed.cons hgap hread

/-- What is read from a place on, if the text before it is known. -/
theorem Cursor.exists_lexed {c : Cursor} {before : List Char}
    (hbefore : Text.bytes before = c.offset) :
    ∃ (ts : List Token) (fault : Option SyntaxError) (stop : ℕ),
      c.items = ts.map .ok ++ (fault.map .error).toList ∧
      LexedUpTo (before ++ c.rest) fault stop ∧ Lexed (before ++ c.rest) c.offset ts stop := by
  obtain ⟨ts, c', htakes, hend⟩ := c.exists_takes
  obtain ⟨cs, hcs, hoffset⟩ := htakes.exists_chars
  have htext : before ++ c.rest = before ++ cs ++ c'.rest := by rw [hcs, List.append_assoc]
  have hbytes : c'.offset = Text.bytes (before ++ cs) := by
    rw [hoffset, Text.bytes_append, hbefore]
  rcases hend with hdone | ⟨e, c'', hfault⟩
  · have hitems : c.items = ts.map .ok ++ [] := by rw [htakes.items_eq, hdone.items_eq_nil]
    cases hdone with
    | done hlayout =>
      have hstop : c'.offset + Text.bytes c'.rest = Text.bytes (before ++ c.rest) := by
        rw [htext, hbytes, ← Text.bytes_append]
      have hlexed := htakes.lexed hbefore (List.append_nil _).symm hlayout
      rw [hstop] at hlexed
      exact ⟨ts, none, _, hitems, .done, hlexed⟩
  · have hitems := htakes.items_eq
    rw [hfault.items_of_error] at hitems
    cases hfault with
    | @fault layout ds first fault hrest hlayout hends hread =>
      refine ⟨ts, some _, _, hitems, .fault ?_ hread, htakes.lexed hbefore hrest hlayout⟩
      rw [htext, hrest, hbytes, Text.dropBytes_append_append]

/-- **Lexing is total and loses nothing.** Every text is cut into tokens, after which there may be
one error. The tokens are not empty, on boundaries of characters and one after the other; between
them, up to the end of the text or the place of the error, stand blanks and comments; and each byte
up to there belongs to one token or to one gap. -/
theorem tokenize_covers (text : String) :
    ∃ (ts : List Token) (fault : Option SyntaxError) (stop : ℕ),
      tokenize text = ts.map .ok ++ (fault.map .error).toList ∧
      LexedUpTo text.toList fault stop ∧
      (∀ t ∈ ts, t.StandsIn text.toList) ∧
      (ts.Pairwise fun t u => t.span.stop ≤ u.span.start) ∧
      (∀ gap ∈ Span.gaps 0 (ts.map Token.span) stop, gap.IsGap text.toList) ∧
      ∀ offset < stop,
        (ts.map Token.span ++ Span.gaps 0 (ts.map Token.span) stop).countP (Span.holds offset) =
          1 := by
  obtain ⟨ts, fault, stop, hitems, hend, hlexed⟩ :=
    @Cursor.exists_lexed (Cursor.ofText text) [] rfl
  refine ⟨ts, fault, stop, hitems, hend, hlexed.tokens, ?_, hlexed.gaps, fun offset hoffset => ?_⟩
  · exact List.pairwise_map.mp hlexed.inOrder.pairwise
  · have hcount := hlexed.inOrder.countP_holds offset
    rw [if_pos ⟨Nat.zero_le _, hoffset⟩] at hcount
    exact hcount

end SqlPredicates
