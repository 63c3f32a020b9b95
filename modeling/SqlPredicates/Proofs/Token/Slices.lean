import SqlPredicates.Proofs.Token.Coverage

/-!
# The tokens of a part of a text

Some tokens of a text that stand together take up a part of it, from the start of the first to the
end of the last one. Cut out and read alone, this part has the same tokens again, only that their
places count from its own start.

Nothing in front of the part matters, since it begins with a token and tokens are read from left to
right. What follows it could matter, as each token goes on for as long as it can. A lexeme that ends
at or before the cut has ended there for a reason that the cut does not take away:
`Lexeme.read_of_append`.

## Main definitions

* `Token.shift` — a token moved to the right
* `Spans` — the span from the first to the last of some tokens
* `Ordered` — tokens that are not empty and follow each other

## Main results

* `Lexeme.read_of_append` — the end of a text can be cut off behind a lexeme
* `Spans.cover` — the span of tokens that are put together
* `tokenize_slice` — the tokens of a part of a text
-/

namespace SqlPredicates

/-! ### Lexemes -/

/-- A run of characters that ends before the tail of a text is the same without the tail. -/
theorem takeWhile_of_append {p : Char → Bool} {cs more tail : List Char}
    (h : (cs ++ tail).dropWhile p = more ++ tail) :
    cs.takeWhile p = (cs ++ tail).takeWhile p ∧ cs.dropWhile p = more := by
  have hrun : ∀ c ∈ (cs ++ tail).takeWhile p, p c = true := fun c => List.mem_takeWhile_imp
  have hmore : ∀ c ∈ more.head?, ¬ p c = true := by
    intro c hc
    have hhead := List.head?_dropWhile_not p (cs ++ tail)
    rw [h, List.head?_append, hc] at hhead
    simpa using hhead
  have hcs : cs = (cs ++ tail).takeWhile p ++ more := by
    have happend := List.takeWhile_append_dropWhile (p := p) (l := cs ++ tail)
    rw [h, ← List.append_assoc] at happend
    exact (List.append_cancel_right happend).symm
  generalize (cs ++ tail).takeWhile p = run at hrun hcs
  subst hcs
  exact takeWhile_of_head hrun hmore

namespace Lexeme

variable {c : Char} {cs more tail : List Char} {l : Lexeme}

theorem integer_of_ok {digits rest : List Char} (h : integer digits rest = .ok l)
    (rest' : List Char) : integer digits rest' = .ok { l with rest := rest' } := by
  rw [integer] at h ⊢
  split at h
  · next hvalue =>
    cases h
    rw [if_pos hvalue]
  · cases h

/-- A numeral is a decimal fraction if a point and a digit follow its first digits, else an
integer. -/
theorem numeral_eq_ok_iff : numeral cs = .ok l ↔
    (∃ rest, cs.dropWhile Char.isDigit = '.' :: rest ∧ rest.takeWhile Char.isDigit ≠ [] ∧
      l = ⟨.decimal (Binary64.ofNumeral (cs.takeWhile Char.isDigit) (rest.takeWhile Char.isDigit)),
        cs.takeWhile Char.isDigit ++ '.' :: rest.takeWhile Char.isDigit,
        rest.dropWhile Char.isDigit⟩) ∨
      (∀ rest, cs.dropWhile Char.isDigit = '.' :: rest →
        rest.takeWhile Char.isDigit = [] ∧ cs.takeWhile Char.isDigit ≠ []) ∧
      integer (cs.takeWhile Char.isDigit) (cs.dropWhile Char.isDigit) = .ok l := by
  rw [numeral]
  split
  · next rest hrest =>
    simp only [hrest, List.cons.injEq, true_and, exists_eq_left', forall_eq']
    generalize rest.takeWhile Char.isDigit = fraction
    generalize cs.takeWhile Char.isDigit = whole
    cases fraction with
    | nil => cases whole <;> simp
    | cons d ds => simp [eq_comm]
  · next hpoint =>
    constructor
    · intro h
      exact .inr ⟨fun rest hrest => absurd hrest (hpoint rest), h⟩
    · rintro (⟨rest, hrest, -⟩ | ⟨-, h⟩)
      · exact absurd hrest (hpoint rest)
      · exact h

theorem numeral_of_append (h : numeral (cs ++ tail) = .ok l) (hl : l.rest = more ++ tail) :
    numeral cs = .ok { l with rest := more } := by
  rcases numeral_eq_ok_iff.mp h with ⟨rest, hrest, hfraction, rfl⟩ | ⟨hpoint, hinteger⟩
  · -- the fraction ends before the tail, and so do both runs of digits
    generalize hdigits : rest.takeWhile Char.isDigit = fraction at hfraction ⊢
    have hsplit : rest = fraction ++ more ++ tail := by
      rw [← hdigits, List.append_assoc, ← hl, List.takeWhile_append_dropWhile]
    subst hsplit
    obtain ⟨hfirst, hmore⟩ := takeWhile_of_append hl
    rw [hdigits] at hfirst
    obtain ⟨hwhole, hdrop⟩ := @takeWhile_of_append _ cs ('.' :: (fraction ++ more)) tail hrest
    refine numeral_eq_ok_iff.mpr (.inl ⟨_, hdrop, ?_, ?_⟩)
    · rw [hfirst]
      exact hfraction
    · rw [hwhole, hfirst, hmore]
  · obtain ⟨-, hrest, -⟩ := integer_eq_ok hinteger
    rw [hl] at hrest
    obtain ⟨hwhole, hdrop⟩ := takeWhile_of_append hrest.symm
    refine numeral_eq_ok_iff.mpr (.inr ⟨fun rest hpointed => ?_, ?_⟩)
    · -- a point that belongs to the part has no digit behind it in the text either
      obtain ⟨hfraction, hne⟩ := hpoint (rest ++ tail)
        (by rw [← hrest, ← hdrop, hpointed, List.cons_append])
      have happend := List.takeWhile_append_dropWhile (p := Char.isDigit) (l := rest ++ tail)
      rw [hfraction, List.nil_append] at happend
      rw [(takeWhile_of_append happend).1, hwhole]
      exact ⟨hfraction, hne⟩
    · rw [hwhole, hdrop]
      exact integer_of_ok hinteger more

theorem quoted_of_append {quote : Quote} (h : quoted quote (cs ++ tail) = .ok l)
    (hl : l.rest = more ++ tail) : quoted quote cs = .ok { l with rest := more } := by
  rw [quoted] at h ⊢
  split at h
  · cases h
  · next q rest hrest =>
    cases h
    obtain rfl : rest = more ++ tail := hl
    obtain ⟨hbody, hdrop⟩ := @takeWhile_of_append _ cs (q :: more) tail hrest
    rw [hdrop, hbody]

theorem bracketed_of_append (h : bracketed (cs ++ tail) = .ok l) (hl : l.rest = more ++ tail) :
    bracketed cs = .ok { l with rest := more } := by
  rw [bracketed] at h ⊢
  split at h
  · cases h
  · next b rest hrest =>
    cases h
    obtain rfl : rest = more ++ tail := hl
    obtain ⟨hbody, hdrop⟩ := @takeWhile_of_append _ cs (b :: more) tail hrest
    rw [hdrop, hbody]

theorem word_of_append (hl : (word (cs ++ tail)).rest = more ++ tail) :
    word cs = { word (cs ++ tail) with rest := more } := by
  obtain ⟨hchars, hrest⟩ := takeWhile_of_append (show _ = more ++ tail from hl)
  rw [word, word, hchars, hrest]

theorem shortSymbol_of_ok {rest : List Char} (h : shortSymbol c rest = .ok l) (rest' : List Char) :
    l.rest = rest ∧ shortSymbol c rest' = .ok { l with rest := rest' } := by
  rw [shortSymbol] at h ⊢
  split at h
  · cases h
    exact ⟨rfl, rfl⟩
  · cases h

/-- A symbol has two characters if there is one for the first two, else one. -/
theorem symbol_eq_ok_iff : symbol c cs = .ok l ↔
    (∃ d rest sign, cs = d :: rest ∧ Symbol.pair? c d = some sign ∧
      l = ⟨.symbol sign, [c, d], rest⟩) ∨
      (∀ d rest, cs = d :: rest → Symbol.pair? c d = none) ∧ shortSymbol c cs = .ok l := by
  cases cs with
  | nil => simp [symbol]
  | cons d rest =>
    rw [symbol]
    split
    · next sign hsign => simp [hsign, eq_comm]
    · next hsign => simp [hsign]

theorem symbol_of_append (h : symbol c (cs ++ tail) = .ok l) (hl : l.rest = more ++ tail) :
    symbol c cs = .ok { l with rest := more } := by
  rcases symbol_eq_ok_iff.mp h with ⟨d, rest, sign, hcs, hsign, rfl⟩ | ⟨hpair, hshort⟩
  · obtain rfl : rest = more ++ tail := hl
    obtain rfl := List.append_cancel_right (show cs ++ tail = (d :: more) ++ tail from hcs)
    exact symbol_eq_ok_iff.mpr (.inl ⟨d, more, sign, rfl, hsign, rfl⟩)
  · obtain ⟨hrest, hcut⟩ := shortSymbol_of_ok hshort more
    rw [hl] at hrest
    obtain rfl := List.append_cancel_right hrest
    refine symbol_eq_ok_iff.mpr (.inr ⟨fun d rest hcs => ?_, hcut⟩)
    exact hpair d (rest ++ tail) (by rw [hcs, List.cons_append])

/-- The reader is chosen by the first character. So a lexeme can be read in another text with the
same first character if each reader can do that. -/
theorem read_of_readers {ds : List Char} {l' : Lexeme} (h : read c cs = .ok l)
    (hnumeral : numeral (c :: cs) = .ok l → numeral (c :: ds) = .ok l')
    (hquoted : ∀ quote, quoted quote cs = .ok l → quoted quote ds = .ok l')
    (hbracketed : bracketed cs = .ok l → bracketed ds = .ok l')
    (hword : word (c :: cs) = l → word (c :: ds) = l')
    (hsymbol : symbol c cs = .ok l → symbol c ds = .ok l') : read c ds = .ok l' := by
  rw [read] at h ⊢
  split_ifs at h ⊢
  · exact hnumeral h
  · exact hquoted _ h
  · exact hquoted _ h
  · exact hbracketed h
  · exact congrArg _ (hword (Except.ok.inj h))
  · exact hsymbol h

/-- **The end of a text can be cut off behind a lexeme.** -/
theorem read_of_append (h : read c (cs ++ tail) = .ok l) (hl : l.rest = more ++ tail) :
    read c cs = .ok { l with rest := more } := by
  refine read_of_readers h (fun h => ?_) (fun quote h => quoted_of_append h hl)
    (fun h => bracketed_of_append h hl) (fun h => ?_) fun h => symbol_of_append h hl
  · exact @numeral_of_append (c :: cs) more tail l h hl
  · subst h
    exact @word_of_append (c :: cs) more tail hl

end Lexeme

/-! ### Steps in a part of a text -/

/-- The token moved to the right by `n` bytes. -/
def Token.shift (n : ℕ) (t : Token) : Token := ⟨t.kind, t.span.shift n⟩

namespace Token

variable {n : ℕ} {kind : Kind} {s : Span} {ts us : List Token}

/-- A token that is moved keeps its kind. -/
theorem exists_of_shift_eq {t : Token} (h : t.shift n = ⟨kind, s⟩) :
    ∃ s₀ : Span, t = ⟨kind, s₀⟩ ∧ s₀.shift n = s := by
  obtain ⟨_, s₀⟩ := t
  obtain ⟨rfl, hs⟩ := Token.mk.inj h
  exact ⟨s₀, rfl, hs⟩

theorem exists_of_map_shift_eq_cons (h : us.map (shift n) = ⟨kind, s⟩ :: ts) :
    ∃ s₀ vs, us = ⟨kind, s₀⟩ :: vs ∧ s₀.shift n = s ∧ vs.map (shift n) = ts := by
  obtain ⟨t, vs, rfl, ht, hvs⟩ := List.map_eq_cons_iff.mp h
  obtain ⟨s₀, rfl, hs⟩ := exists_of_shift_eq ht
  exact ⟨s₀, vs, rfl, hs, hvs⟩

theorem exists_of_map_shift_eq_singleton (h : us.map (shift n) = [⟨kind, s⟩]) :
    ∃ s₀ : Span, us = [⟨kind, s₀⟩] ∧ s₀.shift n = s := by
  obtain ⟨t, rfl, ht⟩ := List.map_eq_singleton_iff.mp h
  obtain ⟨s₀, rfl, hs⟩ := exists_of_shift_eq ht
  exact ⟨s₀, rfl, hs⟩

theorem exists_of_map_shift_eq_concat (h : us.map (shift n) = ts ++ [⟨kind, s⟩]) :
    ∃ vs s₀, us = vs ++ [⟨kind, s₀⟩] ∧ vs.map (shift n) = ts ∧ s₀.shift n = s := by
  obtain ⟨vs, ws, rfl, hvs, hws⟩ := List.map_eq_append_iff.mp h
  obtain ⟨s₀, rfl, hs⟩ := exists_of_map_shift_eq_singleton hws
  exact ⟨vs, s₀, rfl, hvs, hs⟩

end Token

theorem Span.cover_shift (n : ℕ) (s s' : Span) :
    (s.cover s').shift n = (s.shift n).cover (s'.shift n) := by
  simp only [cover, shift, Span.mk.injEq]
  omega

namespace Cursor

variable {c c' c'' : Cursor} {t : Token} {ts us : List Token} {cs more tail : List Char}

/-- A step leaves out what is behind the place that it leads to. -/
theorem Next.of_append (h : c.Next (some (.ok t, c'))) (hc : c.rest = cs ++ tail)
    (hc' : c'.rest = more ++ tail) :
    (⟨cs, c.offset⟩ : Cursor).Next (some (.ok t, ⟨more, c'.offset⟩)) := by
  cases h with
  | @token layout ds first l hrest hlayout hends hread =>
    dsimp only at hc' ⊢
    obtain ⟨happend, hne, -⟩ := Lexeme.append_of_read hread
    obtain ⟨d, chars, hchars⟩ := List.exists_cons_of_ne_nil hne
    rw [hchars, hc', List.cons_append, List.cons.injEq, ← List.append_assoc] at happend
    obtain ⟨rfl, rfl⟩ := happend
    rw [hc, ← List.cons_append, ← List.append_assoc] at hrest
    have hcs := List.append_cancel_right hrest
    have hlayout' : IsLayout (d :: (chars ++ more)) layout := hlayout.congr_head rfl
    have hends' := @EndsLayout.of_append (d :: (chars ++ more)) tail hends
    have hread' := Lexeme.read_of_append hread hc'
    exact @Next.token ⟨cs, c.offset⟩ layout _ d { l with rest := more } hcs hlayout' hends' hread'

/-- A step at another offset. -/
theorem Next.exists_unshift (h : c.Next (some (.ok t, c'))) {n k : ℕ} (hc : c.offset = n + k) :
    ∃ t₀ n', (⟨c.rest, n⟩ : Cursor).Next (some (.ok t₀, ⟨c'.rest, n'⟩)) ∧ t₀.shift k = t ∧
      c'.offset = n' + k := by
  cases h with
  | @token layout ds first l hrest hlayout hends hread =>
    refine ⟨_, _, .token hrest hlayout hends hread, ?_, ?_⟩
    · simp only [Token.shift, Span.shift, hc, Token.mk.injEq, Span.mk.injEq, true_and]
      omega
    · simp only [hc]
      omega

/-- A step need not begin in front of the layout. -/
theorem Next.exists_start (h : c.Next (some (.ok t, c'))) :
    ∃ layout cs, c.rest = layout ++ cs ∧ t.span.start = c.offset + Text.bytes layout ∧
      (⟨cs, t.span.start⟩ : Cursor).Next (some (.ok t, c')) := by
  cases h with
  | @token layout ds first l hrest hlayout hends hread =>
    refine ⟨layout, _, hrest, rfl, ?_⟩
    exact @Next.token ⟨first :: ds, _⟩ [] ds first l rfl .nil hends hread

/-- A text that consists of tokens is taken token by token. -/
theorem exists_takes_of_items (h : c.items = ts.map .ok) : ∃ c', c.Takes ts c' ∧ c'.Next none := by
  induction ts generalizing c with
  | nil =>
    cases hnext : c.next? with
    | none => exact ⟨c, .nil c, next?_eq_iff.mp hnext⟩
    | some r =>
      rw [(next?_eq_iff.mp hnext).items_eq_cons] at h
      cases h
  | cons t ts ih =>
    cases hnext : c.next? with
    | none =>
      rw [(next?_eq_iff.mp hnext).items_eq_nil] at h
      cases h
    | some r =>
      obtain ⟨item, c'⟩ := r
      have hstep := next?_eq_iff.mp hnext
      rw [hstep.items_eq_cons, List.map_cons, List.cons.injEq] at h
      obtain ⟨rfl, hitems⟩ := h
      obtain ⟨d, htakes, hdone⟩ := ih hitems
      exact ⟨d, .cons hstep htakes, hdone⟩

namespace Takes

theorem append_iff : c.Takes (ts ++ us) c'' ↔ ∃ c', c.Takes ts c' ∧ c'.Takes us c'' := by
  constructor
  · intro h
    induction ts generalizing c with
    | nil => exact ⟨c, .nil c, h⟩
    | cons t ts ih =>
      cases h with
      | cons hstep hs =>
        obtain ⟨d, hts, hus⟩ := ih hs
        exact ⟨d, .cons hstep hts, hus⟩
  · rintro ⟨c', hts, hus⟩
    induction hts with
    | nil => exact hus
    | cons hstep _ ih => exact .cons hstep (ih hus)

/-- After the last token its end is the offset. -/
theorem offset_eq (h : c.Takes (ts ++ [t]) c') : c'.offset = t.span.stop := by
  obtain ⟨d, -, hlast⟩ := append_iff.mp h
  cases hlast with
  | cons hstep hs =>
    cases hs
    cases hstep
    rfl

theorem of_append (h : c.Takes ts c') (hc : c.rest = cs ++ tail) (hc' : c'.rest = more ++ tail) :
    (⟨cs, c.offset⟩ : Cursor).Takes ts ⟨more, c'.offset⟩ := by
  induction h generalizing cs with
  | nil c =>
    rw [List.append_cancel_right (hc.symm.trans hc')]
    exact .nil _
  | cons hstep hs ih =>
    obtain ⟨chars, hchars, -⟩ := hs.exists_chars
    rw [hc', ← List.append_assoc] at hchars
    exact .cons (hstep.of_append hc hchars) (ih hchars hc')

theorem exists_unshift (h : c.Takes ts c') {n k : ℕ} (hc : c.offset = n + k) :
    ∃ ts₀ n', (⟨c.rest, n⟩ : Cursor).Takes ts₀ ⟨c'.rest, n'⟩ ∧ ts₀.map (Token.shift k) = ts := by
  induction h generalizing n with
  | nil c => exact ⟨[], n, .nil _, rfl⟩
  | cons hstep _ ih =>
    obtain ⟨t₀, m, hstep₀, rfl, hm⟩ := hstep.exists_unshift hc
    obtain ⟨ts₀, n', htakes, rfl⟩ := ih hm
    exact ⟨t₀ :: ts₀, n', .cons hstep₀ htakes, rfl⟩

end Takes

end Cursor

/-! ### Tokens that stand together -/

/-- The tokens are not empty and follow each other. -/
structure Ordered (ts : List Token) : Prop where
  start_lt : ∀ t ∈ ts, t.span.start < t.span.stop
  pairwise : ts.Pairwise fun t u => t.span.stop ≤ u.span.start

/-- The span goes from the start of the first token to the end of the last one. -/
structure Spans (ts : List Token) (s : Span) : Prop where
  first : ∃ t us, ts = t :: us ∧ t.span.start = s.start
  last : ∃ us t, ts = us ++ [t] ∧ t.span.stop = s.stop

theorem spans_singleton (kind : Token.Kind) (s : Span) : Spans [⟨kind, s⟩] s :=
  ⟨⟨_, [], rfl, rfl⟩, ⟨[], _, rfl, rfl⟩⟩

theorem Ordered.of_part {ts us : List Token} (h : Ordered ts) (hus : us <:+: ts) : Ordered us :=
  ⟨fun t ht => h.start_lt t (hus.subset ht), h.pairwise.sublist hus.sublist⟩

/-- The span of tokens holds each of them. -/
theorem Spans.le_of_mem {ts : List Token} {s : Span} (hs : Spans ts s) (h : Ordered ts) {t : Token}
    (ht : t ∈ ts) : s.start ≤ t.span.start ∧ t.span.stop ≤ s.stop := by
  have hlt := h.start_lt t ht
  obtain ⟨⟨u, us, hfirst, hstart⟩, vs, v, hlast, hstop⟩ := hs
  constructor
  · rw [← hstart]
    subst hfirst
    have hfirst := h.start_lt u List.mem_cons_self
    rcases List.mem_cons.mp ht with rfl | ht
    · exact Nat.le_refl _
    · exact Nat.le_trans (Nat.le_of_lt hfirst) (List.rel_of_pairwise_cons h.pairwise ht)
  · rw [← hstop]
    subst hlast
    have hlast := h.start_lt v (by simp)
    rcases List.mem_append.mp ht with ht | ht
    · have hstep := (List.pairwise_append.mp h.pairwise).2.2 t ht v (List.mem_singleton_self v)
      omega
    · rw [List.mem_singleton.mp ht]

theorem Spans.start_lt {ts : List Token} {s : Span} (hs : Spans ts s) (h : Ordered ts) :
    s.start < s.stop := by
  obtain ⟨t, us, hfirst, -⟩ := hs.first
  have ht : t ∈ ts := by simp [hfirst]
  have hlt := h.start_lt t ht
  have hle := hs.le_of_mem h ht
  omega

/-- The span of tokens that are put together is the smallest one that holds the spans of the first
and of the last part. -/
theorem Spans.cover {ts us : List Token} {s s' : Span} (hs : Spans ts s) (mid : List Token)
    (hs' : Spans us s') (h : Ordered (ts ++ (mid ++ us))) :
    Spans (ts ++ (mid ++ us)) (s.cover s') := by
  obtain ⟨⟨t, ts', hts, hstart⟩, vs, v, hvs, hstop⟩ := hs
  obtain ⟨⟨u, us', hus, hstart'⟩, ws, w, hws, hstop'⟩ := hs'
  have hmemTs : t ∈ ts ∧ v ∈ ts := ⟨by simp [hts], by simp [hvs]⟩
  have hmemUs : u ∈ mid ++ us ∧ w ∈ mid ++ us := ⟨by simp [hus], by simp [hws]⟩
  have hbefore := (List.pairwise_append.mp h.pairwise).2.2
  have hle : s.start ≤ s'.start := by
    have hlt := h.start_lt t (List.mem_append_left _ hmemTs.1)
    have hstep := hbefore t hmemTs.1 u hmemUs.1
    omega
  have hle' : s.stop ≤ s'.stop := by
    have hlt := h.start_lt w (List.mem_append_right _ hmemUs.2)
    have hstep := hbefore v hmemTs.2 w hmemUs.2
    omega
  refine ⟨⟨t, ts' ++ (mid ++ us), by rw [hts, List.cons_append], ?_⟩,
    ts ++ (mid ++ ws), w, by rw [hws, List.append_assoc, List.append_assoc], ?_⟩
  · rw [hstart, Span.cover, Nat.min_eq_left hle]
  · rw [hstop', Span.cover, Nat.max_eq_right hle']

/-! ### Parts of a text -/

/-- The characters from the first to the last of some tokens, which can be taken from them alone. -/
theorem Cursor.Takes.exists_part {c c' : Cursor} {ts : List Token} {s : Span} (h : c.Takes ts c')
    (hs : Spans ts s) :
    ∃ layout part, c.rest = layout ++ (part ++ c'.rest) ∧
      s.start = c.offset + Text.bytes layout ∧ s.stop = s.start + Text.bytes part ∧
      (⟨part, s.start⟩ : Cursor).Takes ts ⟨[], s.stop⟩ := by
  obtain ⟨⟨t, us, rfl, hstart⟩, vs, v, hvs, hstop⟩ := hs
  have hoffset : c'.offset = s.stop := by
    rw [hvs] at h
    rw [h.offset_eq, hstop]
  cases h with
  | cons hstep hs =>
    obtain ⟨layout, cs, hrest, hfirst, hstep⟩ := hstep.exists_start
    have htakes := Cursor.Takes.cons hstep hs
    obtain ⟨part, hpart, hlength⟩ := htakes.exists_chars
    refine ⟨layout, part, ?_, ?_, ?_, ?_⟩
    · rw [hrest, ← hpart]
    · rw [← hstart, hfirst]
    · rw [← hoffset, hlength, hstart]
    · rw [← hstart, ← hoffset]
      exact htakes.of_append hpart rfl

section Texts

variable {text : String} {ts us : List Token} {s : Span}

/-- The tokens that are taken from the start of a text follow each other. -/
theorem Cursor.Takes.ordered {c : Cursor} (h : (Cursor.ofText text).Takes ts c) : Ordered ts := by
  have hlexed := @Cursor.Takes.lexed _ _ _ h [] [] c.rest rfl rfl .nil
  exact ⟨fun t ht => (hlexed.tokens t ht).start_lt, List.pairwise_map.mp hlexed.inOrder.pairwise⟩

theorem ordered_of_tokenize (h : tokenize text = ts.map .ok) : Ordered ts := by
  obtain ⟨c, htakes, -⟩ := Cursor.exists_takes_of_items h
  exact htakes.ordered

/-- **The tokens of a part of a text.** Tokens that stand together in a text are the tokens of the
part at their span, moved to their place. -/
theorem tokenize_slice (h : tokenize text = ts.map .ok) (hus : us <:+: ts) (hs : Spans us s) :
    Text.OnBoundaries s text.toList ∧
      ∃ us₀ : List Token, tokenize (String.ofList (Text.slice s text.toList)) = us₀.map .ok ∧
        us₀.map (Token.shift s.start) = us := by
  obtain ⟨before, after, rfl⟩ := hus
  obtain ⟨e, htakes, -⟩ := Cursor.exists_takes_of_items h
  obtain ⟨d, htakes, -⟩ := Cursor.Takes.append_iff.mp htakes
  obtain ⟨c, hbefore, hus⟩ := Cursor.Takes.append_iff.mp htakes
  obtain ⟨front, hfront, hoffset⟩ := hbefore.exists_chars
  obtain ⟨layout, part, hrest, hstart, hstop, hpart⟩ := hus.exists_part hs
  have htext : text.toList = front ++ layout ++ (part ++ d.rest) := by
    rw [List.append_assoc, ← hrest]
    exact hfront
  have hspan : s = ⟨Text.bytes (front ++ layout),
      Text.bytes (front ++ layout) + Text.bytes part⟩ := by
    obtain ⟨start, stop⟩ := s
    simp only [Text.bytes_append, Span.mk.injEq]
    simp only [Cursor.ofText] at hoffset hstart hstop
    omega
  obtain ⟨us₀, n, hus₀, rfl⟩ := hpart.exists_unshift (Nat.zero_add _).symm
  refine ⟨?_, us₀, ?_, rfl⟩
  · rw [hspan, htext]
    exact Text.onBoundaries_append _ _ _
  · rw [hspan, htext, Text.slice_append, tokenize, Cursor.ofText, String.toList_ofList,
      hus₀.items_eq]
    exact List.append_nil _

end Texts

end SqlPredicates
