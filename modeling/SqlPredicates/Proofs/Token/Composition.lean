import SqlPredicates.Proofs.Token.Slices

/-!
# Cutting a text behind a token

The lexer has no memory. It goes on from the end of a token as from the start of a text, and a token
that has ended does not depend on what follows it. So a text can be cut at the end of each of its
tokens: the two parts have the tokens that the text has before and behind the cut, and blanks or
comments can be put in between.

Without a blank at the cut this would fail in one direction. A text may be put together from `<` and
`>`, or from two minus signs, and then has other tokens than its parts. A blank ends every lexeme
before it: `Lexeme.read_append`, which is the converse of `Lexeme.read_of_append`.

## Main definitions

* `TokenItem.move` — a token or an error with its offsets replaced
* `TokenItem.EndsBy` — a token that ends at or before an offset
* `Text.front`, `Text.back` — the two parts of a text that is cut
* `IsSpacing`, `Separates` — what can be put between tokens

## Main results

* `Cursor.items_move` — the place of a text does not matter for its items
* `Lexeme.read_append` — a blank ends a lexeme
* `IsSpacing.items_append` — blanks and whole comments are passed over
* `tokenize_cut` — the items of a text that is cut behind a token
-/

namespace SqlPredicates

/-! ### Moving items -/

/-- The error with its offset replaced. An empty input has none. -/
def SyntaxError.move (f : ℕ → ℕ) : SyntaxError → SyntaxError
  | .unexpectedCharacter offset found => .unexpectedCharacter (f offset) found
  | .unterminatedString offset => .unterminatedString (f offset)
  | .integerOverflow offset digits => .integerOverflow (f offset) digits
  | .unexpected offset expected found => .unexpected (f offset) expected found
  | .weightOutOfRange offset value => .weightOutOfRange (f offset) value
  | .nestingTooDeep offset => .nestingTooDeep (f offset)
  | .emptyInput => .emptyInput

namespace TokenItem

/-- The token or the error with all its offsets replaced. -/
def move (f : ℕ → ℕ) : TokenItem → TokenItem
  | .ok t => .ok ⟨t.kind, ⟨f t.span.start, f t.span.stop⟩⟩
  | .error e => .error (e.move f)

/-- The item is a token that ends at or before `k`. -/
def EndsBy (k : ℕ) : TokenItem → Prop
  | .ok t => t.span.stop ≤ k
  | .error _ => False

instance (k : ℕ) : DecidablePred (EndsBy k)
  | .ok t => inferInstanceAs (Decidable (t.span.stop ≤ k))
  | .error _ => inferInstanceAs (Decidable False)

theorem move_move (f g : ℕ → ℕ) (item : TokenItem) : move f (move g item) = move (f ∘ g) item := by
  match item with
  | .ok t => rfl
  | .error e => cases e <;> rfl

theorem map_move_map_move (f g : ℕ → ℕ) (items : List TokenItem) :
    (items.map (move g)).map (move f) = items.map (move (f ∘ g)) := by
  rw [List.map_map]
  exact List.map_congr_left fun item _ => move_move f g item

end TokenItem

theorem LexicalFault.move_toError (f : ℕ → ℕ) (offset : ℕ) (fault : LexicalFault) :
    (fault.toError offset).move f = fault.toError (f offset) := by
  cases fault <;> rfl

namespace Cursor

/-- A step that is taken at another offset. -/
theorem Next.move {cs : List Char} {offset : ℕ} {r : Option (TokenItem × Cursor)}
    (h : (⟨cs, offset⟩ : Cursor).Next r) (n : ℕ) :
    (⟨cs, offset + n⟩ : Cursor).Next
      (r.map fun next => (TokenItem.move (· + n) next.1, ⟨next.2.rest, next.2.offset + n⟩)) := by
  have hright : ∀ m, offset + n + m = offset + m + n := fun m => Nat.add_right_comm offset n m
  cases h with
  | done h => exact .done h
  | fault hrest hlayout hends hread =>
    have hstep := @Next.fault ⟨cs, offset + n⟩ _ _ _ _ hrest hlayout hends hread
    simp only [hright] at hstep
    simp only [Option.map_some, TokenItem.move, LexicalFault.move_toError]
    exact hstep
  | token hrest hlayout hends hread =>
    have hstep := @Next.token ⟨cs, offset + n⟩ _ _ _ _ hrest hlayout hends hread
    simp only [hright, Nat.add_right_comm _ n] at hstep
    exact hstep

theorem itemsWithin_move (m : ℕ) (cs : List Char) (offset n : ℕ) :
    (⟨cs, offset + n⟩ : Cursor).itemsWithin m =
      ((⟨cs, offset⟩ : Cursor).itemsWithin m).map (TokenItem.move (· + n)) := by
  induction m generalizing cs offset with
  | zero => rfl
  | succ m ih =>
    rw [itemsWithin, itemsWithin, next?_eq_iff.mpr ((next?_eq_iff.mp rfl).move n)]
    cases (⟨cs, offset⟩ : Cursor).next? with
    | none => rfl
    | some r => exact congrArg _ (ih r.2.rest r.2.offset)

/-- **The place of a text does not matter for its items**, which only move with it. -/
theorem items_move (cs : List Char) (offset n : ℕ) :
    (⟨cs, offset + n⟩ : Cursor).items =
      (⟨cs, offset⟩ : Cursor).items.map (TokenItem.move (· + n)) :=
  itemsWithin_move cs.length cs offset n

end Cursor

/-! ### A blank ends a lexeme -/

/-- A run of characters that does not reach the end of a text, or that the next character does not
belong to, is the same in a longer text. -/
theorem takeWhile_append_of_ends {p : Char → Bool} {cs tail : List Char}
    (h : cs.dropWhile p ≠ [] ∨ ∀ c ∈ tail.head?, ¬ p c = true) :
    (cs ++ tail).takeWhile p = cs.takeWhile p ∧
      (cs ++ tail).dropWhile p = cs.dropWhile p ++ tail := by
  have hrun : ∀ c ∈ cs.takeWhile p, p c = true := fun c => List.mem_takeWhile_imp
  have hends : ∀ c ∈ (cs.dropWhile p ++ tail).head?, ¬ p c = true := by
    intro c hc
    have hhead := List.head?_dropWhile_not p cs
    cases hdrop : cs.dropWhile p with
    | nil =>
      rw [hdrop] at hc
      exact (h.resolve_left fun hne => hne hdrop) c hc
    | cons d ds =>
      rw [hdrop] at hc hhead
      cases hc
      simpa using hhead
  have hsplit := takeWhile_of_head hrun hends
  rwa [← List.append_assoc, List.takeWhile_append_dropWhile] at hsplit

theorem takeWhile_append_of_cons {p : Char → Bool} {cs rest : List Char} {c : Char}
    (h : cs.dropWhile p = c :: rest) (tail : List Char) :
    (cs ++ tail).takeWhile p = cs.takeWhile p ∧ (cs ++ tail).dropWhile p = c :: (rest ++ tail) := by
  have hne : cs.dropWhile p ≠ [] := by
    rw [h]
    exact List.cons_ne_nil c rest
  obtain ⟨hrun, hdrop⟩ := @takeWhile_append_of_ends p cs tail (.inl hne)
  exact ⟨hrun, by rw [hdrop, h, List.cons_append]⟩

/-- No symbol of two characters ends with a blank. -/
theorem Symbol.pair?_blank {blank : Char} (hblank : blank ∈ blanks) (c : Char) :
    Symbol.pair? c blank = none := by
  unfold Symbol.pair?
  split
  case h_8 => rfl
  all_goals exact absurd hblank (by decide)

namespace Lexeme

variable {c blank : Char} {cs tail : List Char} {l : Lexeme}

theorem numeral_append (hblank : blank ∈ blanks) (h : numeral cs = .ok l) :
    numeral (cs ++ blank :: tail) = .ok { l with rest := l.rest ++ blank :: tail } := by
  have hdigit : ∀ d ∈ (blank :: tail).head?, ¬ d.isDigit = true := by
    rintro d ⟨⟩
    exact List.any_eq_false.mp (show blanks.any Char.isDigit = false by decide) blank hblank
  have hruns : ∀ ds : List Char,
      (ds ++ blank :: tail).takeWhile Char.isDigit = ds.takeWhile Char.isDigit ∧
        (ds ++ blank :: tail).dropWhile Char.isDigit =
          ds.dropWhile Char.isDigit ++ blank :: tail :=
    fun ds => takeWhile_append_of_ends (.inr hdigit)
  rcases numeral_eq_ok_iff.mp h with ⟨rest, hrest, hfraction, rfl⟩ | ⟨hpoint, hinteger⟩
  · refine numeral_eq_ok_iff.mpr (.inl ⟨rest ++ blank :: tail, ?_, ?_, ?_⟩)
    · rw [(hruns cs).2, hrest, List.cons_append]
    · rw [(hruns rest).1]
      exact hfraction
    · rw [(hruns cs).1, (hruns rest).1, (hruns rest).2]
  · obtain ⟨-, hrest, -⟩ := integer_eq_ok hinteger
    refine numeral_eq_ok_iff.mpr (.inr ⟨fun rest hpointed => ?_, ?_⟩)
    · -- the blank is no point, so a point behind the digits was there before
      rw [(hruns cs).2] at hpointed
      cases hdrop : cs.dropWhile Char.isDigit with
      | nil =>
        rw [hdrop, List.nil_append, List.cons.injEq] at hpointed
        exact absurd (hpointed.1 ▸ hblank) (by decide)
      | cons d ds =>
        rw [hdrop, List.cons_append, List.cons.injEq] at hpointed
        obtain ⟨rfl, rfl⟩ := hpointed
        rw [(hruns cs).1, (hruns ds).1]
        exact hpoint ds hdrop
    · rw [(hruns cs).1, (hruns cs).2, hrest]
      exact integer_of_ok hinteger _

theorem quoted_append {quote : Quote} (h : quoted quote cs = .ok l) (tail : List Char) :
    quoted quote (cs ++ tail) = .ok { l with rest := l.rest ++ tail } := by
  rw [quoted] at h ⊢
  split at h
  · cases h
  · next q rest hrest =>
    cases h
    obtain ⟨hbody, hdrop⟩ := takeWhile_append_of_cons hrest tail
    rw [hdrop, hbody]

theorem bracketed_append (h : bracketed cs = .ok l) (tail : List Char) :
    bracketed (cs ++ tail) = .ok { l with rest := l.rest ++ tail } := by
  rw [bracketed] at h ⊢
  split at h
  · cases h
  · next b rest hrest =>
    cases h
    obtain ⟨hbody, hdrop⟩ := takeWhile_append_of_cons hrest tail
    rw [hdrop, hbody]

theorem word_append (hblank : blank ∈ blanks) (cs tail : List Char) :
    word (cs ++ blank :: tail) = { word cs with rest := (word cs).rest ++ blank :: tail } := by
  have hpart : ∀ d ∈ (blank :: tail).head?, ¬ isIdentPart d = true := by
    rintro d ⟨⟩
    exact List.any_eq_false.mp (show blanks.any isIdentPart = false by decide) blank hblank
  obtain ⟨hchars, hrest⟩ := @takeWhile_append_of_ends _ cs (blank :: tail) (.inr hpart)
  rw [word, word, hchars, hrest]

theorem symbol_append (hblank : blank ∈ blanks) (h : symbol c cs = .ok l) :
    symbol c (cs ++ blank :: tail) = .ok { l with rest := l.rest ++ blank :: tail } := by
  rcases symbol_eq_ok_iff.mp h with ⟨d, rest, sign, rfl, hsign, rfl⟩ | ⟨hpair, hshort⟩
  · exact symbol_eq_ok_iff.mpr (.inl ⟨d, rest ++ blank :: tail, sign, rfl, hsign, rfl⟩)
  · obtain ⟨hrest, hlonger⟩ := shortSymbol_of_ok hshort (cs ++ blank :: tail)
    refine symbol_eq_ok_iff.mpr (.inr ⟨fun d rest hd => ?_, ?_⟩)
    · cases cs with
      | nil =>
        cases hd
        exact Symbol.pair?_blank hblank c
      | cons d' ds =>
        cases hd
        exact hpair d ds rfl
    · rw [hrest]
      exact hlonger

/-- **A blank ends a lexeme.** A lexeme that is read in a text is also read if a blank, and whatever
else, is put behind that text. -/
theorem read_append (hblank : blank ∈ blanks) (h : read c cs = .ok l) (tail : List Char) :
    read c (cs ++ blank :: tail) = .ok { l with rest := l.rest ++ blank :: tail } := by
  refine read_of_readers h (fun h => ?_) (fun quote h => quoted_append h _)
    (fun h => bracketed_append h _) (fun h => ?_) fun h => symbol_append hblank h
  · exact numeral_append hblank h
  · subst h
    exact word_append hblank (c :: cs) tail

end Lexeme

theorem EndsLayout.append {blank : Char} {cs : List Char} (h : EndsLayout cs) (hne : cs ≠ [])
    (hblank : blank ∈ blanks) (tail : List Char) : EndsLayout (cs ++ blank :: tail) := by
  obtain ⟨c, cs, rfl⟩ := List.exists_cons_of_ne_nil hne
  refine ⟨h.not_blank, ?_⟩
  rintro ⟨ds, hds⟩
  cases cs with
  | nil =>
    -- the second character is the blank and no minus sign
    cases hds
    exact absurd hblank (by decide)
  | cons d cs =>
    cases hds
    exact h.not_comment ⟨cs, rfl⟩

namespace Cursor

variable {c c' : Cursor} {t : Token} {ts : List Token} {blank : Char}

theorem Next.append (h : c.Next (some (.ok t, c'))) (hblank : blank ∈ blanks) (tail : List Char) :
    (⟨c.rest ++ blank :: tail, c.offset⟩ : Cursor).Next
      (some (.ok t, ⟨c'.rest ++ blank :: tail, c'.offset⟩)) := by
  cases h with
  | @token layout cs first l hrest hlayout hends hread =>
    have hlonger : c.rest ++ blank :: tail = layout ++ first :: (cs ++ blank :: tail) := by
      rw [hrest, List.append_assoc, List.cons_append]
    have hlayout' : IsLayout (first :: (cs ++ blank :: tail)) layout := hlayout.congr_head rfl
    have hends' := hends.append (List.cons_ne_nil first cs) hblank tail
    have hread' := Lexeme.read_append hblank hread tail
    exact @Next.token ⟨c.rest ++ blank :: tail, c.offset⟩ _ _ _ _ hlonger hlayout' hends' hread'

/-- Tokens that are taken from a text are also taken if a blank, and whatever else, is put behind
it. -/
theorem Takes.append (h : c.Takes ts c') (hblank : blank ∈ blanks) (tail : List Char) :
    (⟨c.rest ++ blank :: tail, c.offset⟩ : Cursor).Takes ts
      ⟨c'.rest ++ blank :: tail, c'.offset⟩ := by
  induction h with
  | nil c => exact .nil _
  | cons hstep _ ih => exact .cons (hstep.append hblank tail) ih

end Cursor

/-! ### Blanks and comments between tokens -/

/-- Blanks and whole comments, each with the line feed that ends it. Other than a layout, which may
end with an open comment, this can stand in front of every text. -/
inductive IsSpacing : List Char → Prop
  | nil : IsSpacing []
  | blank {c : Char} {cs : List Char} (hc : c ∈ blanks) (h : IsSpacing cs) : IsSpacing (c :: cs)
  | comment {body cs : List Char} (hbody : '\n' ∉ body) (h : IsSpacing cs) :
      IsSpacing ('-' :: '-' :: (body ++ '\n' :: cs))

/-- A blank, and then blanks and whole comments. -/
def Separates (layout : List Char) : Prop :=
  ∃ c cs, layout = c :: cs ∧ c ∈ blanks ∧ IsSpacing cs

theorem Separates.isSpacing {layout : List Char} (h : Separates layout) : IsSpacing layout := by
  obtain ⟨c, cs, rfl, hc, hcs⟩ := h
  exact .blank hc hcs

namespace IsSpacing

variable {layout : List Char}

theorem splitLayout_append (h : IsSpacing layout) (cs : List Char) :
    splitLayout false (layout ++ cs) =
      (layout ++ (splitLayout false cs).1, (splitLayout false cs).2) := by
  induction h with
  | nil => rfl
  | @blank c ds hc _ ih =>
    rw [List.cons_append, splitLayout, if_pos (isLayoutChar_iff.mpr hc), ih, List.cons_append]
    rintro ds rfl -
    exact absurd hc (by decide)
  | @comment body ds hbody _ ih =>
    have hline : splitLayout true ('\n' :: (ds ++ cs)) =
        ('\n' :: (ds ++ (splitLayout false cs).1), (splitLayout false cs).2) := by
      rw [splitLayout, decide_eq_false (not_not_intro rfl), ih]
    rw [List.cons_append, List.cons_append, List.append_assoc, List.cons_append, splitLayout,
      splitLayout_true_append hbody, hline]
    simp

/-- **Blanks and whole comments are passed over.** -/
theorem items_append (h : IsSpacing layout) (cs : List Char) (offset : ℕ) :
    (⟨layout ++ cs, offset⟩ : Cursor).items =
      (⟨cs, offset + Text.bytes layout⟩ : Cursor).items := by
  have hnext : (⟨layout ++ cs, offset⟩ : Cursor).next? =
      (⟨cs, offset + Text.bytes layout⟩ : Cursor).next? := by
    simp only [Cursor.next?, h.splitLayout_append, Text.bytes_append, Nat.add_assoc]
  rw [Cursor.items_eq, hnext, ← Cursor.items_eq]

end IsSpacing

/-! ### Cutting a text -/

/-- The text before an offset. -/
def Text.front (k : ℕ) (text : String) : String := String.ofList (takeBytes k text.toList)

/-- The text from an offset on. -/
def Text.back (k : ℕ) (text : String) : String := String.ofList (dropBytes k text.toList)

namespace Cursor

variable {c c' : Cursor} {t : Token} {ts : List Token}

/-- A token among the items is taken after those before it. -/
theorem exists_takes_of_mem (h : .ok t ∈ c.items) :
    ∃ ts c', c.Takes (ts ++ [t]) c' ∧ c'.offset = t.span.stop := by
  obtain ⟨us, d, htakes, hend⟩ := c.exists_takes
  have hmem : t ∈ us := by
    rw [htakes.items_eq, List.mem_append] at h
    rcases h with h | h
    · simpa using h
    · -- what follows the tokens is nothing or an error
      rcases hend with hdone | ⟨e, d', hfault⟩
      · rw [hdone.items_eq_nil] at h
        cases h
      · rw [hfault.items_of_error] at h
        simp at h
  obtain ⟨ts, vs, rfl⟩ := List.append_of_mem hmem
  rw [List.append_cons] at htakes
  obtain ⟨c', htakes, -⟩ := Takes.append_iff.mp htakes
  exact ⟨ts, c', htakes, htakes.offset_eq⟩

/-- The tokens that have been taken end at or before the place that was reached. -/
theorem Takes.stop_le (h : c.Takes ts c') : ∀ t ∈ ts, t.span.stop ≤ c'.offset := by
  intro t ht
  obtain ⟨us, vs, rfl⟩ := List.append_of_mem ht
  rw [List.append_cons] at h
  obtain ⟨d, hus, hvs⟩ := Takes.append_iff.mp h
  obtain ⟨cs, -, hoffset⟩ := hvs.exists_chars
  rw [hoffset, hus.offset_eq]
  exact Nat.le_add_right _ _

theorem Next.offset_lt (h : c.Next (some (.ok t, c'))) : c.offset < c'.offset := by
  cases h with
  | token hrest hlayout hends hread =>
    have hpos := Text.bytes_pos (Lexeme.append_of_read hread).2.1
    show c.offset < c.offset + _ + _
    omega

/-- No token among the items ends at or before the place from which they are read. -/
theorem offset_lt_of_mem (h : .ok t ∈ c.items) : c.offset < t.span.stop := by
  obtain ⟨ts, c', htakes, hstop⟩ := exists_takes_of_mem h
  obtain ⟨d, hts, hlast⟩ := Takes.append_iff.mp htakes
  obtain ⟨cs, -, hoffset⟩ := hts.exists_chars
  cases hlast with
  | cons hstep hs =>
    cases hs
    have hlt := hstep.offset_lt
    omega

/-- The items up to a place that is reached are the tokens that end by its offset. -/
theorem Takes.filter_items (h : c.Takes ts c') :
    c.items.filter (TokenItem.EndsBy c'.offset) = ts.map .ok ∧
      c.items.filter (fun item => ¬ TokenItem.EndsBy c'.offset item) = c'.items := by
  have htaken : ∀ item ∈ ts.map .ok, TokenItem.EndsBy c'.offset item := by
    intro item hitem
    obtain ⟨t, ht, rfl⟩ := List.mem_map.mp hitem
    exact h.stop_le t ht
  have hleft : ∀ item ∈ c'.items, ¬ TokenItem.EndsBy c'.offset item := by
    intro item hitem
    match item with
    | .ok t => exact Nat.not_le_of_lt (offset_lt_of_mem hitem)
    | .error e => exact id
  rw [h.items_eq, List.filter_append, List.filter_append]
  constructor
  · have hnone : c'.items.filter (TokenItem.EndsBy c'.offset) = [] :=
      List.filter_eq_nil_iff.mpr (by simpa using hleft)
    rw [hnone, List.append_nil]
    exact List.filter_eq_self.mpr fun item hitem => decide_eq_true (htaken item hitem)
  · have hnone : (ts.map .ok).filter (fun item => ¬ TokenItem.EndsBy c'.offset item) = [] :=
      List.filter_eq_nil_iff.mpr (by simpa using htaken)
    rw [hnone, List.nil_append]
    exact List.filter_eq_self.mpr fun item hitem => decide_eq_true (hleft item hitem)

/-- The items of a text in which blanks or whole comments follow the last token. -/
theorem Takes.items_insert {cs layout : List Char} {offset k : ℕ}
    (h : (⟨cs, offset⟩ : Cursor).Takes ts ⟨[], k⟩) (hlayout : Separates layout)
    (rest : List Char) :
    (⟨cs ++ (layout ++ rest), offset⟩ : Cursor).items =
      ts.map .ok ++ (⟨rest, k + Text.bytes layout⟩ : Cursor).items := by
  rw [← hlayout.isSpacing.items_append]
  obtain ⟨blank, layout, rfl, hblank, -⟩ := hlayout
  exact (h.append hblank (layout ++ rest)).items_eq

end Cursor

section Texts

variable {text : String}

/-- Where a text is cut, in terms of the places of the lexer. -/
theorem exists_takes_of_mem_tokenize {k : ℕ} (hk : ∃ t, .ok t ∈ tokenize text ∧ t.span.stop = k) :
    ∃ ts cs rest, text.toList = cs ++ rest ∧ Text.bytes cs = k ∧
      (Cursor.ofText text).Takes ts ⟨rest, k⟩ ∧ (⟨cs, 0⟩ : Cursor).Takes ts ⟨[], k⟩ := by
  obtain ⟨t, ht, rfl⟩ := hk
  obtain ⟨ts, c, htakes, hoffset⟩ := Cursor.exists_takes_of_mem ht
  obtain ⟨cs, htext, hbytes⟩ := htakes.exists_chars
  have hfront := @Cursor.Takes.of_append _ c _ cs [] c.rest htakes htext rfl
  refine ⟨ts ++ [t], cs, c.rest, htext, ?_, ?_, ?_⟩
  · rw [← hoffset, hbytes]
    exact (Nat.zero_add _).symm
  · rw [← hoffset]
    exact htakes
  · rw [← hoffset]
    exact hfront

/-- **Lexing is compositional at the ends of tokens.** A text is cut at the end `k` of one of its
tokens. The part before the cut has the tokens of the text that end by `k`, and no error. The part
behind it has the other items, which may end with an error, at offsets that count from `k`. Blanks
and whole comments between the parts, of which the first character is a blank, only move the items
behind the cut: the kinds of the tokens and the error are those of the text. -/
theorem tokenize_cut (k : ℕ) (hk : ∃ t, .ok t ∈ tokenize text ∧ t.span.stop = k) :
    Text.IsBoundary k text.toList ∧
      tokenize (Text.front k text) = (tokenize text).filter (TokenItem.EndsBy k) ∧
      (tokenize (Text.back k text)).map (TokenItem.move (· + k)) =
        (tokenize text).filter (fun item => ¬ TokenItem.EndsBy k item) ∧
      ∀ layout : String, Separates layout.toList →
        tokenize (Text.front k text ++ layout ++ Text.back k text) =
            tokenize (Text.front k text) ++
              (tokenize (Text.back k text)).map
                (TokenItem.move (· + (k + Text.bytes layout.toList))) ∧
          (tokenize (Text.front k text ++ layout ++ Text.back k text)).map
              (TokenItem.move fun _ => 0) =
            (tokenize text).map (TokenItem.move fun _ => 0) := by
  obtain ⟨ts, cs, rest, htext, rfl, htakes, htakesFront⟩ := exists_takes_of_mem_tokenize hk
  have hfront : Text.front (Text.bytes cs) text = String.ofList cs := by
    rw [Text.front, htext, Text.takeBytes_append]
  have hback : Text.back (Text.bytes cs) text = String.ofList rest := by
    rw [Text.back, htext, Text.dropBytes_append]
  have hitemsFront : tokenize (String.ofList cs) = ts.map .ok := by
    rw [tokenize, Cursor.ofText, String.toList_ofList, htakesFront.items_eq]
    exact List.append_nil _
  have hitemsBack : ∀ n, (tokenize (String.ofList rest)).map (TokenItem.move (· + n)) =
      (⟨rest, n⟩ : Cursor).items := by
    intro n
    rw [tokenize, Cursor.ofText, String.toList_ofList, ← Cursor.items_move, Nat.zero_add]
  have hitems : tokenize text = ts.map .ok ++
      (tokenize (String.ofList rest)).map (TokenItem.move (· + Text.bytes cs)) := by
    rw [hitemsBack]
    exact htakes.items_eq
  obtain ⟨hbefore, hbehind⟩ := htakes.filter_items
  rw [hfront, hback, hitemsFront, hitemsBack]
  refine ⟨?_, hbefore.symm, hbehind.symm, fun layout hlayout => ?_⟩
  · rw [htext]
    exact Text.isBoundary_append cs rest
  · have hinserted : tokenize (String.ofList cs ++ layout ++ String.ofList rest) =
        ts.map .ok ++ (tokenize (String.ofList rest)).map
          (TokenItem.move (· + (Text.bytes cs + Text.bytes layout.toList))) := by
      rw [hitemsBack, ← htakesFront.items_insert hlayout rest, tokenize, Cursor.ofText]
      simp
    refine ⟨hinserted, ?_⟩
    rw [hinserted, hitems, List.map_append, List.map_append, TokenItem.map_move_map_move,
      TokenItem.map_move_map_move]
    rfl

/-- A cut between `<>` and `=`, in a text that ends with an error. -/
theorem tokenize_cut_anglesEqual :
    .ok ⟨.symbol .angles, ⟨4, 6⟩⟩ ∈ tokenize "'é'<>=1.x" ∧ Separates " --c\n".toList ∧
      tokenize "'é'<>" = (tokenize "'é'<>=1.x").filter (TokenItem.EndsBy 6) ∧
      (tokenize "=1.x").map (TokenItem.move (· + 6)) =
        [.ok ⟨.symbol .equal, ⟨6, 7⟩⟩, .ok ⟨.integer 1, ⟨7, 8⟩⟩,
          .error (.unexpectedCharacter 8 '.')] ∧
      tokenize "'é'<> --c\n=1.x" =
        tokenize "'é'<>" ++ (tokenize "=1.x").map (TokenItem.move (· + 11)) ∧
      (tokenize "'é'<> --c\n=1.x").map (TokenItem.move fun _ => 0) =
        (tokenize "'é'<>=1.x").map (TokenItem.move fun _ => 0) := by
  have hmem : .ok ⟨.symbol .angles, ⟨4, 6⟩⟩ ∈ tokenize "'é'<>=1.x" := by decide
  have hlayout : Separates " --c\n".toList :=
    ⟨' ', _, rfl, by decide, @IsSpacing.comment ['c'] [] (by decide) .nil⟩
  have hfront : Text.front 6 "'é'<>=1.x" = "'é'<>" := by decide
  have hback : Text.back 6 "'é'<>=1.x" = "=1.x" := by decide
  have hbehind : (tokenize "'é'<>=1.x").filter (fun item => ¬ TokenItem.EndsBy 6 item) =
      [.ok ⟨.symbol .equal, ⟨6, 7⟩⟩, .ok ⟨.integer 1, ⟨7, 8⟩⟩,
        .error (.unexpectedCharacter 8 '.')] := by
    decide
  obtain ⟨-, hitemsFront, hitemsBack, hinsert⟩ :=
    @tokenize_cut "'é'<>=1.x" 6 ⟨_, hmem, rfl⟩
  obtain ⟨hinserted, hkinds⟩ := hinsert _ hlayout
  rw [hfront, hback] at hinserted hkinds
  rw [hfront] at hitemsFront
  rw [hback, hbehind] at hitemsBack
  exact ⟨hmem, hlayout, hitemsFront, hitemsBack, hinserted, hkinds⟩

end Texts

end SqlPredicates
