import SqlPredicates.Proofs.Token.Items

/-!
# Texts put together from tokens

A canonical text is written token by token, and it has to be cut at the same places again. Whether
it is depends on what follows: a name goes on while its characters do, and two minus signs begin a
comment. `Cuts cs ks rest` says that the text `cs` begins with tokens of the kinds `ks`, after which
the lexer stands at `rest`. It is closed under putting texts one after the other, so a printer can
be followed clause by clause.

Names, numbers and keywords need to be told apart from what follows. In canonical texts that is
always a blank, a parenthesis or a comma, or nothing: `Apart`.

## Main definitions

* `Cuts` — a text that begins with given tokens
* `Apart` — a text that continues no name and no number

## Main results

* `cuts_digits`, `cuts_decimal`, `cuts_string`, `cuts_renderName`, `cuts_keyword`, `cuts_symbol` —
  the single tokens
* `Cuts.exists_items` — the items of a text that is made of tokens
-/

namespace SqlPredicates

/-- The text `cs` begins with tokens of the kinds `ks`, and `rest` follows them. -/
inductive Cuts : List Char → List Token.Kind → List Char → Prop
  | nil (cs : List Char) : Cuts cs [] cs
  | cons {cs layout cs' chars rest rest' : List Char} {c : Char} {kind : Token.Kind}
      {ks : List Token.Kind} (hlayout : splitLayout false cs = (layout, c :: cs'))
      (hread : Lexeme.read c cs' = .ok ⟨kind, chars, rest⟩) (hrest : Cuts rest ks rest') :
      Cuts cs (kind :: ks) rest'

/-- The characters after which a canonical text goes on with the next token. -/
def separators : List Char := [' ', '(', ')', ',']

/-- The text is empty or begins with a separator. -/
def Apart (cs : List Char) : Prop := ∀ c ∈ cs.head?, c ∈ separators

theorem apart_nil : Apart [] := by
  intro c hc
  cases hc

theorem apart_cons {c : Char} (hc : c ∈ separators) (cs : List Char) : Apart (c :: cs) := by
  intro d hd
  cases hd
  exact hc

namespace Cuts

variable {cs ds rest : List Char} {ks ls : List Token.Kind}

theorem append (h : Cuts cs ks ds) (h' : Cuts ds ls rest) : Cuts cs (ks ++ ls) rest := by
  induction h with
  | nil => exact h'
  | cons hlayout hread _ ih => exact .cons hlayout hread (ih h')

/-- A blank in front of a token is passed over. -/
theorem blank (h : Cuts cs ks rest) (hks : ks ≠ []) : Cuts (' ' :: cs) ks rest := by
  cases h with
  | nil => exact absurd rfl hks
  | @cons _ layout cs' _ _ _ c _ _ hlayout hread hrest =>
    have hblank : splitLayout false (' ' :: cs) = (' ' :: layout, c :: cs') := by
      rw [splitLayout, if_pos (by decide), hlayout]
      simp
    exact .cons hblank hread hrest

/-- The items of a text that is made of tokens. -/
theorem exists_items (h : Cuts cs ks []) (offset : ℕ) :
    ∃ ts : List Token, (⟨cs, offset⟩ : Cursor).items = ts.map .ok ∧ ts.map Token.kind = ks := by
  generalize hend : ([] : List Char) = rest at h
  induction h generalizing offset with
  | nil =>
    subst hend
    exact ⟨[], rfl, rfl⟩
  | @cons cs layout cs' chars rest rest' c kind ks hlayout hread _ ih =>
    let start := offset + Text.bytes layout
    let stop := start + Text.bytes chars
    obtain ⟨ts, hts, hkinds⟩ := ih stop hend
    have hnext : (⟨cs, offset⟩ : Cursor).next? =
        some (.ok ⟨kind, ⟨start, stop⟩⟩, ⟨rest, stop⟩) := by
      rw [Cursor.next?]
      simp only [hlayout, hread]
      rfl
    refine ⟨⟨kind, ⟨start, stop⟩⟩ :: ts, ?_, by rw [List.map_cons, hkinds]⟩
    rw [Cursor.items_eq, hnext, List.map_cons, ← hts]

end Cuts

/-! ### Single tokens -/

section Tokens

variable {c : Char} {cs rest : List Char}

/-- A lexeme at the front of a text that neither is blank nor begins a comment. -/
theorem cuts_of_read {kind : Token.Kind} {chars : List Char} (hc : isLayoutChar c = false)
    (hdash : c ≠ '-' ∨ cs.head? ≠ some '-') (hread : Lexeme.read c cs = .ok ⟨kind, chars, rest⟩) :
    Cuts (c :: cs) [kind] rest := by
  have hlayout : splitLayout false (c :: cs) = ([], c :: cs) := by
    rw [splitLayout, if_neg (by simp [hc])]
    rintro ds rfl rfl
    simp at hdash
  exact .cons hlayout hread (.nil rest)

/-- Characters of a class without blanks are no layout. -/
theorem isLayoutChar_eq_false {p : Char → Bool} (hp : [' ', '\t', '\n', '\r', '\x0c'].any p = false)
    (hc : p c) : isLayoutChar c = false := by
  refine Bool.eq_false_iff.mpr fun h => List.any_eq_false.mp hp c ?_ hc
  simpa only [isLayoutChar, Bool.or_eq_true, beq_iff_eq, or_assoc, List.mem_cons, List.not_mem_nil,
    or_false] using h

/-- A run of characters ends where the text is apart. -/
theorem takeWhile_of_apart {p : Char → Bool} (hcs : ∀ c ∈ cs, p c) (hrest : Apart rest)
    (hp : separators.any p = false) :
    (cs ++ rest).takeWhile p = cs ∧ (cs ++ rest).dropWhile p = rest :=
  takeWhile_of_head hcs fun c hc => List.any_eq_false.mp hp c (hrest c hc)

/-- Characters up to the one that ends them. -/
theorem takeWhile_ne {last : Char} (h : last ∉ cs) (rest : List Char) :
    (cs ++ last :: rest).takeWhile (· ≠ last) = cs ∧
      (cs ++ last :: rest).dropWhile (· ≠ last) = last :: rest := by
  have hcs : ∀ c ∈ cs, decide (c ≠ last) = true := by
    intro c hc
    exact decide_eq_true fun heq => h (heq ▸ hc)
  exact takeWhile_of_head hcs (by simp)

theorem cuts_string {value : Quoted} (h : value.quote.char ∉ value.text.toList) (rest : List Char) :
    Cuts (value.render.toList ++ rest) [.string value] rest := by
  have htext : value.render.toList ++ rest =
      value.quote.char :: (value.text.toList ++ value.quote.char :: rest) := by
    simp [Quoted.render]
  have hquoted : Lexeme.quoted value.quote (value.text.toList ++ value.quote.char :: rest) =
      .ok ⟨.string value, value.quote.char :: value.text.toList ++ [value.quote.char], rest⟩ := by
    obtain ⟨htake, hdrop⟩ := takeWhile_ne h rest
    rw [Lexeme.quoted, hdrop, htake]
    simp
  rw [htext]
  obtain ⟨text, quote⟩ := value
  cases quote with
  | single => exact cuts_of_read rfl (.inl (show '\'' ≠ '-' by decide)) hquoted
  | double => exact cuts_of_read rfl (.inl (show '"' ≠ '-' by decide)) hquoted

theorem numeral_of_apart {digits : List Char} (hdigits : ∀ d ∈ digits, d.isDigit)
    (hrest : Apart rest) :
    Lexeme.numeral (digits ++ rest) = Lexeme.integer digits rest := by
  obtain ⟨htake, hdrop⟩ := takeWhile_of_apart hdigits hrest (by decide)
  rw [Lexeme.numeral, htake, hdrop]
  cases rest with
  | nil => rfl
  | cons c rest =>
    have hpoint : c ≠ '.' := by
      rintro rfl
      exact absurd (hrest '.' rfl) (by decide)
    dsimp only
    split
    · next heq => exact absurd (List.cons.inj heq).1 hpoint
    · rfl

/-- The decimal text of a number has at least one digit, and its digits denote the number. -/
theorem exists_digits (n : ℕ) : ∃ d ds, (toString n).toList = d :: ds ∧
    (∀ c ∈ d :: ds, c.isDigit) ∧ Binary64.digitsValue (d :: ds) = n := by
  obtain ⟨d, ds, hds⟩ := List.exists_cons_of_ne_nil (Nat.toDigits_ne_nil (b := 10) (n := n))
  refine ⟨d, ds, ?_, ?_, ?_⟩
  · rw [← hds]
    exact Nat.toList_repr
  · intro c hc
    rw [← hds] at hc
    exact Nat.isDigit_of_mem_toDigits (by decide) (by decide) hc
  · rw [← hds]
    exact Nat.ofDigitChars_ten_toDigits

/-- A lexeme that begins with a digit. -/
theorem cuts_of_numeral {kind : Token.Kind} {chars : List Char} (hc : c.isDigit)
    (hread : Lexeme.numeral (c :: cs) = .ok ⟨kind, chars, rest⟩) : Cuts (c :: cs) [kind] rest := by
  rw [show Lexeme.numeral (c :: cs) = Lexeme.read c cs by
    rw [Lexeme.read, if_pos (by simp [hc])]] at hread
  refine cuts_of_read (isLayoutChar_eq_false (by decide) hc) (.inl ?_) hread
  rintro rfl
  exact absurd hc (by decide)

/-- Digits that denote a number of at most 64 bits. -/
theorem cuts_digits {digits : List Char} (hne : digits ≠ []) (hdigits : ∀ d ∈ digits, d.isDigit)
    (hvalue : Binary64.digitsValue digits < UInt64.size) (hrest : Apart rest) :
    Cuts (digits ++ rest) [.integer (UInt64.ofNat (Binary64.digitsValue digits))] rest := by
  have hread := numeral_of_apart hdigits hrest
  rw [Lexeme.integer, if_pos hvalue] at hread
  obtain ⟨d, ds, rfl⟩ := List.exists_cons_of_ne_nil hne
  exact cuts_of_numeral (hdigits d List.mem_cons_self) hread

theorem cuts_integer (value : UInt64) (hrest : Apart rest) :
    Cuts ((toString value.toNat).toList ++ rest) [.integer value] rest := by
  obtain ⟨d, ds, htext, hdigits, hvalue⟩ := exists_digits value.toNat
  have hcuts := cuts_digits (by simp) hdigits (by rw [hvalue]; exact value.toNat_lt) hrest
  rw [hvalue, UInt64.ofNat_toNat] at hcuts
  rw [htext]
  exact hcuts

/-- Digits on both sides of a point. -/
theorem cuts_decimal {whole fraction : List Char} (hwhole : whole ≠ []) (hfraction : fraction ≠ [])
    (hdigits : ∀ d ∈ whole ++ fraction, d.isDigit) (hrest : Apart rest) :
    Cuts (whole ++ '.' :: (fraction ++ rest)) [.decimal (Binary64.ofNumeral whole fraction)]
      rest := by
  obtain ⟨hdigitsWhole, hdigitsFraction⟩ := List.forall_mem_append.mp hdigits
  have hpoint : ¬ Char.isDigit '.' = true := by decide
  obtain ⟨htake, hdrop⟩ := takeWhile_of_apart hdigitsFraction hrest (by decide)
  have hread : Lexeme.numeral (whole ++ '.' :: (fraction ++ rest)) =
      .ok ⟨.decimal (Binary64.ofNumeral whole fraction), whole ++ '.' :: fraction, rest⟩ := by
    rw [Lexeme.numeral, List.takeWhile_append_of_pos hdigitsWhole,
      List.dropWhile_append_of_pos hdigitsWhole, List.takeWhile_cons_of_neg hpoint,
      List.dropWhile_cons_of_neg hpoint]
    simp only [htake, hdrop, List.append_nil]
    rw [if_pos (by simpa using hfraction)]
  obtain ⟨d, ds, rfl⟩ := List.exists_cons_of_ne_nil hwhole
  exact cuts_of_numeral (hdigitsWhole d List.mem_cons_self) hread

theorem isDigit_of_isIdentStart (h : isIdentStart c) : c.isDigit = false := by
  rw [isIdentStart] at h
  delta Char.isAlpha Char.isUpper Char.isLower at h
  simp [Char.isDigit, UInt32.le_iff_toNat_le, Char.ext_iff, UInt32.ext_iff] at h ⊢
  omega

/-- A word before a separator. -/
theorem read_word (hc : isIdentStart c) (hcs : cs.all isIdentPart) (hrest : Apart rest) :
    Lexeme.read c (cs ++ rest) =
      .ok ⟨Lexeme.wordKind (String.ofList (c :: cs)), c :: cs, rest⟩ := by
  have hne : ∀ d, isIdentStart d = false → c ≠ d := by
    rintro d hd rfl
    rw [hd] at hc
    cases hc
  have hnumeral : ¬ (c.isDigit || c == '.') = true := by
    simpa [isDigit_of_isIdentStart hc] using hne '.' rfl
  have hsingle : ¬ (c == '\'') = true := by simpa using hne '\'' rfl
  have hdouble : ¬ (c == '"') = true := by simpa using hne '"' rfl
  have hbracket : ¬ (c == '[') = true := by simpa using hne '[' rfl
  have hpart : ∀ d ∈ c :: cs, isIdentPart d :=
    List.forall_mem_cons.mpr ⟨by simp [isIdentPart, hc], List.all_eq_true.mp hcs⟩
  obtain ⟨htake, hdrop⟩ := takeWhile_of_apart hpart hrest (by decide)
  rw [Lexeme.read, if_neg hnumeral, if_neg hsingle, if_neg hdouble, if_neg hbracket, if_pos hc,
    ← List.cons_append, Lexeme.word, htake, hdrop]

theorem cuts_keyword (k : Keyword) (hrest : Apart rest) :
    Cuts (k.text.toList ++ rest) [.keyword k] rest := by
  cases k
  all_goals
    simp only [Keyword.text, String.reduceToList]
    exact cuts_of_read rfl (.inl (by decide)) (read_word rfl (by decide) hrest)

/-- The form of a name that is written without brackets. -/
theorem exists_of_isPlainName {name : String} (h : isPlainName name) :
    ∃ c cs, name.toList = c :: cs ∧ isIdentStart c ∧ cs.all isIdentPart ∧
      Keyword.ofWord? name = none := by
  rw [isPlainName, Bool.and_eq_true, Option.isNone_iff_eq_none] at h
  obtain ⟨hchars, hkeyword⟩ := h
  split at hchars
  · cases hchars
  · next c cs hname =>
    rw [Bool.and_eq_true] at hchars
    exact ⟨c, cs, hname, hchars.1, hchars.2, hkeyword⟩

theorem cuts_renderName {name : String} (h : ']' ∉ name.toList) (hrest : Apart rest) :
    Cuts ((renderName name).toList ++ rest) [.identifier name] rest := by
  rw [renderName]
  split
  · next hplain =>
    obtain ⟨c, cs, hname, hc, hcs, hkeyword⟩ := exists_of_isPlainName hplain
    have hread := read_word hc hcs hrest
    rw [← hname, String.ofList_toList, Lexeme.wordKind, hkeyword] at hread
    rw [hname]
    refine cuts_of_read (isLayoutChar_eq_false (by decide) hc) (.inl ?_) hread
    rintro rfl
    exact absurd hc (by decide)
  · have htext : ("[" ++ name ++ "]").toList ++ rest = '[' :: (name.toList ++ ']' :: rest) := by
      simp
    have hread : Lexeme.read '[' (name.toList ++ ']' :: rest) =
        .ok ⟨.identifier name, '[' :: name.toList ++ [']'], rest⟩ := by
      obtain ⟨htake, hdrop⟩ := takeWhile_ne h rest
      change Lexeme.bracketed _ = _
      rw [Lexeme.bracketed, hdrop, htake]
      simp
    rw [htext]
    exact cuts_of_read rfl (.inl (by decide)) hread

/-- A sign before a separator is no part of a longer one. -/
theorem symbol_of_apart (c : Char) (hrest : Apart rest) :
    Lexeme.symbol c rest = Lexeme.shortSymbol c rest := by
  cases rest with
  | nil => rfl
  | cons d ds =>
    have hd : d ∈ separators := hrest d rfl
    have hpair : Symbol.pair? c d = none := by
      rw [Symbol.pair?.eq_def]
      split
      all_goals first | rfl | exact absurd hd (by decide)
    rw [Lexeme.symbol, hpair]

/-- A symbol before a separator. -/
theorem cuts_symbol (sign : Symbol) (hrest : Apart rest) :
    Cuts (sign.text.toList ++ rest) [.symbol sign] rest := by
  have hdash : rest.head? ≠ some '-' := fun h => absurd (hrest '-' h) (by decide)
  cases sign with
  | doubleEqual | bangEqual | angles | lessEqual | greaterEqual | doubleAmp | doubleBar =>
    simp only [Symbol.text, String.reduceToList, List.cons_append, List.nil_append]
    exact cuts_of_read rfl (.inl (by decide)) rfl
  | _ =>
    simp only [Symbol.text, String.reduceToList, List.cons_append, List.nil_append]
    exact cuts_of_read rfl (.inr hdash) (symbol_of_apart _ hrest)

/-- A symbol that is not the first character of another one. -/
theorem cuts_single {sign : Symbol} (hc : isLayoutChar c = false)
    (hdash : c ≠ '-' ∨ rest.head? ≠ some '-') (hsingle : Symbol.single? c = some sign)
    (hpair : ∀ d, Symbol.pair? c d = none) (hread : ∀ cs, Lexeme.read c cs = Lexeme.symbol c cs) :
    Cuts (c :: rest) [.symbol sign] rest := by
  have hshort : Lexeme.shortSymbol c rest = .ok ⟨.symbol sign, [c], rest⟩ := by
    rw [Lexeme.shortSymbol, hsingle]
  have hsymbol : Lexeme.read c rest = .ok ⟨.symbol sign, [c], rest⟩ := by
    rw [hread, ← hshort]
    cases rest with
    | nil => rfl
    | cons d ds => rw [Lexeme.symbol, hpair d]
  exact cuts_of_read hc hdash hsymbol

theorem cuts_opening (rest : List Char) : Cuts ('(' :: rest) [.symbol .opening] rest :=
  cuts_single rfl (.inl (by decide)) rfl (fun _ => rfl) fun _ => rfl

theorem cuts_closing (rest : List Char) : Cuts (')' :: rest) [.symbol .closing] rest :=
  cuts_single rfl (.inl (by decide)) rfl (fun _ => rfl) fun _ => rfl

/-- A minus sign, unless another one follows. -/
theorem cuts_minus (h : rest.head? ≠ some '-') : Cuts ('-' :: rest) [.symbol .minus] rest :=
  cuts_single rfl (.inr h) rfl (fun _ => rfl) fun _ => rfl

end Tokens

end SqlPredicates
