import SqlPredicates.Proofs.Token.Coverage

/-!
# Where no token begins

The tokens of a text may end with an error. Such an error says what stands at its place: a character
that begins no token, the digits of a number that is too large, or a quote that is not closed. This
file shows that the text really holds that thing there, so that a message that quotes it, with a
caret below it, shows the part of the text that it is about.

Each reader of lexemes can fail in at most two ways, and each of them is a fault of what the reader
was given. The offset of the error counts the bytes in front of that, by `Cursor.Takes.exists_chars`.

## Main definitions

* `LexicalFault.Begins` — what a fault says about the text from its place on

## Main results

* `Lexeme.begins_of_read` — the front of a text at which no lexeme can be read
* `exists_begins_of_mem_tokenize` — the error that ends the tokens of a text
* `standsIn_of_mem_tokenize` — the tokens in front of it
-/

namespace SqlPredicates

/-- The text begins with what the fault is about: the character that was found; a quote, behind which
there is no other one of its kind; or digits, and no more digits behind them, that are the decimal
form of a number of more than 64 bits. -/
def LexicalFault.Begins (cs : List Char) : LexicalFault → Prop
  | .unexpectedCharacter found => ∃ rest, cs = found :: rest
  | .unterminatedString => ∃ (quote : Quote) (rest : List Char),
      cs = quote.char :: rest ∧ quote.char ∉ rest
  | .integerOverflow digits => ∃ rest, cs = digits ++ rest ∧ (∀ c ∈ digits, c.isDigit) ∧
      (∀ c ∈ rest.head?, ¬ c.isDigit) ∧ UInt64.size ≤ Binary64.digitsValue digits

/-! ### Lexemes -/

namespace Lexeme

variable {c : Char} {cs : List Char} {fault : LexicalFault}

theorem begins_of_integer
    (h : integer (cs.takeWhile Char.isDigit) (cs.dropWhile Char.isDigit) = .error fault) :
    fault.Begins cs := by
  rw [integer] at h
  split at h
  · cases h
  · next hlarge =>
    cases h
    refine ⟨cs.dropWhile Char.isDigit, List.takeWhile_append_dropWhile.symm, ?_, ?_,
      Nat.le_of_not_lt hlarge⟩
    · intro c hc
      exact List.mem_takeWhile_imp hc
    · intro c hc
      have hhead := List.head?_dropWhile_not Char.isDigit cs
      rw [Option.mem_def.mp hc] at hhead
      simpa using hhead

theorem begins_of_numeral (h : numeral cs = .error fault) : fault.Begins cs := by
  have happend : cs.takeWhile Char.isDigit ++ cs.dropWhile Char.isDigit = cs :=
    List.takeWhile_append_dropWhile
  rw [numeral] at h
  split at h
  · next tail htail =>
    dsimp only at h
    split at h
    · cases h
    split at h
    · next hwhole =>
      -- a point with digits on neither side
      cases h
      rw [List.isEmpty_iff.mp hwhole, htail] at happend
      exact ⟨tail, happend.symm⟩
    · exact begins_of_integer h
  · exact begins_of_integer h

theorem begins_of_quoted (quote : Quote) (h : quoted quote cs = .error fault) :
    fault.Begins (quote.char :: cs) := by
  rw [quoted] at h
  split at h
  · next hrest =>
    cases h
    refine ⟨quote, cs, rfl, fun hmem => ?_⟩
    simpa using List.dropWhile_eq_nil_iff.mp hrest _ hmem
  · cases h

/-- A bracket that is not closed counts as a character that begins no token. -/
theorem begins_of_bracketed (h : bracketed cs = .error fault) : fault.Begins ('[' :: cs) := by
  rw [bracketed] at h
  split at h
  · cases h
    exact ⟨cs, rfl⟩
  · cases h

theorem begins_of_symbol (h : symbol c cs = .error fault) : fault.Begins (c :: cs) := by
  have hshort : ∀ rest, shortSymbol c rest = .error fault → fault.Begins (c :: rest) := by
    intro rest h
    rw [shortSymbol] at h
    split at h
    · cases h
    · cases h
      exact ⟨rest, rfl⟩
  cases cs with
  | nil => exact hshort [] h
  | cons d cs =>
    rw [symbol] at h
    split at h
    · cases h
    · exact hshort _ h

/-- **Where no lexeme can be read** the text begins with what the fault is about. -/
theorem begins_of_read (h : read c cs = .error fault) : fault.Begins (c :: cs) := by
  rw [read] at h
  split at h
  · exact begins_of_numeral h
  split at h
  · next hc =>
    rw [beq_iff_eq.mp hc]
    exact begins_of_quoted .single h
  split at h
  · next hc =>
    rw [beq_iff_eq.mp hc]
    exact begins_of_quoted .double h
  split at h
  · next hc =>
    rw [beq_iff_eq.mp hc]
    exact begins_of_bracketed h
  split at h
  · cases h
  · exact begins_of_symbol h

end Lexeme

/-! ### Texts -/

variable {text : String}

/-- **The error that ends the tokens of a text** stands in front of what it is about. -/
theorem exists_begins_of_mem_tokenize {e : SyntaxError} (h : .error e ∈ tokenize text) :
    ∃ (fault : LexicalFault) (before rest : List Char), text.toList = before ++ rest ∧
      e = fault.toError (Text.bytes before) ∧ fault.Begins rest := by
  obtain ⟨ts, c, htakes, hend⟩ := (Cursor.ofText text).exists_takes
  obtain ⟨front, hfront, hoffset⟩ := htakes.exists_chars
  rw [tokenize, htakes.items_eq] at h
  rcases hend with hdone | ⟨e', d, hfault⟩
  · rw [hdone.items_eq_nil] at h
    simp at h
  · rw [hfault.items_of_error] at h
    obtain rfl : e = e' := by simpa using h
    cases hfault with
    | @fault layout cs first fault hrest _ _ hread =>
      refine ⟨fault, front ++ layout, first :: cs, ?_, ?_, Lexeme.begins_of_read hread⟩
      · rw [List.append_assoc, ← hrest]
        exact hfront
      · rw [hoffset, Text.bytes_append]
        exact congrArg (fun n => fault.toError (n + _)) (Nat.zero_add _)

theorem standsIn_of_mem_tokenize {t : Token} (h : .ok t ∈ tokenize text) :
    t.StandsIn text.toList := by
  obtain ⟨ts, fault, stop, hitems, -, hlexed⟩ := @Cursor.exists_lexed (Cursor.ofText text) [] rfl
  rw [tokenize, hitems] at h
  rcases List.mem_append.mp h with ht | he
  · obtain ⟨u, hu, heq⟩ := List.mem_map.mp ht
    exact Except.ok.inj heq ▸ hlexed.tokens u hu
  · cases fault <;> simp at he

end SqlPredicates
