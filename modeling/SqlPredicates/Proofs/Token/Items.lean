import SqlPredicates.Token.Lexer
import Mathlib.Data.List.TakeWhile
import Mathlib.Tactic.Common

/-!
# The tokens of a text

A lexeme is a nonempty part of the text at its front, so the number of characters bounds the number
of tokens, and the bound that `Cursor.items` is defined with never cuts the list short. This file
proves that once, as `Cursor.items_eq`. It also records what the reader of lexemes guarantees about
names and string literals: they do not contain the character that would have ended them.

## Main definitions

* `Token.Kind.Lexical` — names and strings without the character that ends them

## Main results

* `Lexeme.append_of_read` — a lexeme and what follows it are the text
* `Cursor.items_eq` — the items from a place on are the next item and the items after it
* `lexical_of_mem_tokenize` — the tokens of every text are lexical
-/

namespace SqlPredicates

/-- What can be cut out of a text: a name has no closing bracket, a string has not its own quote, and
the end of the input is no part of the text. -/
def Token.Kind.Lexical : Token.Kind → Prop
  | .identifier name => ']' ∉ name.toList
  | .string value => value.quote.char ∉ value.text.toList
  | .endOfInput => False
  | _ => True

/-- What a text is cut into: tokens, and the error at a place where there is none. -/
def LexicalItem : TokenItem → Prop
  | .ok t => t.kind.Lexical
  | .error e => ∃ (fault : LexicalFault) (offset : ℕ), e = fault.toError offset

/-- A run of characters of one class ends where none of that class follows. -/
theorem takeWhile_of_head {p : Char → Bool} {cs rest : List Char} (hcs : ∀ c ∈ cs, p c = true)
    (hrest : ∀ c ∈ rest.head?, ¬ p c = true) :
    (cs ++ rest).takeWhile p = cs ∧ (cs ++ rest).dropWhile p = rest := by
  rw [List.takeWhile_append_of_pos hcs, List.dropWhile_append_of_pos hcs]
  cases rest with
  | nil => simp
  | cons c rest =>
    have hc := hrest c rfl
    rw [List.takeWhile_cons_of_neg hc, List.dropWhile_cons_of_neg hc]
    simp

/-! ### Lexemes -/

namespace Lexeme

variable {c : Char} {cs : List Char} {l : Lexeme}

/-- The reader of a lexeme is chosen by its first character. -/
theorem read_cases (h : read c cs = .ok l) :
    ((c.isDigit ∨ c = '.') ∧ numeral (c :: cs) = .ok l) ∨
      (∃ quote : Quote, c = quote.char ∧ quoted quote cs = .ok l) ∨
      (c = '[' ∧ bracketed cs = .ok l) ∨
      (isIdentStart c ∧ l = word (c :: cs)) ∨ symbol c cs = .ok l := by
  rw [read] at h
  split at h
  · next hc => exact .inl ⟨by simpa using hc, h⟩
  split at h
  · next hc => exact .inr (.inl ⟨.single, beq_iff_eq.mp hc, h⟩)
  split at h
  · next hc => exact .inr (.inl ⟨.double, beq_iff_eq.mp hc, h⟩)
  split at h
  · next hc => exact .inr (.inr (.inl ⟨beq_iff_eq.mp hc, h⟩))
  split at h
  · next hc =>
    cases h
    exact .inr (.inr (.inr (.inl ⟨hc, rfl⟩)))
  · exact .inr (.inr (.inr (.inr h)))

theorem integer_eq_ok {digits rest : List Char} (h : integer digits rest = .ok l) :
    l.chars = digits ∧ l.rest = rest ∧ ∃ value, l.kind = .integer value := by
  rw [integer] at h
  split at h
  · cases h
    exact ⟨rfl, rfl, _, rfl⟩
  · cases h

theorem append_of_numeral (hc : c.isDigit ∨ c = '.') (h : numeral (c :: cs) = .ok l) :
    l.chars ++ l.rest = c :: cs ∧ l.chars ≠ [] ∧ l.kind.Lexical := by
  have happend : (c :: cs).takeWhile Char.isDigit ++ (c :: cs).dropWhile Char.isDigit = c :: cs :=
    List.takeWhile_append_dropWhile
  rw [numeral] at h
  split at h
  · next tail htail =>
    rw [htail] at happend h
    dsimp only at h
    split at h
    · cases h
      refine ⟨?_, by simp, trivial⟩
      rw [List.append_assoc, List.cons_append, List.takeWhile_append_dropWhile, happend]
    split at h
    · cases h
    · next hwhole =>
      obtain ⟨hchars, hrest, value, hkind⟩ := integer_eq_ok h
      rw [hchars, hrest, hkind]
      exact ⟨happend, by simpa using hwhole, trivial⟩
  · next hpoint =>
    obtain ⟨hchars, hrest, value, hkind⟩ := integer_eq_ok h
    rw [hchars, hrest, hkind]
    refine ⟨happend, fun hnil => ?_, trivial⟩
    rcases hc with hc | rfl
    · rw [List.takeWhile_cons_of_pos hc] at hnil
      cases hnil
    · exact hpoint cs rfl

theorem append_of_quoted {quote : Quote} (h : quoted quote cs = .ok l) :
    l.chars ++ l.rest = quote.char :: cs ∧ l.chars ≠ [] ∧ l.kind.Lexical := by
  have happend := List.takeWhile_append_dropWhile (p := (· ≠ quote.char)) (l := cs)
  rw [quoted] at h
  split at h
  · cases h
  · next q rest hrest =>
    cases h
    rw [hrest] at happend
    refine ⟨by simpa using happend, by simp, ?_⟩
    intro hmem
    rw [String.toList_ofList] at hmem
    simpa using List.mem_takeWhile_imp hmem

theorem append_of_bracketed (h : bracketed cs = .ok l) :
    l.chars ++ l.rest = '[' :: cs ∧ l.chars ≠ [] ∧ l.kind.Lexical := by
  have happend := List.takeWhile_append_dropWhile (p := (· ≠ ']')) (l := cs)
  rw [bracketed] at h
  split at h
  · cases h
  · next b rest hrest =>
    cases h
    rw [hrest] at happend
    refine ⟨by simpa using happend, by simp, ?_⟩
    intro hmem
    rw [String.toList_ofList] at hmem
    simpa using List.mem_takeWhile_imp hmem

theorem append_of_word (hc : isIdentStart c) :
    (word (c :: cs)).chars ++ (word (c :: cs)).rest = c :: cs ∧ (word (c :: cs)).chars ≠ [] ∧
      (word (c :: cs)).kind.Lexical := by
  refine ⟨List.takeWhile_append_dropWhile, ?_, ?_⟩
  · rw [word, List.takeWhile_cons_of_pos (by simp [isIdentPart, hc])]
    simp
  · rw [word, wordKind]
    split
    · trivial
    · intro hmem
      rw [String.toList_ofList] at hmem
      exact absurd (List.mem_takeWhile_imp hmem) (by decide)

theorem append_of_symbol (h : symbol c cs = .ok l) :
    l.chars ++ l.rest = c :: cs ∧ l.chars ≠ [] ∧ l.kind.Lexical := by
  have hshort : ∀ rest, shortSymbol c rest = .ok l →
      l.chars ++ l.rest = c :: rest ∧ l.chars ≠ [] ∧ l.kind.Lexical := by
    intro rest h
    rw [shortSymbol] at h
    split at h
    · cases h
      exact ⟨rfl, by simp, trivial⟩
    · cases h
  cases cs with
  | nil => exact hshort [] h
  | cons d cs =>
    rw [symbol] at h
    split at h
    · cases h
      exact ⟨rfl, by simp, trivial⟩
    · exact hshort _ h

/-- **A lexeme and what follows it are the text**, and the lexeme takes a part of it. -/
theorem append_of_read (h : read c cs = .ok l) :
    l.chars ++ l.rest = c :: cs ∧ l.chars ≠ [] ∧ l.kind.Lexical := by
  rcases read_cases h with ⟨hc, hl⟩ | ⟨quote, rfl, hl⟩ | ⟨rfl, hl⟩ | ⟨hc, rfl⟩ | hl
  · exact append_of_numeral hc hl
  · exact append_of_quoted hl
  · exact append_of_bracketed hl
  · exact append_of_word hc
  · exact append_of_symbol hl

end Lexeme

/-! ### The list of items -/

theorem splitLayout_append (comment : Bool) (cs : List Char) :
    (splitLayout comment cs).1 ++ (splitLayout comment cs).2 = cs := by
  fun_induction splitLayout comment cs with
  | case1 | case5 => rfl
  | case2 c cs parts ih => exact congrArg (c :: ·) ih
  | case3 cs parts ih => exact congrArg ('-' :: '-' :: ·) ih
  | case4 c cs parts _ _ ih => exact congrArg (c :: ·) ih

namespace Cursor

/-- What stands before and after the next item. -/
theorem next?_eq_some {c c' : Cursor} {item : TokenItem} (h : c.next? = some (item, c')) :
    c'.rest.length < c.rest.length ∧ LexicalItem item := by
  have happend := splitLayout_append false c.rest
  rw [next?] at h
  dsimp only at h
  split at h
  · cases h
  · next first rest hrest =>
    rw [hrest] at happend
    have hlength := congrArg List.length happend
    rw [List.length_append, List.length_cons] at hlength
    split at h
    · next fault hfault =>
      cases h
      refine ⟨?_, fault, _, rfl⟩
      simp only [List.length_nil]
      omega
    · next lexeme hlexeme =>
      cases h
      obtain ⟨hchars, hne, hlexical⟩ := Lexeme.append_of_read hlexeme
      have hlength' := congrArg List.length hchars
      have hpos := List.length_pos_iff.mpr hne
      rw [List.length_append, List.length_cons] at hlength'
      refine ⟨?_, hlexical⟩
      dsimp only
      omega

theorem itemsWithin_eq_nil {n : ℕ} {c : Cursor} (h : c.rest.length ≤ 0) : c.itemsWithin n = [] := by
  cases n with
  | zero => rfl
  | succ n =>
    rw [itemsWithin]
    cases hnext : c.next? with
    | none => rfl
    | some r =>
      have hlength := (next?_eq_some hnext).1
      omega

/-- The bound on the number of items does not matter if it is at least the number of characters. -/
theorem itemsWithin_congr {n m : ℕ} {c : Cursor} (hn : c.rest.length ≤ n) (hm : c.rest.length ≤ m) :
    c.itemsWithin n = c.itemsWithin m := by
  induction n generalizing m c with
  | zero => rw [itemsWithin_eq_nil hn, itemsWithin_eq_nil hn]
  | succ n ih =>
    cases m with
    | zero => rw [itemsWithin_eq_nil hm, itemsWithin_eq_nil hm]
    | succ m =>
      rw [itemsWithin, itemsWithin]
      cases hnext : c.next? with
      | none => rfl
      | some r =>
        have hlength := (next?_eq_some hnext).1
        exact congrArg _ (ih (by omega) (by omega))

/-- The items from a place on are the next item and the items after it. -/
theorem items_eq (c : Cursor) : c.items =
    match c.next? with
    | none => []
    | some (item, c') => item :: c'.items := by
  rw [items, itemsWithin_congr (Nat.le_refl _) (Nat.le_succ _), itemsWithin]
  cases hnext : c.next? with
  | none => rfl
  | some r =>
    have hlength := Nat.le_of_lt (next?_eq_some hnext).1
    exact congrArg _ (itemsWithin_congr hlength (Nat.le_refl _))

theorem lexical_of_mem_items {c : Cursor} {item : TokenItem} (h : item ∈ c.items) :
    LexicalItem item := by
  induction hlength : c.rest.length using Nat.strongRecOn generalizing c with
  | _ length ih =>
    subst hlength
    rw [items_eq] at h
    cases hnext : c.next? with
    | none =>
      rw [hnext] at h
      cases h
    | some r =>
      obtain ⟨first, c'⟩ := r
      rw [hnext] at h
      obtain ⟨hlength, hlexical⟩ := next?_eq_some hnext
      rcases List.mem_cons.mp h with rfl | h
      · exact hlexical
      · exact ih c'.rest.length hlength h rfl

end Cursor

/-- The names and strings of a text do not contain the character that ends them, and the end of the
input is none of its tokens. -/
theorem lexical_of_mem_tokenize {text : String} {t : Token} (h : .ok t ∈ tokenize text) :
    t.kind.Lexical :=
  Cursor.lexical_of_mem_items h

/-- The errors among the items of a text say that it cannot be cut into tokens. -/
theorem exists_fault_of_mem_tokenize {text : String} {e : SyntaxError}
    (h : .error e ∈ tokenize text) : ∃ (fault : LexicalFault) (offset : ℕ), e = fault.toError offset :=
  Cursor.lexical_of_mem_items h

theorem Token.Kind.Lexical.ne_endOfInput {kind : Token.Kind} (h : kind.Lexical) :
    kind ≠ .endOfInput := by
  rintro rfl
  exact h

end SqlPredicates
