import SqlPredicates.Proofs.Token.Cuts
import SqlPredicates.Proofs.Token.Gaps

/-!
# The lexical rules

Tokens and layout are declared by rules. A rule has a pattern, which is a sequence of pieces: one
character of a class, at most one, or any number of them. It says what the characters that match the
pattern become: a token, a fault, or nothing if they are layout. This file states the rules as data,
without regard to how they are read.

Several rules can match at one place. The longest match counts, and where a keyword is spelled, which
is an identifier as well, the keyword does: `LexicalRule.precedence`. No two rules of one precedence
match the same characters, so nothing else has to be decided. To see this, the rules are sorted by the
first character of what they match: `LexicalRule.family`.

## Main definitions

* `Pattern`, `Pattern.accepts` — patterns, and whether characters match one
* `LexicalRule`, `LexicalRule.pattern`, `LexicalRule.value` — the rules
* `LexicalRule.precedence` — which of two rules counts on the same characters
* `LexicalRule.family`, `Family.ofChar` — the first character of a match

## Main results

* `LexicalRule.family_of_accepts` — a rule matches only what begins with a character of its family
* `LexicalRule.eq_of_accepts` — the rules are not ambiguous
-/

namespace SqlPredicates

/-! ### Patterns -/

/-- A part of a pattern: one character of a class, at most one, or any number of them. -/
inductive Piece where
  | one (among : Char → Bool)
  | optional (among : Char → Bool)
  | many (among : Char → Bool)

namespace Piece

/-- Exactly this character. -/
def char (d : Char) : Piece := .one (· == d)

/-- This letter, in either case. -/
def letter (d : Char) : Piece := .one (Char.toLower · == d.toLower)

end Piece

/-- A sequence of pieces. -/
abbrev Pattern := List Piece

namespace Pattern

/-- At least one character of a class. -/
def atLeastOne (among : Char → Bool) : Pattern := [.one among, .many among]

/-- Whether all of the characters, one after the other, match the pattern. -/
def accepts : Pattern → List Char → Bool
  | [], cs => cs.isEmpty
  | .one _ :: _, [] => false
  | .one among :: pieces, c :: cs => among c && accepts pieces cs
  | .optional _ :: pieces, [] => accepts pieces []
  | .optional among :: pieces, c :: cs => accepts pieces (c :: cs) || (among c && accepts pieces cs)
  | .many among :: pieces, cs =>
    (List.range (cs.length + 1)).any fun n => (cs.take n).all among && accepts pieces (cs.drop n)

variable {among : Char → Bool} {pieces : Pattern} {cs : List Char}

theorem accepts_nil_iff : accepts [] cs ↔ cs = [] := List.isEmpty_iff

theorem accepts_one_iff :
    accepts (.one among :: pieces) cs ↔ ∃ c rest, cs = c :: rest ∧ among c ∧ accepts pieces rest := by
  cases cs with
  | nil => simp [accepts]
  | cons c cs => simp [accepts]

theorem accepts_optional_iff :
    accepts (.optional among :: pieces) cs ↔
      accepts pieces cs ∨ ∃ c rest, cs = c :: rest ∧ among c ∧ accepts pieces rest := by
  cases cs with
  | nil => simp [accepts]
  | cons c cs => simp [accepts]

theorem accepts_many_iff :
    accepts (.many among :: pieces) cs ↔
      ∃ front rest, cs = front ++ rest ∧ (∀ c ∈ front, among c) ∧ accepts pieces rest := by
  simp only [accepts, List.any_eq_true, List.mem_range, Bool.and_eq_true, List.all_eq_true]
  constructor
  · rintro ⟨n, -, hfront, hrest⟩
    exact ⟨cs.take n, cs.drop n, (List.take_append_drop n cs).symm, hfront, hrest⟩
  · rintro ⟨front, rest, rfl, hfront, hrest⟩
    refine ⟨front.length, ?_, ?_, ?_⟩
    · rw [List.length_append]
      omega
    · rwa [List.take_left]
    · rwa [List.drop_left]

theorem accepts_many_nil_iff : accepts [.many among] cs ↔ ∀ c ∈ cs, among c := by
  simp [accepts_many_iff, accepts_nil_iff]

theorem accepts_char_iff {d : Char} :
    accepts (.char d :: pieces) cs ↔ ∃ rest, cs = d :: rest ∧ accepts pieces rest := by
  simp [Piece.char, accepts_one_iff]

theorem accepts_atLeastOne_iff :
    accepts (atLeastOne among) cs ↔ cs ≠ [] ∧ ∀ c ∈ cs, among c := by
  rw [atLeastOne, accepts_one_iff]
  cases cs with
  | nil => simp
  | cons c cs => simp [accepts_many_nil_iff]

theorem accepts_map_char_iff {ds : List Char} : accepts (ds.map .char) cs ↔ cs = ds := by
  induction ds generalizing cs with
  | nil => exact accepts_nil_iff
  | cons d ds ih => simp [accepts_char_iff, ih]

theorem accepts_map_letter_iff {ds : List Char} :
    accepts (ds.map .letter) cs ↔ cs.map Char.toLower = ds.map Char.toLower := by
  induction ds generalizing cs with
  | nil => simp [accepts_nil_iff]
  | cons d ds ih =>
    cases cs with
    | nil => simp [Piece.letter, accepts]
    | cons c cs => simp [Piece.letter, accepts, ih]

end Pattern

/-! ### The rules -/

/-- The rules for layout and tokens. -/
inductive LexicalRule where
  | blanks
  | comment
  | integer
  | decimal
  | string (quote : Quote)
  | identifier
  | bracketed
  | keyword (word : Keyword)
  | symbol (sign : Symbol)
  deriving DecidableEq, Repr

namespace LexicalRule

/-- The pattern of a rule. The closing quote of a string may be missing, which is a fault; a bracket
that is not closed matches nothing. -/
def pattern : LexicalRule → Pattern
  | blanks => .atLeastOne isLayoutChar
  | comment => [.char '-', .char '-', .many (· ≠ '\n')]
  | integer => .atLeastOne Char.isDigit
  | decimal => .many Char.isDigit :: .char '.' :: Pattern.atLeastOne Char.isDigit
  | string quote => [.char quote.char, .many (· ≠ quote.char), .optional (· == quote.char)]
  | identifier => [.one isIdentStart, .many isIdentPart]
  | bracketed => [.char '[', .many (· ≠ ']'), .char ']']
  | keyword word => word.text.toList.map .letter
  | symbol sign => sign.text.toList.map .char

/-- What the characters become that a rule has matched. Layout becomes nothing. -/
def value : LexicalRule → List Char → Option (Except LexicalFault Token.Kind)
  | blanks, _ => none
  | comment, _ => none
  | integer, digits =>
    let value := Binary64.digitsValue digits
    some (if value < UInt64.size then .ok (.integer (UInt64.ofNat value))
      else .error (.integerOverflow digits))
  | decimal, cs =>
    some (.ok (.decimal (Binary64.ofNumeral (cs.takeWhile (· ≠ '.')) (cs.dropWhile (· ≠ '.')).tail)))
  | string quote, cs =>
    some (if 2 ≤ cs.length ∧ cs.getLast? = some quote.char then
        .ok (.string ⟨String.ofList cs.tail.dropLast, quote⟩)
      else .error .unterminatedString)
  | identifier, cs => some (.ok (.identifier (String.ofList cs)))
  | bracketed, cs => some (.ok (.identifier (String.ofList cs.tail.dropLast)))
  | keyword word, _ => some (.ok (.keyword word))
  | symbol sign, _ => some (.ok (.symbol sign))

/-- Of two rules that match the same characters the one with the higher precedence counts. -/
def precedence : LexicalRule → ℕ
  | keyword _ => 1
  | _ => 0

/-- Whether the rule matches all of the characters. -/
def accepts (rule : LexicalRule) (cs : List Char) : Bool := rule.pattern.accepts cs

/-! ### What each rule matches -/

open Pattern

variable {rule rule' : LexicalRule} {c : Char} {cs : List Char}

theorem accepts_blanks_iff : accepts blanks cs ↔ cs ≠ [] ∧ ∀ c ∈ cs, isLayoutChar c :=
  accepts_atLeastOne_iff

theorem accepts_comment_iff :
    accepts comment cs ↔ ∃ body, '\n' ∉ body ∧ cs = '-' :: '-' :: body := by
  simp only [accepts, pattern, accepts_char_iff, accepts_many_nil_iff, decide_eq_true_eq,
    List.forall_mem_ne']
  constructor
  · rintro ⟨_, rfl, body, rfl, hbody⟩
    exact ⟨body, hbody, rfl⟩
  · rintro ⟨body, hbody, rfl⟩
    exact ⟨_, rfl, body, rfl, hbody⟩

theorem accepts_integer_iff : accepts integer cs ↔ cs ≠ [] ∧ ∀ c ∈ cs, c.isDigit :=
  accepts_atLeastOne_iff

theorem accepts_decimal_iff :
    accepts decimal cs ↔ ∃ whole fraction, cs = whole ++ '.' :: fraction ∧
      (∀ c ∈ whole, c.isDigit) ∧ fraction ≠ [] ∧ ∀ c ∈ fraction, c.isDigit := by
  simp only [accepts, pattern, accepts_many_iff, accepts_char_iff, accepts_atLeastOne_iff]
  constructor
  · rintro ⟨whole, _, rfl, hwhole, fraction, rfl, hfraction⟩
    exact ⟨whole, fraction, rfl, hwhole, hfraction⟩
  · rintro ⟨whole, fraction, rfl, hwhole, hfraction⟩
    exact ⟨whole, _, rfl, hwhole, fraction, rfl, hfraction⟩

example : decimal.accepts ".5".toList ∧ ¬ decimal.accepts "5.".toList := by decide

theorem accepts_string_iff {quote : Quote} :
    accepts (string quote) cs ↔ ∃ body, quote.char ∉ body ∧
      (cs = quote.char :: body ∨ cs = quote.char :: (body ++ [quote.char])) := by
  simp only [accepts, pattern, accepts_char_iff, accepts_many_iff, accepts_optional_iff,
    accepts_nil_iff, decide_eq_true_eq, List.forall_mem_ne', beq_iff_eq]
  constructor
  · rintro ⟨_, rfl, body, _, rfl, hbody, rfl | ⟨_, _, rfl, rfl, rfl⟩⟩
    · exact ⟨body, hbody, .inl (by rw [List.append_nil])⟩
    · exact ⟨body, hbody, .inr rfl⟩
  · rintro ⟨body, hbody, rfl | rfl⟩
    · exact ⟨_, rfl, body, [], (List.append_nil body).symm, hbody, .inl rfl⟩
    · exact ⟨_, rfl, body, [quote.char], rfl, hbody, .inr ⟨_, _, rfl, rfl, rfl⟩⟩

theorem accepts_identifier_iff :
    accepts identifier (c :: cs) ↔ isIdentStart c ∧ ∀ d ∈ cs, isIdentPart d := by
  simp [accepts, pattern, accepts_one_iff, accepts_many_nil_iff]

theorem accepts_bracketed_iff :
    accepts bracketed cs ↔ ∃ body, ']' ∉ body ∧ cs = '[' :: (body ++ [']']) := by
  simp only [accepts, pattern, accepts_char_iff, accepts_many_iff, accepts_nil_iff,
    decide_eq_true_eq, List.forall_mem_ne']
  constructor
  · rintro ⟨_, rfl, body, _, rfl, hbody, _, rfl, rfl⟩
    exact ⟨body, hbody, rfl⟩
  · rintro ⟨body, hbody, rfl⟩
    exact ⟨_, rfl, body, _, rfl, hbody, _, rfl, rfl⟩

theorem accepts_keyword_iff {word : Keyword} :
    accepts (keyword word) cs ↔ Text.sameAscii word.text (String.ofList cs) := by
  rw [accepts, pattern, accepts_map_letter_iff, Text.sameAscii_iff, Text.foldAscii, Text.foldAscii,
    String.ofList_inj, String.toList_ofList, eq_comm]

theorem accepts_symbol_iff {sign : Symbol} : accepts (symbol sign) cs ↔ cs = sign.text.toList :=
  accepts_map_char_iff

end LexicalRule

/-! ### Keywords and symbols -/

namespace Keyword

/-- Different keywords differ in more than the case of their letters. -/
theorem eq_of_foldAscii_eq {word word' : Keyword}
    (h : Text.foldAscii word.text = Text.foldAscii word'.text) : word = word' := by
  cases word <;> cases word' <;> first | rfl | exact absurd h (by decide)

theorem ofWord?_eq_some_iff {word : Keyword} {name : String} :
    ofWord? name = some word ↔ Text.sameAscii word.text name := by
  constructor
  · intro h
    exact List.find?_some (p := fun k : Keyword => Text.sameAscii k.text name) h
  · intro h
    have hmem : word ∈ all := by cases word <;> decide
    cases hfound : ofWord? name with
    | none => exact absurd h (List.find?_eq_none.mp hfound word hmem)
    | some word' =>
      have h' := List.find?_some (p := fun k : Keyword => Text.sameAscii k.text name) hfound
      rw [eq_of_foldAscii_eq
        ((Text.sameAscii_iff.mp h).trans (Text.sameAscii_iff.mp h').symm)]

end Keyword

namespace Symbol

/-- The symbol that has these characters. -/
def ofChars? : List Char → Option Symbol
  | [c] => single? c
  | [c, d] => pair? c d
  | _ => none

theorem ofChars?_eq_some_iff {sign : Symbol} {cs : List Char} :
    ofChars? cs = some sign ↔ cs = sign.text.toList := by
  constructor
  · intro h
    rw [ofChars?.eq_def] at h
    split at h
    · next c =>
      rw [single?.eq_def] at h
      split at h
      all_goals
        cases h
        try rfl
    · next c d =>
      rw [pair?.eq_def] at h
      split at h
      all_goals
        cases h
        try rfl
    · cases h
  · rintro rfl
    cases sign <;> rfl

end Symbol

/-! ### The first character -/

/-- The rules that can match what begins with the same character. -/
inductive Family where
  | number
  | string (quote : Quote)
  | bracket
  | word
  | layout
  | sign
  deriving DecidableEq, Repr

/-- The rules that can match what begins with this character. -/
def Family.ofChar (c : Char) : Family :=
  if c.isDigit || c == '.' then number
  else if c == '\'' then string .single
  else if c == '"' then string .double
  else if c == '[' then bracket
  else if isIdentStart c then word
  else if isLayoutChar c then layout
  else sign

theorem Family.ofChar_of_isIdentStart {c : Char} (hc : isIdentStart c) : ofChar c = word := by
  have hne : ∀ d, isIdentStart d = false → c ≠ d := by
    rintro d hd rfl
    rw [hd] at hc
    cases hc
  rw [ofChar, isDigit_of_isIdentStart hc]
  simp [hne '.' rfl, hne '\'' rfl, hne '"' rfl, hne '[' rfl, hc]

theorem isAlpha_toLower (c : Char) : c.toLower.isAlpha = c.isAlpha := by
  delta Char.toLower
  split
  · next h =>
    rw [Bool.eq_iff_iff]
    delta Char.isAlpha Char.isUpper Char.isLower
    simp [UInt32.le_iff_toNat_le, UInt32.toNat_add] at h ⊢
    omega
  · rfl

/-- The spellings of a keyword are letters. -/
theorem Keyword.isIdentStart_of_mem {word : Keyword} {cs : List Char}
    (h : cs.map Char.toLower = word.text.toList.map Char.toLower) : ∀ c ∈ cs, isIdentStart c := by
  have halpha : ∀ d ∈ word.text.toList, d.isAlpha := by
    rw [← List.all_eq_true]
    cases word <;> rfl
  intro c hc
  have hmem : c.toLower ∈ word.text.toList.map Char.toLower := h ▸ List.mem_map_of_mem hc
  obtain ⟨d, hd, heq⟩ := List.mem_map.mp hmem
  have hletter : c.isAlpha := by
    rw [← isAlpha_toLower, ← heq, isAlpha_toLower]
    exact halpha d hd
  simp [isIdentStart, hletter]

namespace LexicalRule

open Pattern

variable {rule rule' : LexicalRule} {c : Char} {cs : List Char}

/-- The family of a rule. A comment begins with a sign. -/
def family : LexicalRule → Family
  | blanks => .layout
  | comment => .sign
  | integer => .number
  | decimal => .number
  | string quote => .string quote
  | identifier => .word
  | bracketed => .bracket
  | keyword _ => .word
  | symbol _ => .sign

theorem ne_nil_of_accepts (h : rule.accepts cs) : cs ≠ [] := by
  rintro rfl
  cases rule with
  | keyword word => cases word <;> cases h
  | symbol sign => cases sign <;> cases h
  | _ => cases h

/-- **A rule matches only what begins with a character of its family.** -/
theorem family_of_accepts (h : rule.accepts (c :: cs)) : Family.ofChar c = rule.family := by
  cases rule with
  | blanks =>
    have hc := (accepts_blanks_iff.mp h).2 c List.mem_cons_self
    have hmem := isLayoutChar_iff.mp hc
    simp only [SqlPredicates.blanks, List.mem_cons, List.not_mem_nil, or_false] at hmem
    rcases hmem with rfl | rfl | rfl | rfl | rfl <;> rfl
  | comment =>
    obtain ⟨body, -, heq⟩ := accepts_comment_iff.mp h
    cases heq
    rfl
  | integer =>
    have hc := (accepts_integer_iff.mp h).2 c List.mem_cons_self
    rw [Family.ofChar, hc]
    rfl
  | decimal =>
    obtain ⟨whole, fraction, heq, hwhole, -⟩ := accepts_decimal_iff.mp h
    cases whole with
    | nil =>
      cases heq
      rfl
    | cons d whole =>
      cases heq
      rw [Family.ofChar, hwhole c List.mem_cons_self]
      rfl
  | string quote =>
    obtain ⟨body, -, heq | heq⟩ := accepts_string_iff.mp h
    all_goals
      cases heq
      cases quote <;> rfl
  | identifier => exact Family.ofChar_of_isIdentStart (accepts_identifier_iff.mp h).1
  | bracketed =>
    obtain ⟨body, -, heq⟩ := accepts_bracketed_iff.mp h
    cases heq
    rfl
  | keyword word =>
    have hletters := Keyword.isIdentStart_of_mem (accepts_map_letter_iff.mp h)
    exact Family.ofChar_of_isIdentStart (hletters c List.mem_cons_self)
  | symbol sign =>
    have heq := accepts_symbol_iff.mp h
    cases sign <;>
    · cases heq
      rfl

theorem not_accepts_decimal (h : integer.accepts cs) : ¬ decimal.accepts cs := by
  intro h'
  obtain ⟨whole, fraction, rfl, -⟩ := accepts_decimal_iff.mp h'
  have hpoint := (accepts_integer_iff.mp h).2 '.' (by simp)
  cases hpoint

theorem not_accepts_symbol (h : comment.accepts cs) (sign : Symbol) : ¬ (symbol sign).accepts cs := by
  intro h'
  obtain ⟨body, -, rfl⟩ := accepts_comment_iff.mp h
  have heq := accepts_symbol_iff.mp h'
  cases sign <;> cases heq

/-- **The rules are not ambiguous**: of two that match the same characters, one has the higher
precedence. -/
theorem eq_of_accepts (h : rule.accepts cs) (h' : rule'.accepts cs)
    (hprecedence : rule.precedence = rule'.precedence) : rule = rule' := by
  obtain ⟨c, cs, rfl⟩ := List.exists_cons_of_ne_nil (ne_nil_of_accepts h)
  have hfamily : rule.family = rule'.family :=
    (family_of_accepts h).symm.trans (family_of_accepts h')
  cases rule with
  | blanks =>
    cases rule' with
    | blanks => rfl
    | _ => cases hfamily
  | comment =>
    cases rule' with
    | comment => rfl
    | symbol sign => exact absurd h' (not_accepts_symbol h sign)
    | _ => cases hfamily
  | integer =>
    cases rule' with
    | integer => rfl
    | decimal => exact absurd h' (not_accepts_decimal h)
    | _ => cases hfamily
  | decimal =>
    cases rule' with
    | decimal => rfl
    | integer => exact absurd h (not_accepts_decimal h')
    | _ => cases hfamily
  | string quote =>
    cases rule' with
    | string quote' =>
      obtain rfl : quote = quote' := Family.string.inj hfamily
      rfl
    | _ => cases hfamily
  | identifier =>
    cases rule' with
    | identifier => rfl
    | keyword word => cases hprecedence
    | _ => cases hfamily
  | bracketed =>
    cases rule' with
    | bracketed => rfl
    | _ => cases hfamily
  | keyword word =>
    cases rule' with
    | keyword word' =>
      have hword := Keyword.ofWord?_eq_some_iff.mpr (accepts_keyword_iff.mp h)
      rw [Keyword.ofWord?_eq_some_iff.mpr (accepts_keyword_iff.mp h')] at hword
      cases hword
      rfl
    | identifier => cases hprecedence
    | _ => cases hfamily
  | symbol sign =>
    cases rule' with
    | symbol sign' =>
      have hsign := Symbol.ofChars?_eq_some_iff.mpr (accepts_symbol_iff.mp h)
      rw [Symbol.ofChars?_eq_some_iff.mpr (accepts_symbol_iff.mp h')] at hsign
      cases hsign
      rfl
    | comment => exact absurd h (not_accepts_symbol h' sign)
    | _ => cases hfamily

end LexicalRule

end SqlPredicates
