import SqlPredicates.Proofs.Token.LexicalRules

/-!
# The longest match

The reader of lexemes never compares matches. It goes by the first character, and takes as much as a
run of characters of one class allows. This file shows that it reads what the lexical rules say: at
each place the longest match of all of them, and a fault where none of them matches.

Only the rules of one family can match at a place, so there are few of them to compare: an integer and
a decimal fraction, an identifier and a keyword, symbols of one and of two characters. What begins with
two minus signs is a comment, although a minus sign alone matches as well. The reader of lexemes never
meets it, because layout is passed over before.

## Main definitions

* `LexicalRule.Taken` — the rule that counts at the front of a text, and what it matches
* `Lexeme.ByRules`, `Cursor.ByRules` — the lexeme and the item that the rules give

## Main results

* `LexicalRule.Taken.unique` — at most one rule is taken
* `Lexeme.byRules_iff` — **the reader of lexemes takes the longest match**
* `Cursor.byRules_iff` — the step to the next token, with the layout in front of it
-/

namespace SqlPredicates

/-! ### Which rule is taken -/

namespace LexicalRule

variable {rule rule' : LexicalRule} {c : Char} {cs front front' rest rest' : List Char}

/-- The rule matches `front`, no rule matches more of the text, and the rule is the preferred one of
those that match as much. -/
structure Taken (rule : LexicalRule) (cs front rest : List Char) : Prop where
  append_eq : front ++ rest = cs
  accepts : rule.accepts front
  longest : ∀ (rule' : LexicalRule) (front' : List Char), front' <+: cs → rule'.accepts front' →
    front'.length ≤ front.length
  preferred : ∀ rule' : LexicalRule, rule'.accepts front → rule'.precedence ≤ rule.precedence

/-- **At most one rule is taken.** -/
theorem Taken.unique (h : rule.Taken cs front rest) (h' : rule'.Taken cs front' rest') :
    rule = rule' ∧ front = front' ∧ rest = rest' := by
  have happend := h.append_eq.trans h'.append_eq.symm
  have hlength : front.length = front'.length :=
    Nat.le_antisymm
      (h'.longest rule front ⟨rest, h.append_eq⟩ h.accepts)
      (h.longest rule' front' ⟨rest', h'.append_eq⟩ h'.accepts)
  obtain ⟨rfl, rfl⟩ := List.append_inj happend hlength
  refine ⟨eq_of_accepts h.accepts h'.accepts ?_, rfl, rfl⟩
  exact Nat.le_antisymm (h'.preferred rule h.accepts) (h.preferred rule' h'.accepts)

theorem Taken.ne_nil (h : rule.Taken cs front rest) : cs ≠ [] := by
  rintro rfl
  exact ne_nil_of_accepts h.accepts (List.append_eq_nil_iff.mp h.append_eq).1

/-- Only the rules of one family match at a place. -/
theorem family_of_front (hfront : front <+: c :: cs) (h : rule.accepts front) :
    rule.family = Family.ofChar c := by
  obtain ⟨d, tail, rfl⟩ := List.exists_cons_of_ne_nil (ne_nil_of_accepts h)
  obtain ⟨rfl, -⟩ := List.cons_prefix_cons.mp hfront
  exact (family_of_accepts h).symm

/-- A rule is taken if it is among the rules of its family. -/
theorem taken_of_family (happend : front ++ rest = c :: cs) (h : rule.accepts front)
    (hlongest : ∀ (rule' : LexicalRule) (front' : List Char), rule'.family = Family.ofChar c →
      front' <+: c :: cs → rule'.accepts front' → front'.length ≤ front.length)
    (hpreferred : ∀ rule' : LexicalRule, rule'.family = Family.ofChar c → rule'.accepts front →
      rule'.precedence ≤ rule.precedence) : rule.Taken (c :: cs) front rest :=
  ⟨happend, h, fun rule' front' hfront' h' =>
    hlongest rule' front' (family_of_front hfront' h') hfront' h',
    fun rule' h' => hpreferred rule' (family_of_front ⟨rest, happend⟩ h') h'⟩

/-- Among rules that are not about words, the longest match decides alone. -/
theorem taken_of_longest (hword : Family.ofChar c ≠ .word) (happend : front ++ rest = c :: cs)
    (h : rule.accepts front)
    (hlongest : ∀ (rule' : LexicalRule) (front' : List Char), rule'.family = Family.ofChar c →
      front' <+: c :: cs → rule'.accepts front' → front'.length ≤ front.length) :
    rule.Taken (c :: cs) front rest := by
  refine taken_of_family happend h hlongest fun rule' hrule' _ => ?_
  cases rule' with
  | keyword => exact absurd hrule'.symm hword
  | _ => exact Nat.zero_le _

end LexicalRule

/-- A part of a text at its front that has one class is a part of the run of that class. -/
theorem prefix_takeWhile {p : Char → Bool} {front cs : List Char} (hfront : front <+: cs)
    (hp : ∀ c ∈ front, p c) : front <+: cs.takeWhile p := by
  obtain ⟨rest, rfl⟩ := hfront
  rw [List.takeWhile_append_of_pos hp]
  exact List.prefix_append _ _

theorem notMem_takeWhile_ne (last : Char) (cs : List Char) : last ∉ cs.takeWhile (· ≠ last) :=
  fun hmem => by simpa using List.mem_takeWhile_imp hmem

/-- What ends a run of characters that are not this one is this one. -/
theorem eq_of_dropWhile_ne {last c : Char} {cs rest : List Char}
    (h : cs.dropWhile (· ≠ last) = c :: rest) : c = last := by
  have hhead := List.head?_dropWhile_not (· ≠ last) cs
  rw [h] at hhead
  simpa using hhead

/-! ### Lexemes -/

namespace Lexeme

/-- What the rules give at the front of a text: the token or the fault that the longest match becomes,
or a fault if no rule matches. -/
inductive ByRules : List Char → Except LexicalFault Lexeme → Prop
  | token {rule : LexicalRule} {cs front rest : List Char} {kind : Token.Kind}
      (htaken : rule.Taken cs front rest) (hvalue : rule.value front = some (.ok kind)) :
      ByRules cs (.ok ⟨kind, front, rest⟩)
  | fault {rule : LexicalRule} {cs front rest : List Char} {fault : LexicalFault}
      (htaken : rule.Taken cs front rest) (hvalue : rule.value front = some (.error fault)) :
      ByRules cs (.error fault)
  | none {c : Char} {cs : List Char}
      (hnone : ∀ (rule : LexicalRule) (front : List Char), front <+: c :: cs → ¬ rule.accepts front) :
      ByRules (c :: cs) (.error (.unexpectedCharacter c))

variable {c : Char} {cs : List Char}

open LexicalRule

/-! #### Numbers -/

/-- A fraction is the digits at the front of the text, the point, and digits behind it. -/
theorem exists_of_accepts_decimal {front : List Char} (hfront : front <+: cs)
    (h : decimal.accepts front) :
    ∃ fraction tail, cs.dropWhile Char.isDigit = '.' :: tail ∧ fraction ≠ [] ∧
      fraction <+: tail.takeWhile Char.isDigit ∧
      front = cs.takeWhile Char.isDigit ++ '.' :: fraction := by
  obtain ⟨whole, fraction, rfl, hwhole, hne, hfraction⟩ := accepts_decimal_iff.mp h
  obtain ⟨rest, rfl⟩ := hfront
  obtain ⟨htake, hdrop⟩ :
      (whole ++ '.' :: (fraction ++ rest)).takeWhile Char.isDigit = whole ∧
        (whole ++ '.' :: (fraction ++ rest)).dropWhile Char.isDigit = '.' :: (fraction ++ rest) :=
    takeWhile_of_head hwhole (by simp)
  rw [List.append_assoc, List.cons_append, htake, hdrop]
  exact ⟨fraction, fraction ++ rest, rfl, hne,
    prefix_takeWhile (List.prefix_append _ _) hfraction, rfl⟩

/-- Where no fraction matches, the digits at the front are an integer. -/
theorem byRules_integer (hfamily : Family.ofChar c = .number)
    (hwhole : (c :: cs).takeWhile Char.isDigit ≠ [])
    (hdecimal : ∀ front, front <+: c :: cs → ¬ decimal.accepts front) :
    ByRules (c :: cs)
      (integer ((c :: cs).takeWhile Char.isDigit) ((c :: cs).dropWhile Char.isDigit)) := by
  have htaken : LexicalRule.integer.Taken (c :: cs) ((c :: cs).takeWhile Char.isDigit)
      ((c :: cs).dropWhile Char.isDigit) := by
    refine taken_of_longest (by simp [hfamily]) List.takeWhile_append_dropWhile
      (accepts_integer_iff.mpr ⟨hwhole, fun d hd => List.mem_takeWhile_imp hd⟩)
      fun rule front hrule hfront h => ?_
    rw [hfamily] at hrule
    cases rule with
    | integer => exact (prefix_takeWhile hfront (accepts_integer_iff.mp h).2).length_le
    | decimal => exact absurd h (hdecimal front hfront)
    | _ => cases hrule
  rw [Lexeme.integer]
  split
  · next hvalue => exact .token htaken (by rw [value, if_pos hvalue])
  · next hvalue => exact .fault htaken (by rw [value, if_neg hvalue])

theorem byRules_decimal {tail : List Char} (hfamily : Family.ofChar c = .number)
    (htail : (c :: cs).dropWhile Char.isDigit = '.' :: tail)
    (hfraction : tail.takeWhile Char.isDigit ≠ []) :
    ByRules (c :: cs) (.ok
      ⟨.decimal (Binary64.ofNumeral ((c :: cs).takeWhile Char.isDigit)
          (tail.takeWhile Char.isDigit)),
        (c :: cs).takeWhile Char.isDigit ++ '.' :: tail.takeWhile Char.isDigit,
        tail.dropWhile Char.isDigit⟩) := by
  have happend := List.takeWhile_append_dropWhile (p := Char.isDigit) (l := c :: cs)
  rw [htail] at happend
  have hwhole : ∀ d ∈ (c :: cs).takeWhile Char.isDigit, d.isDigit := fun d hd =>
    List.mem_takeWhile_imp hd
  have htaken : LexicalRule.decimal.Taken (c :: cs)
      ((c :: cs).takeWhile Char.isDigit ++ '.' :: tail.takeWhile Char.isDigit)
      (tail.dropWhile Char.isDigit) := by
    refine taken_of_longest (by simp [hfamily]) (by simp [happend]) (accepts_decimal_iff.mpr
        ⟨_, _, rfl, hwhole, hfraction, fun d hd => List.mem_takeWhile_imp hd⟩)
      fun rule front hrule hfront h => ?_
    rw [hfamily] at hrule
    cases rule with
    | integer =>
      have hlength := (prefix_takeWhile hfront (accepts_integer_iff.mp h).2).length_le
      rw [List.length_append]
      omega
    | decimal =>
      obtain ⟨fraction, tail', htail', -, hfront', rfl⟩ := exists_of_accepts_decimal hfront h
      obtain rfl : tail = tail' := by simpa using htail.symm.trans htail'
      have hlength := hfront'.length_le
      simp only [List.length_append, List.length_cons]
      omega
    | _ => cases hrule
  refine .token htaken ?_
  have hpoint : '.' ∉ (c :: cs).takeWhile Char.isDigit := fun hmem => by cases hwhole '.' hmem
  obtain ⟨htake, hdrop⟩ := takeWhile_ne hpoint (tail.takeWhile Char.isDigit)
  rw [value, htake, hdrop, List.tail_cons]

theorem byRules_numeral (hfamily : Family.ofChar c = .number) (hc : c.isDigit ∨ c = '.') :
    ByRules (c :: cs) (numeral (c :: cs)) := by
  have happend := List.takeWhile_append_dropWhile (p := Char.isDigit) (l := c :: cs)
  rw [numeral]
  split
  · next tail htail =>
    dsimp only
    split
    · next hfraction => exact byRules_decimal hfamily htail (by simpa using hfraction)
    next hfraction =>
    have hdecimal : ∀ front, front <+: c :: cs → ¬ decimal.accepts front := by
      intro front hfront h
      obtain ⟨fraction, tail', htail', hne, hfront', -⟩ := exists_of_accepts_decimal hfront h
      obtain rfl : tail = tail' := by simpa using htail.symm.trans htail'
      rw [show tail.takeWhile Char.isDigit = [] by simpa using hfraction] at hfront'
      exact hne (List.prefix_nil.mp hfront')
    split
    · next hwhole =>
      have hnil := List.isEmpty_iff.mp hwhole
      rw [hnil, htail] at happend
      obtain ⟨rfl, -⟩ := List.cons.inj happend
      refine .none fun rule front hfront h => ?_
      have hrule := family_of_front hfront h
      rw [hfamily] at hrule
      cases rule with
      | integer =>
        obtain ⟨hne, hdigits⟩ := accepts_integer_iff.mp h
        have hrun := prefix_takeWhile hfront hdigits
        rw [hnil] at hrun
        exact hne (List.prefix_nil.mp hrun)
      | decimal => exact hdecimal front hfront h
      | _ => cases hrule
    · next hwhole =>
      exact byRules_integer hfamily (fun hnil => hwhole (List.isEmpty_iff.mpr hnil)) hdecimal
  · next hpoint =>
    refine byRules_integer hfamily (fun hnil => ?_) fun front hfront h => ?_
    · rcases hc with hc | rfl
      · rw [List.takeWhile_cons_of_pos hc] at hnil
        cases hnil
      · exact hpoint cs rfl
    · obtain ⟨fraction, tail, htail, -⟩ := exists_of_accepts_decimal hfront h
      exact hpoint tail htail

/-! #### Strings and brackets -/

/-- What is between two quotes, or between a quote and the end of the text. -/
theorem exists_of_accepts_string {quote : Quote} {front : List Char}
    (hfront : front <+: quote.char :: cs) (h : (LexicalRule.string quote).accepts front) :
    front.length ≤ (cs.takeWhile (· ≠ quote.char)).length + 1 ∨
      front = quote.char :: (cs.takeWhile (· ≠ quote.char) ++ [quote.char]) := by
  obtain ⟨body, hbody, heq⟩ := accepts_string_iff.mp h
  rcases heq with rfl | rfl
  · have hclass : ∀ c ∈ body, decide (c ≠ quote.char) = true :=
      fun c hc => decide_eq_true fun heq => hbody (heq ▸ hc)
    have hrun := prefix_takeWhile (List.cons_prefix_cons.mp hfront).2 hclass
    exact .inl (Nat.succ_le_succ hrun.length_le)
  · obtain ⟨rest, rfl⟩ := (List.cons_prefix_cons.mp hfront).2
    obtain ⟨htake, -⟩ := takeWhile_ne hbody rest
    rw [List.append_assoc, List.singleton_append, htake]
    exact .inr rfl

theorem byRules_quoted (quote : Quote) : ByRules (quote.char :: cs) (quoted quote cs) := by
  have hfamily : Family.ofChar quote.char = .string quote := by cases quote <;> rfl
  have happend := List.takeWhile_append_dropWhile (p := (· ≠ quote.char)) (l := cs)
  have hbody := notMem_takeWhile_ne quote.char cs
  have hword : Family.ofChar quote.char ≠ .word := by simp [hfamily]
  rw [quoted]
  split
  · next hrest =>
    -- the string goes on to the end of the text
    rw [hrest, List.append_nil] at happend
    rw [happend] at hbody
    have htaken : (LexicalRule.string quote).Taken (quote.char :: cs) (quote.char :: cs) [] :=
      taken_of_longest hword (List.append_nil _) (accepts_string_iff.mpr ⟨cs, hbody, .inl rfl⟩)
        fun rule front _ hfront _ => hfront.length_le
    refine .fault htaken ?_
    rw [value, if_neg]
    rintro ⟨hlength, hlast⟩
    have hne : cs ≠ [] := by
      rintro rfl
      exact Nat.not_succ_le_self 1 hlength
    rw [List.getLast?_cons_of_ne_nil hne] at hlast
    exact hbody (List.mem_of_getLast? hlast)
  · next q rest hrest =>
    obtain rfl := eq_of_dropWhile_ne hrest
    rw [hrest] at happend
    refine .token (taken_of_longest hword (by simpa using happend)
      (accepts_string_iff.mpr ⟨_, hbody, .inr rfl⟩) fun rule front hrule hfront h => ?_) ?_
    · rw [hfamily] at hrule
      cases rule with
      | string quote' =>
        obtain rfl : quote' = quote := Family.string.inj hrule
        rcases exists_of_accepts_string hfront h with hlength | rfl
        · simp only [List.cons_append, List.length_cons, List.length_append]
          omega
        · exact Nat.le_refl _
      | _ => cases hrule
    · rw [value, if_pos ⟨by simp, List.getLast?_concat⟩]
      simp

/-- A name in brackets ends at the first closing bracket. -/
theorem exists_of_accepts_bracketed {front : List Char} (hfront : front <+: '[' :: cs)
    (h : LexicalRule.bracketed.accepts front) :
    cs.dropWhile (· ≠ ']') ≠ [] ∧ front = '[' :: (cs.takeWhile (· ≠ ']') ++ [']']) := by
  obtain ⟨body, hbody, rfl⟩ := accepts_bracketed_iff.mp h
  obtain ⟨rest, rfl⟩ := (List.cons_prefix_cons.mp hfront).2
  obtain ⟨htake, hdrop⟩ := takeWhile_ne hbody rest
  rw [List.append_assoc, List.singleton_append, htake, hdrop]
  exact ⟨List.cons_ne_nil _ _, rfl⟩

theorem byRules_bracketed : ByRules ('[' :: cs) (bracketed cs) := by
  have happend := List.takeWhile_append_dropWhile (p := (· ≠ ']')) (l := cs)
  have hbody := notMem_takeWhile_ne ']' cs
  rw [bracketed]
  split
  · next hrest =>
    refine .none fun rule front hfront h => ?_
    have hrule := family_of_front hfront h
    cases rule with
    | bracketed => exact (exists_of_accepts_bracketed hfront h).1 hrest
    | _ => cases hrule
  · next b rest hrest =>
    obtain rfl := eq_of_dropWhile_ne hrest
    rw [hrest] at happend
    refine .token (taken_of_longest (by decide) (by simpa using happend)
      (accepts_bracketed_iff.mpr ⟨_, hbody, rfl⟩) fun rule front hrule hfront h => ?_) ?_
    · cases rule with
      | bracketed =>
        obtain ⟨-, rfl⟩ := exists_of_accepts_bracketed hfront h
        exact Nat.le_refl _
      | _ => cases hrule
    · simp [value]

/-! #### Words -/

theorem byRules_word (hc : isIdentStart c) : ByRules (c :: cs) (.ok (word (c :: cs))) := by
  have hfamily := Family.ofChar_of_isIdentStart hc
  have hpart : ∀ d, isIdentStart d → isIdentPart d := fun d hd => by simp [isIdentPart, hd]
  have htake : (c :: cs).takeWhile isIdentPart = c :: cs.takeWhile isIdentPart :=
    List.takeWhile_cons_of_pos (hpart c hc)
  have haccepts : identifier.accepts ((c :: cs).takeWhile isIdentPart) := by
    rw [htake]
    exact accepts_identifier_iff.mpr ⟨hc, fun d hd => List.mem_takeWhile_imp hd⟩
  have hlongest : ∀ (rule : LexicalRule) (front : List Char), rule.family = Family.ofChar c →
      front <+: c :: cs → rule.accepts front →
      front.length ≤ ((c :: cs).takeWhile isIdentPart).length := by
    intro rule front hrule hfront h
    refine (prefix_takeWhile hfront ?_).length_le
    rw [hfamily] at hrule
    cases rule with
    | identifier =>
      obtain ⟨d, tail, rfl⟩ := List.exists_cons_of_ne_nil (ne_nil_of_accepts h)
      obtain ⟨hd, htail⟩ := accepts_identifier_iff.mp h
      exact List.forall_mem_cons.mpr ⟨hpart d hd, htail⟩
    | keyword k =>
      exact fun d hd => hpart d (Keyword.isIdentStart_of_mem (Pattern.accepts_map_letter_iff.mp h) d hd)
    | _ => cases hrule
  rw [word, wordKind]
  split
  · next k hk =>
    have htaken : (LexicalRule.keyword k).Taken (c :: cs) ((c :: cs).takeWhile isIdentPart)
        ((c :: cs).dropWhile isIdentPart) := by
      refine taken_of_family List.takeWhile_append_dropWhile
        (accepts_keyword_iff.mpr (Keyword.ofWord?_eq_some_iff.mp hk)) hlongest fun rule _ _ => ?_
      cases rule <;> simp [precedence]
    exact .token htaken rfl
  · next hnone =>
    have htaken : LexicalRule.identifier.Taken (c :: cs) ((c :: cs).takeWhile isIdentPart)
        ((c :: cs).dropWhile isIdentPart) := by
      refine taken_of_family List.takeWhile_append_dropWhile haccepts hlongest fun rule hrule h => ?_
      rw [hfamily] at hrule
      cases rule with
      | identifier => exact Nat.le_refl 0
      | keyword k =>
        rw [Keyword.ofWord?_eq_some_iff.mpr (accepts_keyword_iff.mp h)] at hnone
        cases hnone
      | _ => cases hrule
    exact .token htaken rfl

/-! #### Symbols -/

/-- What begins with a sign, and with no comment, is one symbol, of one or of two characters. -/
theorem exists_of_accepts_sign {rule : LexicalRule} {front : List Char}
    (hcomment : ¬ ['-', '-'] <+: c :: cs) (hrule : rule.family = .sign) (hfront : front <+: c :: cs)
    (h : rule.accepts front) :
    ∃ sign, rule = .symbol sign ∧
      ((front = [c] ∧ Symbol.single? c = some sign) ∨
        ∃ d rest, cs = d :: rest ∧ front = [c, d] ∧ Symbol.pair? c d = some sign) := by
  cases rule with
  | comment =>
    obtain ⟨body, -, rfl⟩ := accepts_comment_iff.mp h
    exact absurd ((List.prefix_append ['-', '-'] body).trans hfront) hcomment
  | symbol sign =>
    have hsign := Symbol.ofChars?_eq_some_iff.mpr (accepts_symbol_iff.mp h)
    rw [Symbol.ofChars?.eq_def] at hsign
    split at hsign
    · next d =>
      obtain ⟨rfl, -⟩ := List.cons_prefix_cons.mp hfront
      exact ⟨sign, rfl, .inl ⟨rfl, hsign⟩⟩
    · next d d' =>
      obtain ⟨rfl, rest, rfl⟩ := List.cons_prefix_cons.mp hfront
      exact ⟨sign, rfl, .inr ⟨d', rest, rfl, rfl, hsign⟩⟩
    · cases hsign
  | _ => cases hrule

theorem byRules_shortSymbol (hfamily : Family.ofChar c = .sign) (hcomment : ¬ ['-', '-'] <+: c :: cs)
    (hpair : ∀ d rest, cs = d :: rest → Symbol.pair? c d = none) :
    ByRules (c :: cs) (shortSymbol c cs) := by
  have honly : ∀ {rule : LexicalRule} {front : List Char}, rule.family = Family.ofChar c →
      front <+: c :: cs → rule.accepts front →
      ∃ sign, rule = .symbol sign ∧ front = [c] ∧ Symbol.single? c = some sign := by
    intro rule front hrule hfront h
    obtain ⟨sign, hsign, ⟨hshort, hsingle⟩ | ⟨d, rest, hcs, -, hlong⟩⟩ :=
      exists_of_accepts_sign hcomment (hrule.trans hfamily) hfront h
    · exact ⟨sign, hsign, hshort, hsingle⟩
    · rw [hpair d rest hcs] at hlong
      cases hlong
  rw [shortSymbol]
  split
  · next sign hsingle =>
    have htaken : (LexicalRule.symbol sign).Taken (c :: cs) [c] cs := by
      refine taken_of_longest (by simp [hfamily]) rfl
        (accepts_symbol_iff.mpr (Symbol.ofChars?_eq_some_iff.mp hsingle))
        fun rule front hrule hfront h => ?_
      obtain ⟨-, -, rfl, -⟩ := honly hrule hfront h
      exact Nat.le_refl 1
    exact .token htaken rfl
  · next hsingle =>
    refine .none fun rule front hfront h => ?_
    obtain ⟨sign, -, -, hsome⟩ := honly (family_of_front hfront h) hfront h
    rw [hsome] at hsingle
    cases hsingle

theorem byRules_symbol (hfamily : Family.ofChar c = .sign) (hcomment : ¬ ['-', '-'] <+: c :: cs) :
    ByRules (c :: cs) (symbol c cs) := by
  cases cs with
  | nil => exact byRules_shortSymbol hfamily hcomment fun _ _ h => nomatch h
  | cons d rest =>
    rw [symbol]
    split
    · next sign hpair =>
      have htaken : (LexicalRule.symbol sign).Taken (c :: d :: rest) [c, d] rest := by
        refine taken_of_longest (by simp [hfamily]) rfl
          (accepts_symbol_iff.mpr (Symbol.ofChars?_eq_some_iff.mp hpair))
          fun rule front hrule hfront h => ?_
        obtain ⟨-, -, ⟨rfl, -⟩ | ⟨_, _, -, rfl, -⟩⟩ :=
          exists_of_accepts_sign hcomment (hrule.trans hfamily) hfront h
        · exact Nat.le_succ 1
        · exact Nat.le_refl 2
      exact .token htaken rfl
    · next hpair =>
      refine byRules_shortSymbol hfamily hcomment fun d' rest' h => ?_
      cases h
      exact hpair

/-! #### All lexemes -/

/-- The reader is chosen by the family of the first character. -/
theorem byRules_read (h : EndsLayout (c :: cs)) : ByRules (c :: cs) (read c cs) := by
  rw [read]
  split
  · next hc =>
    have hfamily : Family.ofChar c = .number := by rw [Family.ofChar, if_pos hc]
    exact byRules_numeral hfamily (by simpa using hc)
  split
  · next hc =>
    obtain rfl := beq_iff_eq.mp hc
    exact byRules_quoted .single
  split
  · next hc =>
    obtain rfl := beq_iff_eq.mp hc
    exact byRules_quoted .double
  split
  · next hc =>
    obtain rfl := beq_iff_eq.mp hc
    exact byRules_bracketed
  split
  · next hc => exact byRules_word hc
  · next hdigit hsingle hdouble hbracket hstart =>
    have hlayout : ¬ isLayoutChar c = true := isLayoutChar_iff.not.mpr (h.not_blank c rfl)
    have hfamily : Family.ofChar c = .sign := by
      rw [Family.ofChar, if_neg hdigit, if_neg hsingle, if_neg hdouble, if_neg hbracket,
        if_neg hstart, if_neg hlayout]
    exact byRules_symbol hfamily h.not_comment

theorem ByRules.unique {cs : List Char} {r r' : Except LexicalFault Lexeme} (h : ByRules cs r)
    (h' : ByRules cs r') : r = r' := by
  cases h with
  | token htaken hvalue =>
    cases h' with
    | token htaken' hvalue' | fault htaken' hvalue' =>
      obtain ⟨rfl, rfl, rfl⟩ := htaken.unique htaken'
      rw [hvalue] at hvalue'
      cases hvalue'
      try rfl
    | none hnone => exact absurd htaken.accepts (hnone _ _ ⟨_, htaken.append_eq⟩)
  | fault htaken hvalue =>
    cases h' with
    | token htaken' hvalue' | fault htaken' hvalue' =>
      obtain ⟨rfl, rfl, rfl⟩ := htaken.unique htaken'
      rw [hvalue] at hvalue'
      cases hvalue'
      try rfl
    | none hnone => exact absurd htaken.accepts (hnone _ _ ⟨_, htaken.append_eq⟩)
  | none hnone =>
    cases h' with
    | token htaken | fault htaken => exact absurd htaken.accepts (hnone _ _ ⟨_, htaken.append_eq⟩)
    | none => rfl

/-- What is taken where there is a lexeme is not layout. -/
theorem ByRules.value_ne_none {rule : LexicalRule} {cs front rest : List Char}
    {r : Except LexicalFault Lexeme} (h : ByRules cs r) (htaken : rule.Taken cs front rest) :
    rule.value front ≠ .none := by
  cases h with
  | token htaken' hvalue | fault htaken' hvalue =>
    obtain ⟨rfl, rfl, rfl⟩ := htaken.unique htaken'
    simp [hvalue]
  | none hnone => exact absurd htaken.accepts (hnone _ _ ⟨_, htaken.append_eq⟩)

theorem ByRules.ne_nil {cs : List Char} {r : Except LexicalFault Lexeme} (h : ByRules cs r) :
    cs ≠ [] := by
  cases h with
  | token htaken | fault htaken => exact htaken.ne_nil
  | none => exact List.cons_ne_nil _ _

/-- **The reader of lexemes takes the longest match** of the lexical rules, where no layout stands in
front of it. -/
theorem byRules_iff (h : EndsLayout (c :: cs)) {r : Except LexicalFault Lexeme} :
    ByRules (c :: cs) r ↔ read c cs = r :=
  ⟨(byRules_read h).unique, fun hr => hr ▸ byRules_read h⟩

end Lexeme

/-! ### Layout -/

theorem IsLayout.append {front layout rest : List Char} (h : IsLayout (layout ++ rest) front)
    (h' : IsLayout rest layout) : IsLayout rest (front ++ layout) := by
  induction h with
  | nil => exact h'
  | blank hc _ ih => exact .blank hc ih
  | @comment body cs hbody hend _ ih =>
    rw [List.cons_append, List.cons_append, List.append_assoc]
    refine .comment hbody ?_ ih
    rwa [List.append_assoc]

/-- Layout is passed over in parts. -/
theorem IsLayout.splitLayout_append {front rest : List Char} (h : IsLayout rest front) :
    splitLayout false (front ++ rest) =
      (front ++ (splitLayout false rest).1, (splitLayout false rest).2) := by
  obtain ⟨hrest, hlayout, hends⟩ := splitLayout_eq_iff.mp (Prod.eta (splitLayout false rest)).symm
  refine splitLayout_eq_iff.mpr ⟨?_, .append ?_ hlayout, hends⟩
  · rw [List.append_assoc, ← hrest]
  · rwa [← hrest]

/-- Layout in front does not matter for what comes next. -/
theorem IsLayout.next?_append {front rest : List Char} (h : IsLayout rest front) (offset : ℕ) :
    (⟨front ++ rest, offset⟩ : Cursor).next? =
      (⟨rest, offset + Text.bytes front⟩ : Cursor).next? := by
  simp only [Cursor.next?, h.splitLayout_append, Text.bytes_append, Nat.add_assoc]

theorem isLayout_of_blanks {front : List Char} (h : ∀ c ∈ front, isLayoutChar c) (rest : List Char) :
    IsLayout rest front := by
  induction front with
  | nil => exact .nil
  | cons c front ih =>
    obtain ⟨hc, hfront⟩ := List.forall_mem_cons.mp h
    exact .blank (isLayoutChar_iff.mp hc) (ih hfront)

/-- A comment up to the end of its line. -/
theorem isLayout_of_comment (cs : List Char) :
    IsLayout (cs.dropWhile (· ≠ '\n')) ('-' :: '-' :: cs.takeWhile (· ≠ '\n')) := by
  rw [← List.append_nil (cs.takeWhile (· ≠ '\n'))]
  refine .comment (notMem_takeWhile_ne '\n' cs) (fun c hc => ?_) .nil
  have hhead := List.head?_dropWhile_not (· ≠ '\n') cs
  rw [show (cs.dropWhile (· ≠ '\n')).head? = some c from hc] at hhead
  simpa using hhead

namespace LexicalRule

variable {rule : LexicalRule} {c : Char} {cs front rest : List Char}

/-- A run of blanks is taken as a whole. -/
theorem taken_blanks (hc : isLayoutChar c) :
    blanks.Taken (c :: cs) ((c :: cs).takeWhile isLayoutChar) ((c :: cs).dropWhile isLayoutChar) := by
  have haccepts : blanks.accepts ((c :: cs).takeWhile isLayoutChar) := by
    refine accepts_blanks_iff.mpr ⟨?_, fun d hd => List.mem_takeWhile_imp hd⟩
    rw [List.takeWhile_cons_of_pos hc]
    exact List.cons_ne_nil _ _
  have hfront : (c :: cs).takeWhile isLayoutChar <+: c :: cs := List.takeWhile_prefix isLayoutChar
  have hfamily := family_of_front hfront haccepts
  refine taken_of_longest (by simp [← hfamily, family]) List.takeWhile_append_dropWhile haccepts
    fun rule front hrule hfront h => ?_
  rw [← hfamily] at hrule
  cases rule with
  | blanks => exact (prefix_takeWhile hfront (accepts_blanks_iff.mp h).2).length_le
  | _ => cases hrule

/-- A comment is taken up to the end of its line, and not as minus signs. -/
theorem taken_comment :
    comment.Taken ('-' :: '-' :: cs) ('-' :: '-' :: cs.takeWhile (· ≠ '\n'))
      (cs.dropWhile (· ≠ '\n')) := by
  refine taken_of_longest (by decide) (by simp)
    (accepts_comment_iff.mpr ⟨_, notMem_takeWhile_ne '\n' cs, rfl⟩)
    fun rule front hrule hfront h => ?_
  cases rule with
  | comment =>
    obtain ⟨body, hbody, rfl⟩ := accepts_comment_iff.mp h
    have hline := (List.cons_prefix_cons.mp (List.cons_prefix_cons.mp hfront).2).2
    refine Nat.add_le_add_right (prefix_takeWhile hline fun c hc => ?_).length_le 2
    exact decide_eq_true fun heq => hbody (heq ▸ hc)
  | symbol sign =>
    have hlength : sign.text.toList.length ≤ 2 := by cases sign <;> decide
    rw [accepts_symbol_iff.mp h]
    exact Nat.le_trans hlength (Nat.le_add_left 2 _)
  | _ => cases hrule

end LexicalRule

/-! ### The step to the next token -/

namespace Cursor

/-- The step to the next token as the rules give it: what is taken as layout is passed over, then a
token or a fault follows, unless the text is at its end. -/
inductive ByRules : Cursor → Option (TokenItem × Cursor) → Prop
  | done (offset : ℕ) : ByRules ⟨[], offset⟩ none
  | skip {rule : LexicalRule} {cs front rest : List Char} {offset : ℕ}
      {r : Option (TokenItem × Cursor)} (htaken : rule.Taken cs front rest)
      (hvalue : rule.value front = none) (hrest : ByRules ⟨rest, offset + Text.bytes front⟩ r) :
      ByRules ⟨cs, offset⟩ r
  | token {cs : List Char} {l : Lexeme} (offset : ℕ) (hlexeme : Lexeme.ByRules cs (.ok l)) :
      ByRules ⟨cs, offset⟩ (some (.ok ⟨l.kind, ⟨offset, offset + Text.bytes l.chars⟩⟩,
        ⟨l.rest, offset + Text.bytes l.chars⟩))
  | fault {cs : List Char} {fault : LexicalFault} (offset : ℕ)
      (hlexeme : Lexeme.ByRules cs (.error fault)) :
      ByRules ⟨cs, offset⟩ (some (.error (fault.toError offset), ⟨[], offset⟩))

theorem byRules_next? (c : Cursor) : ByRules c c.next? := by
  obtain ⟨cs, offset⟩ := c
  induction hlength : cs.length using Nat.strongRecOn generalizing cs offset with
  | _ length ih =>
    subst hlength
    have hskip : ∀ {rule : LexicalRule} {front rest : List Char}, rule.Taken cs front rest →
        rule.value front = none → IsLayout rest front →
        ByRules ⟨cs, offset⟩ (⟨cs, offset⟩ : Cursor).next? := by
      intro rule front rest htaken hvalue hlayout
      obtain rfl := htaken.append_eq
      have hpos := List.length_pos_iff.mpr (LexicalRule.ne_nil_of_accepts htaken.accepts)
      rw [hlayout.next?_append]
      refine .skip htaken hvalue (ih rest.length ?_ rest _ rfl)
      rw [List.length_append]
      omega
    cases cs with
    | nil => exact .done offset
    | cons c cs =>
      by_cases hblank : isLayoutChar c
      · exact hskip (LexicalRule.taken_blanks hblank) rfl
          (isLayout_of_blanks (fun d hd => List.mem_takeWhile_imp hd) _)
      by_cases hcomment : ['-', '-'] <+: c :: cs
      · obtain ⟨line, heq⟩ := hcomment
        cases heq
        exact hskip LexicalRule.taken_comment rfl (isLayout_of_comment line)
      · have hends : EndsLayout (c :: cs) :=
          ⟨fun d hd => by cases hd; exact isLayoutChar_iff.not.mp hblank, hcomment⟩
        have hlexeme := Lexeme.byRules_read hends
        simp only [next?, hends.splitLayout_eq]
        cases hread : Lexeme.read c cs with
        | ok l =>
          rw [hread] at hlexeme
          exact .token offset hlexeme
        | error fault =>
          rw [hread] at hlexeme
          exact .fault offset hlexeme

/-- The induction is on the layout that is passed over. -/
theorem ByRules.unique {c : Cursor} {r r' : Option (TokenItem × Cursor)} (h : ByRules c r)
    (h' : ByRules c r') : r = r' := by
  induction h generalizing r' with
  | done offset =>
    cases h' with
    | done => rfl
    | skip htaken => exact absurd rfl htaken.ne_nil
    | token _ hlexeme | fault _ hlexeme => exact absurd rfl hlexeme.ne_nil
  | skip htaken hvalue _ ih =>
    cases h' with
    | done => exact absurd rfl htaken.ne_nil
    | skip htaken' _ hrest' =>
      obtain ⟨rfl, rfl, rfl⟩ := htaken.unique htaken'
      exact ih hrest'
    | token _ hlexeme | fault _ hlexeme => exact absurd hvalue (hlexeme.value_ne_none htaken)
  | token offset hlexeme =>
    cases h' with
    | done => exact absurd rfl hlexeme.ne_nil
    | skip htaken hvalue => exact absurd hvalue (hlexeme.value_ne_none htaken)
    | token _ hlexeme' =>
      cases hlexeme.unique hlexeme'
      rfl
    | fault _ hlexeme' => cases hlexeme.unique hlexeme'
  | fault offset hlexeme =>
    cases h' with
    | done => exact absurd rfl hlexeme.ne_nil
    | skip htaken hvalue => exact absurd hvalue (hlexeme.value_ne_none htaken)
    | token _ hlexeme' => cases hlexeme.unique hlexeme'
    | fault _ hlexeme' =>
      cases hlexeme.unique hlexeme'
      rfl

/-- **The step to the next token takes the longest match** of the lexical rules, again and again as long
as it is layout. -/
theorem byRules_iff {c : Cursor} {r : Option (TokenItem × Cursor)} : ByRules c r ↔ c.next? = r :=
  ⟨(byRules_next? c).unique, fun hr => hr ▸ byRules_next? c⟩

end Cursor

end SqlPredicates
