import SqlPredicates.Proofs.Binary64.ReadBack
import SqlPredicates.Proofs.Search.Shape
import SqlPredicates.Search.Parser

/-!
# Tokens that spell a search term

The concrete syntax of search terms: which sequences of tokens a term can be written with, spans
included. As for naming rules there is no precedence in it. A term can be spelled in several ways,
since connectives and negations have two spellings each, the name of a form can be written in either
case, and a weight is whatever numeral is rounded to it.

The canonical kinds of a term are one choice among these. For a weight it is the numeral that the
weight is printed as, an integer or a decimal; that it is rounded to the weight again is where
printed numbers have to read back. Respelling the tokens of a term, whichever they are, leads to the
canonical kinds.

## Main definitions

* `WeightedItem.Spells`, `Search.SpellItems`, `Search.SpellTerms`, `Term.Spells` — the concrete syntax
* `Search.numeral`, `Term.kinds` — the kinds of the tokens in the canonical spelling
* `Search.respelled` — tokens in their canonical spelling

## Main results

* `Term.Spells.ne_endOfInput` — the end of the input is no part of a term
* `Search.number?_numeral` — the numeral of a weight denotes that weight
* `Term.canBeSpelled` — tokens of the canonical kinds spell the term up to its places
* `Search.respelled_of_spells` — respelling leads to the canonical spelling
-/

namespace SqlPredicates

/-- The token that spells a word or a phrase. -/
def WordOrPhrase.kind : WordOrPhrase → Token.Kind
  | .word text => .identifier text
  | .phrase quoted => .string quoted

/-- The token that spells a connective in canonical texts. -/
def Connective.kind : Connective → Token.Kind
  | .or => .keyword .or
  | .and => .keyword .and
  | .near => .keyword .near

theorem Connective.ofKind?_kind (op : Connective) : ofKind? op.kind = some op := by
  cases op <;> rfl

/-- The token that a word or phrase was read from. -/
def SimpleTerm.token (t : SimpleTerm) : Token := ⟨t.literal.kind, t.span⟩

namespace Search

theorem literal?_kind (literal : WordOrPhrase) : literal? literal.kind = some literal := by
  cases literal <;> rfl

theorem kind_of_literal? {kind : Token.Kind} {literal : WordOrPhrase}
    (h : literal? kind = some literal) : kind = literal.kind := by
  cases kind with
  | string | identifier =>
    cases h
    rfl
  | _ => cases h

/-- The tokens that stand for a negation. -/
def Negates (kind : Token.Kind) : Prop := kind = .keyword .not ∨ kind = .symbol .bang

/-- The kind of token that spells the same connective or negation in canonical texts. -/
def canonicalKind : Token.Kind → Token.Kind
  | .symbol .bar => .keyword .or
  | .symbol .amp => .keyword .and
  | .symbol .tilde => .keyword .near
  | .symbol .bang => .keyword .not
  | kind => kind

theorem connective_canonicalKind (kind : Token.Kind) :
    Connective.ofKind? (canonicalKind kind) = Connective.ofKind? kind := by
  cases kind with
  | symbol sign => cases sign <;> rfl
  | _ => rfl

theorem negates_canonicalKind (kind : Token.Kind) : Negates (canonicalKind kind) ↔ Negates kind := by
  cases kind with
  | symbol sign => cases sign <;> simp [canonicalKind, Negates]
  | _ => exact Iff.rfl

/-- Only connectives and negations have a second spelling. -/
theorem canonicalKind_of_none {kind : Token.Kind} (hconnective : Connective.ofKind? kind = none)
    (hnot : ¬ Negates kind) : canonicalKind kind = kind := by
  cases kind with
  | symbol sign =>
    cases sign with
    | bar | amp | tilde => cases hconnective
    | bang => exact absurd (.inr rfl) hnot
    | _ => rfl
  | _ => rfl

end Search

/-! ### Concrete syntax -/

/-- Tokens that spell an alternative of `ISABOUT`. -/
inductive WeightedItem.Spells : List Token → WeightedItem → Prop
  | plain (t : SimpleTerm) : Spells [t.token] ⟨t, none, t.span⟩
  | weighted (t : SimpleTerm) (word opening closing : Span) {number : Token} {weight : Binary64}
      (hnumber : Search.number? number.kind = some weight)
      (hle : weight.le Binary64.one = true) :
      Spells
        [t.token, ⟨.keyword .weight, word⟩, ⟨.symbol .opening, opening⟩, number,
          ⟨.symbol .closing, closing⟩]
        ⟨t, some weight, t.span.cover closing⟩

namespace Search

/-- Tokens that spell alternatives of `ISABOUT` with commas between them. -/
inductive SpellItems : List Token → List WeightedItem → Prop
  | last {ts : List Token} {i : WeightedItem} (h : i.Spells ts) : SpellItems ts [i]
  | more {ts us : List Token} {i : WeightedItem} {items : List WeightedItem} (comma : Span)
      (h : i.Spells ts) (hs : SpellItems us items) :
      SpellItems (ts ++ ⟨.symbol .comma, comma⟩ :: us) (i :: items)

/-- Tokens that spell words and phrases, each with a comma before it. -/
inductive SpellTerms : List Token → List SimpleTerm → Prop
  | last (comma : Span) (t : SimpleTerm) : SpellTerms [⟨.symbol .comma, comma⟩, t.token] [t]
  | more {ts : List Token} {terms : List SimpleTerm} (comma : Span) (t : SimpleTerm)
      (hs : SpellTerms ts terms) :
      SpellTerms (⟨.symbol .comma, comma⟩ :: t.token :: ts) (t :: terms)

end Search

/-- Tokens that spell a search term. -/
inductive Term.Spells : List Token → Term → Prop
  | simple (t : SimpleTerm) : Spells [t.token] (.simple t)
  | weighted {ts : List Token} {items : List WeightedItem} (word opening closing : Span)
      (h : Search.SpellItems ts items) :
      Spells
        (⟨.keyword .isabout, word⟩ :: ⟨.symbol .opening, opening⟩ ::
          (ts ++ [⟨.symbol .closing, closing⟩]))
        (.weighted items (word.cover closing))
  | generation {ts : List Token} {terms : List SimpleTerm} (word opening closing : Span)
      {name : Token} {form : GenerationForm} (hname : GenerationForm.ofKind? name.kind = some form)
      (h : Search.SpellTerms ts terms) :
      Spells
        (⟨.keyword .formsof, word⟩ :: ⟨.symbol .opening, opening⟩ :: name ::
          (ts ++ [⟨.symbol .closing, closing⟩]))
        (.generation form terms (word.cover closing))
  | group {ts : List Token} {inner : Term} (opening closing : Span) (h : Spells ts inner) :
      Spells (⟨.symbol .opening, opening⟩ :: (ts ++ [⟨.symbol .closing, closing⟩]))
        (.group inner (opening.cover closing))
  | not {t : Token} {ts : List Token} {inner : Term} (ht : Search.Negates t.kind)
      (h : Spells ts inner) : Spells (t :: ts) (.not inner (t.span.cover inner.span))
  | joined {t : Token} {op : Connective} {ts us : List Token} {lhs rhs : Term}
      (ht : Connective.ofKind? t.kind = some op) (hl : Spells ts lhs) (hr : Spells us rhs) :
      Spells (ts ++ t :: us) (.joined op lhs rhs (lhs.span.cover rhs.span))

/-! ### The end of the input is never spelled -/

theorem SimpleTerm.token_ne_endOfInput (t : SimpleTerm) : t.token.kind ≠ .endOfInput := by
  obtain ⟨literal, span⟩ := t
  cases literal <;> simp [token, WordOrPhrase.kind]

theorem Search.ne_endOfInput_of_number? {kind : Token.Kind} {weight : Binary64}
    (h : number? kind = some weight) : kind ≠ .endOfInput := by
  rintro rfl
  cases h

theorem GenerationForm.ne_endOfInput_of_ofKind? {kind : Token.Kind} {form : GenerationForm}
    (h : ofKind? kind = some form) : kind ≠ .endOfInput := by
  rintro rfl
  cases h

theorem Search.Negates.ne_endOfInput {kind : Token.Kind} (h : Negates kind) :
    kind ≠ .endOfInput := by
  rcases h with rfl | rfl <;> simp

theorem Connective.ne_endOfInput_of_ofKind? {kind : Token.Kind} {op : Connective}
    (h : ofKind? kind = some op) : kind ≠ .endOfInput := by
  rintro rfl
  cases h

theorem WeightedItem.Spells.ne_endOfInput {ts : List Token} {i : WeightedItem} (h : i.Spells ts) :
    ∀ t ∈ ts, t.kind ≠ .endOfInput := by
  cases h with
  | plain t => simpa using t.token_ne_endOfInput
  | weighted t word opening closing hnumber hle =>
    have hweight := Search.ne_endOfInput_of_number? hnumber
    simp [t.token_ne_endOfInput, hweight]

theorem WeightedItem.Spells.length_pos {ts : List Token} {i : WeightedItem} (h : i.Spells ts) :
    0 < ts.length := by
  cases h <;> simp

namespace Search

theorem SpellItems.ne_endOfInput {ts : List Token} {items : List WeightedItem}
    (h : SpellItems ts items) : ∀ t ∈ ts, t.kind ≠ .endOfInput := by
  induction h with
  | last h => exact h.ne_endOfInput
  | more comma h _ ih =>
    refine List.forall_mem_append.mpr ⟨h.ne_endOfInput, ?_⟩
    exact List.forall_mem_cons.mpr ⟨by simp, ih⟩

theorem SpellTerms.ne_endOfInput {ts : List Token} {terms : List SimpleTerm}
    (h : SpellTerms ts terms) : ∀ t ∈ ts, t.kind ≠ .endOfInput := by
  induction h with
  | last comma t => simp [t.token_ne_endOfInput]
  | more comma t _ ih =>
    refine List.forall_mem_cons.mpr ⟨by simp, ?_⟩
    exact List.forall_mem_cons.mpr ⟨t.token_ne_endOfInput, ih⟩

theorem SpellItems.ne_nil {ts : List Token} {items : List WeightedItem} (h : SpellItems ts items) :
    items ≠ [] := by
  cases h <;> simp

theorem SpellTerms.ne_nil {ts : List Token} {terms : List SimpleTerm} (h : SpellTerms ts terms) :
    terms ≠ [] := by
  cases h <;> simp

end Search

namespace Term

theorem Spells.length_pos {ts : List Token} {t : Term} (h : Spells ts t) : 0 < ts.length := by
  cases h <;> simp

/-- The end of the input is no part of a term. -/
theorem Spells.ne_endOfInput {ts : List Token} {t : Term} (h : Spells ts t) :
    ∀ u ∈ ts, u.kind ≠ .endOfInput := by
  induction h with
  | simple t => simpa using t.token_ne_endOfInput
  | weighted word opening closing h =>
    refine List.forall_mem_cons.mpr ⟨by simp, List.forall_mem_cons.mpr ⟨by simp, ?_⟩⟩
    exact List.forall_mem_append.mpr ⟨h.ne_endOfInput, by simp⟩
  | generation word opening closing hname h =>
    refine List.forall_mem_cons.mpr ⟨by simp, List.forall_mem_cons.mpr ⟨by simp, ?_⟩⟩
    refine List.forall_mem_cons.mpr ⟨GenerationForm.ne_endOfInput_of_ofKind? hname, ?_⟩
    exact List.forall_mem_append.mpr ⟨h.ne_endOfInput, by simp⟩
  | group opening closing _ ih =>
    exact List.forall_mem_cons.mpr ⟨by simp, List.forall_mem_append.mpr ⟨ih, by simp⟩⟩
  | not ht _ ih => exact List.forall_mem_cons.mpr ⟨ht.ne_endOfInput, ih⟩
  | joined ht _ _ ihl ihr =>
    refine List.forall_mem_append.mpr ⟨ihl, ?_⟩
    exact List.forall_mem_cons.mpr ⟨Connective.ne_endOfInput_of_ofKind? ht, ihr⟩

end Term

/-! ### The canonical spelling -/

namespace Search

/-- The numeral that a weight is printed as. -/
def numeral (weight : Binary64) : Token.Kind :=
  if weight.bits = 0 then .integer 0
  else
    match weight.shortest.exponent with
    | .ofNat k => .integer (UInt64.ofNat (weight.shortest.digits * 10 ^ k))
    | .negSucc _ => .decimal weight

/-- A weight without a fraction is printed as zero or one. -/
theorem digits_mul_le_one {weight : Binary64} (h : weight.le Binary64.one = true) {k : ℕ}
    (hk : weight.shortest.exponent = .ofNat k) :
    weight.shortest.digits * 10 ^ k ≤ 1 ∧
      Binary64.ofNat (weight.shortest.digits * 10 ^ k) = weight := by
  have hreads : Binary64.ofDecimal weight.shortest.digits weight.shortest.exponent = weight :=
    of_decide_eq_true weight.readsAs_shortest
  rw [hk] at hreads
  have hvalue : Binary64.ofNat (weight.shortest.digits * 10 ^ k) = weight := hreads
  refine ⟨Binary64.le_one_of_ofNat_le_one ?_, hvalue⟩
  rw [hvalue]
  exact h

theorem toNat_ofNat_of_le_one {n : ℕ} (h : n ≤ 1) : (UInt64.ofNat n).toNat = n :=
  UInt64.toNat_ofNat_of_lt' (Nat.lt_of_le_of_lt h (by decide))

/-- **The numeral of a weight denotes that weight.** -/
theorem number?_numeral {weight : Binary64} (h : weight.le Binary64.one = true) :
    number? (numeral weight) = some weight := by
  rw [numeral]
  split
  · next hzero =>
    have hweight : weight = .zero := by
      obtain ⟨bits, hbits⟩ := weight
      cases hzero
      rfl
    rw [hweight, number?, UInt64.toNat_zero, Binary64.ofNat_zero]
  · split
    · next k hk =>
      obtain ⟨hle, hvalue⟩ := digits_mul_le_one h hk
      rw [number?, toNat_ofNat_of_le_one hle, hvalue]
    · rfl

end Search

/-- The kinds of the tokens of an alternative of `ISABOUT` in the canonical spelling. -/
def WeightedItem.kinds (i : WeightedItem) : List Token.Kind :=
  match i.weight with
  | none => [i.term.literal.kind]
  | some weight =>
    [i.term.literal.kind, .keyword .weight, .symbol .opening, Search.numeral weight,
      .symbol .closing]

/-- The kinds of the tokens of alternatives, with a comma between two of them. -/
def Search.itemKinds : List WeightedItem → List Token.Kind
  | [] => []
  | [i] => i.kinds
  | i :: items => i.kinds ++ .symbol .comma :: itemKinds items

namespace Term

/-- The kinds of the tokens in the canonical spelling. -/
def kinds : Term → List Token.Kind
  | simple t => [t.literal.kind]
  | weighted items _ =>
    .keyword .isabout :: .symbol .opening ::
      (Search.itemKinds items ++ [.symbol .closing])
  | generation form terms _ =>
    .keyword .formsof :: .symbol .opening :: .identifier form.text ::
      (terms.flatMap (fun t => [.symbol .comma, t.literal.kind]) ++ [.symbol .closing])
  | group inner _ => .symbol .opening :: (inner.kinds ++ [.symbol .closing])
  | not inner _ => .keyword .not :: inner.kinds
  | joined op lhs rhs _ => lhs.kinds ++ op.kind :: rhs.kinds

end Term

namespace Search

theorem exists_item_of_kinds {i : WeightedItem} (h : i.Writable) {ts : List Token}
    (hts : ts.map Token.kind = i.kinds) :
    ∃ i' : WeightedItem, i'.Spells ts ∧ i'.erase = i.erase := by
  obtain ⟨t, weight, span⟩ := i
  cases weight with
  | none =>
    obtain ⟨⟨_, place⟩, rfl, rfl⟩ := List.map_eq_singleton_iff.mp hts
    exact ⟨⟨⟨t.literal, place⟩, none, place⟩, .plain ⟨t.literal, place⟩, rfl⟩
  | some weight =>
    have hle : weight.le Binary64.one = true := h.2 weight rfl
    obtain ⟨⟨_, place⟩, us, rfl, rfl, hus⟩ := List.map_eq_cons_iff.mp hts
    obtain ⟨⟨_, word⟩, vs, rfl, rfl, hvs⟩ := List.map_eq_cons_iff.mp hus
    obtain ⟨⟨_, opening⟩, ws, rfl, rfl, hws⟩ := List.map_eq_cons_iff.mp hvs
    obtain ⟨number, xs, rfl, hnumber, hxs⟩ := List.map_eq_cons_iff.mp hws
    obtain ⟨⟨_, closing⟩, rfl, rfl⟩ := List.map_eq_singleton_iff.mp hxs
    have hvalue : number? number.kind = some weight := by
      rw [hnumber]
      exact number?_numeral hle
    exact ⟨_, .weighted ⟨t.literal, place⟩ word opening closing hvalue hle, rfl⟩

theorem exists_items_of_kinds {items : List WeightedItem} (hne : items ≠ [])
    (h : ∀ i ∈ items, i.Writable) {ts : List Token}
    (hts : ts.map Token.kind = itemKinds items) :
    ∃ items', SpellItems ts items' ∧
      items'.map WeightedItem.erase = items.map WeightedItem.erase := by
  induction items generalizing ts with
  | nil => exact absurd rfl hne
  | cons i items ih =>
    cases items with
    | nil =>
      obtain ⟨i', hspells, herase⟩ := exists_item_of_kinds (h i List.mem_cons_self) hts
      exact ⟨[i'], .last hspells, by rw [List.map_singleton, herase, List.map_singleton]⟩
    | cons i₂ items =>
      obtain ⟨us, vs, rfl, hus, hvs⟩ := List.map_eq_append_iff.mp hts
      obtain ⟨⟨_, comma⟩, ws, rfl, rfl, hws⟩ := List.map_eq_cons_iff.mp hvs
      obtain ⟨i', hspells, herase⟩ := exists_item_of_kinds (h i List.mem_cons_self) hus
      obtain ⟨items', hitems, heraseAll⟩ :=
        ih (by simp) (fun i hi => h i (List.mem_cons_of_mem _ hi)) hws
      refine ⟨i' :: items', .more comma hspells hitems, ?_⟩
      rw [List.map_cons, herase, heraseAll]
      rfl

theorem exists_terms_of_kinds {terms : List SimpleTerm} (hne : terms ≠ []) {ts : List Token}
    (hts : ts.map Token.kind = terms.flatMap fun t => [.symbol .comma, t.literal.kind]) :
    ∃ terms', SpellTerms ts terms' ∧ terms'.map SimpleTerm.erase = terms.map SimpleTerm.erase := by
  induction terms generalizing ts with
  | nil => exact absurd rfl hne
  | cons t terms ih =>
    obtain ⟨⟨_, comma⟩, us, rfl, rfl, hus⟩ := List.map_eq_cons_iff.mp hts
    obtain ⟨⟨_, place⟩, vs, rfl, rfl, hvs⟩ := List.map_eq_cons_iff.mp hus
    cases terms with
    | nil =>
      obtain rfl := List.map_eq_nil_iff.mp hvs
      exact ⟨[⟨t.literal, place⟩], .last comma ⟨t.literal, place⟩, rfl⟩
    | cons t₂ terms =>
      obtain ⟨terms', hterms, herase⟩ := ih (by simp) hvs
      refine ⟨⟨t.literal, place⟩ :: terms', .more comma ⟨t.literal, place⟩ hterms, ?_⟩
      rw [List.map_cons, herase]
      rfl

theorem ofKind?_text (form : GenerationForm) :
    GenerationForm.ofKind? (.identifier form.text) = some form := by
  cases form <;> decide

end Search

namespace Term

/-- **Tokens of the canonical kinds spell the term up to its places.** -/
theorem canBeSpelled {t : Term} (h : t.Writable) {ts : List Token}
    (hts : ts.map Token.kind = t.kinds) : ∃ t' : Term, Spells ts t' ∧ t'.erase = t.erase := by
  induction t generalizing ts with
  | simple t =>
    obtain ⟨⟨_, place⟩, rfl, rfl⟩ := List.map_eq_singleton_iff.mp hts
    exact ⟨_, .simple ⟨t.literal, place⟩, rfl⟩
  | weighted items span =>
    obtain ⟨⟨_, word⟩, us, rfl, rfl, hus⟩ := List.map_eq_cons_iff.mp hts
    obtain ⟨⟨_, opening⟩, vs, rfl, rfl, hvs⟩ := List.map_eq_cons_iff.mp hus
    obtain ⟨ws, xs, rfl, hws, hxs⟩ := List.map_eq_append_iff.mp hvs
    obtain ⟨⟨_, closing⟩, rfl, rfl⟩ := List.map_eq_singleton_iff.mp hxs
    obtain ⟨items', hitems, herase⟩ := Search.exists_items_of_kinds h.1 h.2 hws
    exact ⟨_, .weighted word opening closing hitems, by rw [erase, erase, herase]⟩
  | generation form terms span =>
    obtain ⟨⟨_, word⟩, us, rfl, rfl, hus⟩ := List.map_eq_cons_iff.mp hts
    obtain ⟨⟨_, opening⟩, vs, rfl, rfl, hvs⟩ := List.map_eq_cons_iff.mp hus
    obtain ⟨name, ws, rfl, hname, hws⟩ := List.map_eq_cons_iff.mp hvs
    obtain ⟨xs, ys, rfl, hxs, hys⟩ := List.map_eq_append_iff.mp hws
    obtain ⟨⟨_, closing⟩, rfl, rfl⟩ := List.map_eq_singleton_iff.mp hys
    obtain ⟨terms', hterms, herase⟩ := Search.exists_terms_of_kinds h.1 hxs
    have hform : GenerationForm.ofKind? name.kind = some form := by
      rw [hname]
      exact Search.ofKind?_text form
    exact ⟨_, .generation word opening closing hform hterms, by rw [erase, erase, herase]⟩
  | group inner span ih =>
    obtain ⟨⟨_, opening⟩, us, rfl, rfl, hus⟩ := List.map_eq_cons_iff.mp hts
    obtain ⟨ws, xs, rfl, hws, hxs⟩ := List.map_eq_append_iff.mp hus
    obtain ⟨⟨_, closing⟩, rfl, rfl⟩ := List.map_eq_singleton_iff.mp hxs
    obtain ⟨inner', hinner, herase⟩ := ih h hws
    exact ⟨_, .group opening closing hinner, by rw [erase, erase, herase]⟩
  | not inner span ih =>
    obtain ⟨t, us, rfl, ht, hus⟩ := List.map_eq_cons_iff.mp hts
    obtain ⟨inner', hinner, herase⟩ := ih h hus
    exact ⟨_, .not (.inl ht) hinner, by rw [erase, erase, herase]⟩
  | joined op lhs rhs span ihl ihr =>
    obtain ⟨us, vs, rfl, hus, hvs⟩ := List.map_eq_append_iff.mp hts
    obtain ⟨t, ws, rfl, ht, hws⟩ := List.map_eq_cons_iff.mp hvs
    obtain ⟨lhs', hl, heraseL⟩ := ihl h.1 hus
    obtain ⟨rhs', hr, heraseR⟩ := ihr h.2 hws
    exact ⟨_, .joined (ht ▸ op.ofKind?_kind) hl hr, by rw [erase, erase, heraseL, heraseR]⟩

end Term

/-! ### Respelling -/

namespace Search

/-- A connective, a negation or a numeral in its canonical spelling. -/
def respelledKind (kind : Token.Kind) : Token.Kind :=
  match number? kind with
  | some value => numeral value
  | none => canonicalKind kind

/-- The name of a form in its canonical spelling. -/
def respelledForm (kind : Token.Kind) : Token.Kind :=
  match GenerationForm.ofKind? kind with
  | some form => .identifier form.text
  | none => kind

/-- The tokens in their canonical spelling. What follows after `FORMSOF` and a parenthesis is the
name of a form. -/
def respelled : List Token.Kind → List Token.Kind
  | .keyword .formsof :: .symbol .opening :: name :: kinds =>
    .keyword .formsof :: .symbol .opening :: respelledForm name :: respelled kinds
  | kind :: kinds => respelledKind kind :: respelled kinds
  | [] => []

theorem respelled_cons_of_ne {kind : Token.Kind} (h : kind ≠ .keyword .formsof)
    (kinds : List Token.Kind) :
    respelled (kind :: kinds) = respelledKind kind :: respelled kinds := by
  rw [respelled]
  rintro name rest rfl
  exact absurd rfl h

/-- The beginning of tokens is respelled in the same way, also if it ends before the name of a
form. -/
theorem respelled_prefix (kinds kinds' : List Token.Kind) :
    respelled kinds <+: respelled (kinds ++ kinds') := by
  fun_induction respelled kinds with
  | case1 name kinds ih =>
    simp only [List.cons_append, respelled, List.cons_prefix_cons, true_and]
    exact ih
  | case2 kind kinds hform ih =>
    by_cases h : ∃ name rest, kind = .keyword .formsof ∧
        kinds ++ kinds' = .symbol .opening :: name :: rest
    · obtain ⟨name, rest, rfl, happend⟩ := h
      rw [List.cons_append, happend]
      rcases kinds with _ | ⟨opening, _ | ⟨name', kinds⟩⟩
      · exact ⟨_, rfl⟩
      · cases happend
        exact ⟨_, rfl⟩
      · cases happend
        exact (hform name kinds rfl rfl).elim
    · rw [List.cons_append, respelled]
      · exact List.cons_prefix_cons.mpr ⟨rfl, ih⟩
      · intro name rest hkind happend
        exact h ⟨name, rest, hkind, happend⟩
  | case3 => exact List.nil_prefix

theorem respelledKind_of_connective {kind : Token.Kind} {op : Connective}
    (h : Connective.ofKind? kind = some op) : respelledKind kind = op.kind := by
  cases kind with
  | symbol sign => cases sign <;> cases h <;> rfl
  | keyword word => cases word <;> cases h <;> rfl
  | _ => cases h

theorem respelledKind_of_negates {kind : Token.Kind} (h : Negates kind) :
    respelledKind kind = .keyword .not := by
  rcases h with rfl | rfl <;> rfl

theorem respelledKind_of_number? {kind : Token.Kind} {weight : Binary64}
    (h : number? kind = some weight) : respelledKind kind = numeral weight := by
  rw [respelledKind, h]

theorem respelledForm_of_form {kind : Token.Kind} {form : GenerationForm}
    (h : GenerationForm.ofKind? kind = some form) :
    respelledForm kind = .identifier form.text := by
  rw [respelledForm, h]

theorem respelled_symbol (sign : Symbol) (kinds : List Token.Kind) :
    respelled (.symbol sign :: kinds) = canonicalKind (.symbol sign) :: respelled kinds :=
  respelled_cons_of_ne (by simp) kinds

theorem respelled_literal (literal : WordOrPhrase) (kinds : List Token.Kind) :
    respelled (literal.kind :: kinds) = literal.kind :: respelled kinds := by
  cases literal <;> exact respelled_cons_of_ne (by simp [WordOrPhrase.kind]) kinds

theorem respelled_item {i : WeightedItem} {ts : List Token} (h : i.Spells ts)
    (kinds : List Token.Kind) :
    respelled (ts.map Token.kind ++ kinds) = i.kinds ++ respelled kinds := by
  cases h with
  | plain t => exact respelled_literal t.literal kinds
  | @weighted t word opening closing number weight hnumber hle =>
    have hne : number.kind ≠ .keyword .formsof := by
      intro hkind
      rw [hkind] at hnumber
      cases hnumber
    simp only [List.map_cons, List.map_nil, List.cons_append, List.nil_append, SimpleTerm.token,
      respelled_literal, WeightedItem.kinds]
    rw [respelled_cons_of_ne (by simp), respelled_symbol, respelled_cons_of_ne hne,
      respelled_symbol, respelledKind_of_number? hnumber]
    rfl

theorem respelled_items {items : List WeightedItem} {ts : List Token} (h : SpellItems ts items)
    (kinds : List Token.Kind) :
    respelled (ts.map Token.kind ++ kinds) = itemKinds items ++ respelled kinds := by
  induction h with
  | last h => exact respelled_item h kinds
  | @more ts us i items comma h hs ih =>
    have hitems : itemKinds (i :: items) = i.kinds ++ .symbol .comma :: itemKinds items := by
      rw [itemKinds]
      exact hs.ne_nil
    rw [List.map_append, List.append_assoc, respelled_item h, List.map_cons, List.cons_append,
      respelled_symbol, ih, hitems, List.append_assoc]
    rfl

theorem respelled_terms {terms : List SimpleTerm} {ts : List Token} (h : SpellTerms ts terms)
    (kinds : List Token.Kind) :
    respelled (ts.map Token.kind ++ kinds) =
      terms.flatMap (fun t => [.symbol .comma, t.literal.kind]) ++ respelled kinds := by
  induction h with
  | last comma t =>
    change respelled (.symbol .comma :: t.literal.kind :: kinds) = _
    rw [respelled_symbol, respelled_literal]
    rfl
  | @more ts terms comma t hs ih =>
    change respelled (.symbol .comma :: t.literal.kind :: (ts.map Token.kind ++ kinds)) = _
    rw [respelled_symbol, respelled_literal, ih]
    rfl

/-- Tokens that spell a term become its canonical spelling when they are respelled. -/
theorem respelled_of_spells {t : Term} {ts : List Token} (h : t.Spells ts)
    (kinds : List Token.Kind) :
    respelled (ts.map Token.kind ++ kinds) = t.kinds ++ respelled kinds := by
  induction h generalizing kinds with
  | simple t => exact respelled_literal t.literal kinds
  | weighted word opening closing h =>
    simp only [List.map_cons, List.map_append, List.map_nil, List.cons_append, List.append_assoc,
      List.nil_append, Term.kinds]
    rw [respelled_cons_of_ne (by simp), respelled_symbol, respelled_items h, respelled_symbol]
    rfl
  | generation word opening closing hname h =>
    simp only [List.map_cons, List.map_append, List.map_nil, List.cons_append, List.append_assoc,
      List.nil_append, Term.kinds]
    rw [respelled, respelledForm_of_form hname, respelled_terms h, respelled_symbol]
    rfl
  | group opening closing _ ih =>
    simp only [List.map_cons, List.map_append, List.map_nil, List.cons_append, List.append_assoc,
      List.nil_append, Term.kinds]
    rw [respelled_symbol, ih, respelled_symbol]
    rfl
  | @not t ts inner ht _ ih =>
    have hne : t.kind ≠ .keyword .formsof := by rcases ht with h | h <;> simp [h]
    rw [List.map_cons, List.cons_append, respelled_cons_of_ne hne, ih,
      respelledKind_of_negates ht]
    rfl
  | @joined t op ts us lhs rhs ht _ _ ihl ihr =>
    have hne : t.kind ≠ .keyword .formsof := by
      intro hkind
      rw [hkind] at ht
      cases ht
    rw [List.map_append, List.append_assoc, ihl, List.map_cons, List.cons_append,
      respelled_cons_of_ne hne, ihr, respelledKind_of_connective ht, Term.kinds,
      List.append_assoc, List.cons_append]

end Search

end SqlPredicates
