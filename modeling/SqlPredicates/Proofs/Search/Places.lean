import SqlPredicates.Proofs.NodeOrder
import SqlPredicates.Proofs.Search.Grammar
import SqlPredicates.Proofs.Token.Slices

/-!
# The places of search terms

The span of a term in a search condition is the part of the text that it was read from, and nothing
but that part, as for naming rules. The words and phrases in the lists of `ISABOUT` and `FORMSOF`
are terms of their own when they are read alone.

## Main definitions

* `Term.shift` — all places moved to the right

## Main results

* `Term.Spells.spans` — the span of a term is that of its tokens
* `Term.Spells.exists_of_within` — the tokens of a term inside another one
* `Term.Spells.exists_unshift` — tokens that are moved spell terms that are moved
* `parseCondition_slice` — what the part of a text at the span of a term is read as
-/

namespace SqlPredicates

/-! ### Moving a term -/

/-- The word or phrase with its place moved to the right by `n` bytes. -/
def SimpleTerm.shift (n : ℕ) (t : SimpleTerm) : SimpleTerm := { t with span := t.span.shift n }

/-- The alternative with its places moved to the right by `n` bytes. -/
def WeightedItem.shift (n : ℕ) (i : WeightedItem) : WeightedItem :=
  { i with term := i.term.shift n, span := i.span.shift n }

namespace Term

/-- The term with every place moved to the right by `n` bytes. -/
def shift (n : ℕ) : Term → Term
  | simple t => simple (t.shift n)
  | weighted items span => weighted (items.map (WeightedItem.shift n)) (span.shift n)
  | generation form terms span =>
    generation form (terms.map (SimpleTerm.shift n)) (span.shift n)
  | group inner span => group (inner.shift n) (span.shift n)
  | not inner span => not (inner.shift n) (span.shift n)
  | joined op lhs rhs span => joined op (lhs.shift n) (rhs.shift n) (span.shift n)

theorem span_shift (n : ℕ) (t : Term) : (t.shift n).span = t.span.shift n := by
  cases t <;> rfl

theorem erase_shift (n : ℕ) (t : Term) : (t.shift n).erase = t.erase := by
  induction t with
  | simple => rfl
  | weighted items span =>
    rw [shift, erase, erase, List.map_map]
    rfl
  | generation form terms span =>
    rw [shift, erase, erase, List.map_map]
    rfl
  | group inner span ih | not inner span ih => rw [shift, erase, erase, ih]
  | joined op lhs rhs span ihl ihr => rw [shift, erase, erase, ihl, ihr]

end Term

/-- The token of a word or phrase that is moved. -/
theorem SimpleTerm.exists_of_shift_eq_token {n : ℕ} {t : SimpleTerm} {u : Token}
    (h : u.shift n = t.token) : ∃ t₀ : SimpleTerm, u = t₀.token ∧ t₀.shift n = t := by
  obtain ⟨literal, span⟩ := t
  obtain ⟨place, rfl, rfl⟩ := Token.exists_of_shift_eq h
  exact ⟨⟨literal, place⟩, rfl, rfl⟩

/-! ### Terms inside a term -/

namespace Term

theorem height_le_of_mem_parts {t part : Term} (h : part ∈ t.parts) : part.height ≤ t.height := by
  cases t with
  | simple => cases h
  | weighted items span =>
    obtain ⟨i, -, rfl⟩ := List.mem_map.mp h
    exact Nat.le_add_right 1 2
  | generation form terms span =>
    obtain ⟨s, -, rfl⟩ := List.mem_map.mp h
    exact Nat.le_succ 1
  | group inner span | not inner span =>
    obtain rfl := List.mem_singleton.mp h
    exact Nat.le_succ _
  | joined op lhs rhs span =>
    simp only [parts, List.mem_cons, List.not_mem_nil, or_false] at h
    rw [height]
    rcases h with rfl | rfl <;> omega

theorem Grouped.of_mem_parts {t part : Term} (ht : t.Grouped) (h : part ∈ t.parts) :
    part.Grouped := by
  cases t with
  | simple => cases h
  | weighted items span =>
    obtain ⟨i, -, rfl⟩ := List.mem_map.mp h
    trivial
  | generation form terms span =>
    obtain ⟨s, -, rfl⟩ := List.mem_map.mp h
    trivial
  | group inner span =>
    obtain rfl := List.mem_singleton.mp h
    exact ht
  | not inner span =>
    obtain rfl := List.mem_singleton.mp h
    exact ht.1
  | joined op lhs rhs span =>
    simp only [parts, List.mem_cons, List.not_mem_nil, or_false] at h
    rcases h with rfl | rfl
    · exact ht.1
    · exact ht.2.1

end Term

theorem Search.SpellItems.infix_of_mem {ts : List Token} {items : List WeightedItem}
    (h : SpellItems ts items) {i : WeightedItem} (hi : i ∈ items) : [i.term.token] <:+: ts := by
  have hitem : ∀ {ts : List Token} {i : WeightedItem}, i.Spells ts → [i.term.token] <+: ts := by
    intro ts i h
    cases h with
    | plain => exact List.prefix_rfl
    | weighted => exact ⟨_, rfl⟩
  induction h with
  | last h =>
    obtain rfl := List.mem_singleton.mp hi
    exact (hitem h).isInfix
  | more comma h _ ih =>
    rcases List.mem_cons.mp hi with rfl | hi
    · exact ((hitem h).trans (List.prefix_append _ _)).isInfix
    · exact (List.infix_cons (ih hi)).trans (List.suffix_append _ _).isInfix

theorem Search.SpellTerms.infix_of_mem {ts : List Token} {terms : List SimpleTerm}
    (h : SpellTerms ts terms) {t : SimpleTerm} (ht : t ∈ terms) : [t.token] <:+: ts := by
  induction h with
  | last comma =>
    obtain rfl := List.mem_singleton.mp ht
    exact List.infix_cons List.infix_rfl
  | more comma u _ ih =>
    rcases List.mem_cons.mp ht with rfl | ht
    · exact List.infix_cons (List.prefix_append [t.token] _).isInfix
    · exact List.infix_cons (List.infix_cons (ih ht))

namespace Term

/-- The tokens of a part stand together among the tokens of the term. -/
theorem Spells.exists_of_mem_parts {ts : List Token} {t part : Term} (h : Spells ts t)
    (hp : part ∈ t.parts) : ∃ us, us <:+: ts ∧ Spells us part := by
  cases h with
  | simple => cases hp
  | weighted word opening closing h =>
    obtain ⟨i, hi, rfl⟩ := List.mem_map.mp hp
    refine ⟨_, List.infix_cons (List.infix_cons ((h.infix_of_mem hi).trans ?_)), .simple i.term⟩
    exact (List.prefix_append _ _).isInfix
  | generation word opening closing hname h =>
    obtain ⟨s, hs, rfl⟩ := List.mem_map.mp hp
    refine ⟨_, List.infix_cons (List.infix_cons (List.infix_cons ((h.infix_of_mem hs).trans ?_))),
      .simple s⟩
    exact (List.prefix_append _ _).isInfix
  | group opening closing h =>
    obtain rfl := List.mem_singleton.mp hp
    exact ⟨_, List.infix_cons (List.prefix_append _ _).isInfix, h⟩
  | not ht h =>
    obtain rfl := List.mem_singleton.mp hp
    exact ⟨_, List.infix_cons List.infix_rfl, h⟩
  | joined ht hl hr =>
    simp only [parts, List.mem_cons, List.not_mem_nil, or_false] at hp
    rcases hp with rfl | rfl
    · exact ⟨_, (List.prefix_append _ _).isInfix, hl⟩
    · exact ⟨_, (List.infix_cons List.infix_rfl).trans (List.suffix_append _ _).isInfix, hr⟩

/-- The tokens of a term inside another one stand together. -/
theorem Spells.exists_of_within {ts : List Token} {t inner : Term} (h : Spells ts t)
    (hinner : inner.Within t) : ∃ us, us <:+: ts ∧ Spells us inner := by
  refine of_within (P := fun inner => ∃ us, us <:+: ts ∧ Spells us inner) ?_
    ⟨ts, List.infix_rfl, h⟩ hinner
  rintro t part ⟨us, hus, h⟩ hp
  obtain ⟨vs, hvs, hpart⟩ := h.exists_of_mem_parts hp
  exact ⟨vs, hvs.trans hus, hpart⟩

/-! ### Places of tokens and of terms -/

/-- **The span of a term is that of its tokens**, from the first to the last one. -/
theorem Spells.spans {ts : List Token} {t : Term} (h : Spells ts t) (hts : Ordered ts) :
    Spans ts t.span := by
  induction h with
  | simple t => exact spans_singleton _ _
  | @weighted ts items word opening closing h =>
    exact (spans_singleton _ word).cover (⟨.symbol .opening, opening⟩ :: ts)
      (spans_singleton _ closing) hts
  | @generation ts terms word opening closing name form hname h =>
    exact (spans_singleton _ word).cover (⟨.symbol .opening, opening⟩ :: name :: ts)
      (spans_singleton _ closing) hts
  | group opening closing h =>
    exact (spans_singleton _ opening).cover _ (spans_singleton _ closing) hts
  | @not t ts inner ht h ih =>
    have hinner := ih (hts.of_part (List.infix_cons List.infix_rfl))
    exact (spans_singleton t.kind t.span).cover [] hinner hts
  | @joined t op ts us lhs rhs ht hl hr ihl ihr =>
    have hlhs := ihl (hts.of_part (List.prefix_append _ _).isInfix)
    have hrhs := ihr
      (hts.of_part ((List.infix_cons List.infix_rfl).trans (List.suffix_append _ _).isInfix))
    exact hlhs.cover [t] hrhs hts

end Term

namespace Search

variable {n : ℕ} {ts us : List Token}

theorem exists_unshift_item {i : WeightedItem} (h : i.Spells ts)
    (hts : us.map (Token.shift n) = ts) : ∃ i₀ : WeightedItem, i₀.Spells us ∧ i₀.shift n = i := by
  cases h with
  | plain t =>
    obtain ⟨u, rfl, hu⟩ := List.map_eq_singleton_iff.mp hts
    obtain ⟨t₀, rfl, rfl⟩ := SimpleTerm.exists_of_shift_eq_token hu
    exact ⟨_, .plain t₀, rfl⟩
  | weighted t word opening closing hnumber hle =>
    obtain ⟨u, vs, rfl, hu, hvs⟩ := List.map_eq_cons_iff.mp hts
    obtain ⟨word₀, ws, rfl, rfl, hws⟩ := Token.exists_of_map_shift_eq_cons hvs
    obtain ⟨opening₀, xs, rfl, rfl, hxs⟩ := Token.exists_of_map_shift_eq_cons hws
    obtain ⟨number₀, ys, rfl, rfl, hys⟩ := List.map_eq_cons_iff.mp hxs
    obtain ⟨closing₀, rfl, rfl⟩ := Token.exists_of_map_shift_eq_singleton hys
    obtain ⟨t₀, rfl, rfl⟩ := SimpleTerm.exists_of_shift_eq_token hu
    refine ⟨_, .weighted t₀ word₀ opening₀ closing₀ hnumber hle, ?_⟩
    simp only [WeightedItem.shift, Span.cover_shift]
    rfl

theorem SpellItems.exists_unshift {items : List WeightedItem} (h : SpellItems ts items)
    (hts : us.map (Token.shift n) = ts) :
    ∃ items₀, SpellItems us items₀ ∧ items₀.map (WeightedItem.shift n) = items := by
  induction h generalizing us with
  | last h =>
    obtain ⟨i₀, hi₀, rfl⟩ := exists_unshift_item h hts
    exact ⟨[i₀], .last hi₀, rfl⟩
  | more comma h _ ih =>
    obtain ⟨vs, ws, rfl, hvs, hws⟩ := List.map_eq_append_iff.mp hts
    obtain ⟨comma₀, xs, rfl, rfl, hxs⟩ := Token.exists_of_map_shift_eq_cons hws
    obtain ⟨i₀, hi₀, rfl⟩ := exists_unshift_item h hvs
    obtain ⟨items₀, hitems₀, rfl⟩ := ih hxs
    exact ⟨i₀ :: items₀, .more comma₀ hi₀ hitems₀, rfl⟩

theorem SpellTerms.exists_unshift {terms : List SimpleTerm} (h : SpellTerms ts terms)
    (hts : us.map (Token.shift n) = ts) :
    ∃ terms₀, SpellTerms us terms₀ ∧ terms₀.map (SimpleTerm.shift n) = terms := by
  induction h generalizing us with
  | last comma t =>
    obtain ⟨comma₀, vs, rfl, rfl, hvs⟩ := Token.exists_of_map_shift_eq_cons hts
    obtain ⟨u, rfl, hu⟩ := List.map_eq_singleton_iff.mp hvs
    obtain ⟨t₀, rfl, rfl⟩ := SimpleTerm.exists_of_shift_eq_token hu
    exact ⟨[t₀], .last comma₀ t₀, rfl⟩
  | more comma t _ ih =>
    obtain ⟨comma₀, vs, rfl, rfl, hvs⟩ := Token.exists_of_map_shift_eq_cons hts
    obtain ⟨u, ws, rfl, hu, hws⟩ := List.map_eq_cons_iff.mp hvs
    obtain ⟨t₀, rfl, rfl⟩ := SimpleTerm.exists_of_shift_eq_token hu
    obtain ⟨terms₀, hterms₀, rfl⟩ := ih hws
    exact ⟨t₀ :: terms₀, .more comma₀ t₀ hterms₀, rfl⟩

end Search

/-- **Tokens that are moved spell terms that are moved.** -/
theorem Term.Spells.exists_unshift {n : ℕ} {ts us : List Token} {t : Term} (h : Spells ts t)
    (hts : us.map (Token.shift n) = ts) : ∃ t₀ : Term, Spells us t₀ ∧ t₀.shift n = t := by
  induction h generalizing us with
  | simple t =>
    obtain ⟨u, rfl, hu⟩ := List.map_eq_singleton_iff.mp hts
    obtain ⟨t₀, rfl, rfl⟩ := SimpleTerm.exists_of_shift_eq_token hu
    exact ⟨_, .simple t₀, rfl⟩
  | weighted word opening closing h =>
    obtain ⟨word₀, vs, rfl, rfl, hvs⟩ := Token.exists_of_map_shift_eq_cons hts
    obtain ⟨opening₀, ws, rfl, rfl, hws⟩ := Token.exists_of_map_shift_eq_cons hvs
    obtain ⟨xs, closing₀, rfl, hxs, rfl⟩ := Token.exists_of_map_shift_eq_concat hws
    obtain ⟨items₀, hitems₀, rfl⟩ := h.exists_unshift hxs
    exact ⟨_, .weighted word₀ opening₀ closing₀ hitems₀, by rw [shift, Span.cover_shift]⟩
  | generation word opening closing hname h =>
    obtain ⟨word₀, vs, rfl, rfl, hvs⟩ := Token.exists_of_map_shift_eq_cons hts
    obtain ⟨opening₀, ws, rfl, rfl, hws⟩ := Token.exists_of_map_shift_eq_cons hvs
    obtain ⟨name₀, xs, rfl, rfl, hxs⟩ := List.map_eq_cons_iff.mp hws
    obtain ⟨ys, closing₀, rfl, hys, rfl⟩ := Token.exists_of_map_shift_eq_concat hxs
    obtain ⟨terms₀, hterms₀, rfl⟩ := h.exists_unshift hys
    exact ⟨_, .generation word₀ opening₀ closing₀ hname hterms₀, by rw [shift, Span.cover_shift]⟩
  | group opening closing _ ih =>
    obtain ⟨opening₀, vs, rfl, rfl, hvs⟩ := Token.exists_of_map_shift_eq_cons hts
    obtain ⟨xs, closing₀, rfl, hxs, rfl⟩ := Token.exists_of_map_shift_eq_concat hvs
    obtain ⟨inner₀, hinner, rfl⟩ := ih hxs
    exact ⟨_, .group opening₀ closing₀ hinner, by rw [shift, Span.cover_shift]⟩
  | not ht _ ih =>
    obtain ⟨t₀, vs, rfl, rfl, hvs⟩ := List.map_eq_cons_iff.mp hts
    obtain ⟨inner₀, hinner, rfl⟩ := ih hvs
    refine ⟨_, .not ht hinner, ?_⟩
    rw [shift, Span.cover_shift, span_shift]
    rfl
  | joined ht _ _ ihl ihr =>
    obtain ⟨vs, ws, rfl, hvs, hws⟩ := List.map_eq_append_iff.mp hts
    obtain ⟨t₀, xs, rfl, rfl, hxs⟩ := List.map_eq_cons_iff.mp hws
    obtain ⟨lhs₀, hlhs, rfl⟩ := ihl hvs
    obtain ⟨rhs₀, hrhs, rfl⟩ := ihr hxs
    refine ⟨_, .joined ht hlhs hrhs, ?_⟩
    rw [shift, Span.cover_shift, span_shift, span_shift]

/-- **Every search term has exactly its source.** The part of a text at the span of a term inside the
condition is read as that term, with places that count from the start of the part. -/
theorem parseCondition_slice {text : String} {t inner : Term} (h : parseCondition text = .ok t)
    (hinner : inner.Within t) :
    Text.OnBoundaries inner.span text.toList ∧
      ∃ t' : Term, parseCondition (String.ofList (Text.slice inner.span text.toList)) = .ok t' ∧
        t'.shift inner.span.start = inner := by
  obtain ⟨ts, htokens, hspells, hgrouped, hheight⟩ := exists_tokens_of_parseCondition h
  obtain ⟨us, hus, hspells⟩ := hspells.exists_of_within hinner
  have hspans := hspells.spans ((ordered_of_tokenize htokens).of_part hus)
  obtain ⟨hboundaries, us₀, htokens₀, hshift⟩ := tokenize_slice htokens hus hspans
  obtain ⟨t', hspells', hinner'⟩ := hspells.exists_unshift hshift
  have herase : t'.erase = inner.erase := by rw [← hinner', Term.erase_shift]
  have hgrouped' : t'.Grouped := by
    rw [← Term.grouped_erase, herase, Term.grouped_erase]
    exact Term.of_within (fun _ _ ht hp => ht.of_mem_parts hp) hgrouped hinner
  have hheight' : t'.height ≤ maxNesting := by
    rw [← Term.height_erase, herase, Term.height_erase]
    exact Term.of_within (fun _ _ ht hp => Nat.le_trans (Term.height_le_of_mem_parts hp) ht)
      hheight hinner
  refine ⟨hboundaries, t', ?_, hinner'⟩
  rcases parseCondition_of_spells htokens₀ hspells' hgrouped' with hok | ⟨hlt, -⟩
  · exact hok
  · exact absurd hheight' (Nat.not_le_of_lt hlt)

end SqlPredicates
