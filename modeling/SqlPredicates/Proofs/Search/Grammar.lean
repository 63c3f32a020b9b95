import SqlPredicates.Proofs.Search.CanonicalText
import SqlPredicates.Proofs.Search.Height
import SqlPredicates.Proofs.Search.ParserCompleteness

/-!
# The grammar of search conditions

The search terms that can be read from a text are, up to places, the well-shaped terms that are not
higher than `maxNesting`. Each of them is read from its canonical text; and the canonical text of a
well-shaped term that is too high is refused for that reason and for no other.

As for naming rules, the reader's soundness and completeness speak of places in a list of tokens,
and this file passes to texts. What can be written is decided by the lexer alone as far as words and
phrases are concerned; the bound on a weight is checked by the reader.

## Main results

* `exists_tokens_of_parseCondition`, `of_parseCondition` — what can be read
* `exists_parseCondition_render`, `parseCondition_render_of_lt` — what the canonical text is read as
* `parseCondition_grammar` — the grammar
* `parseCondition_render` — the round trip
-/

namespace SqlPredicates

/-! ### What can be written -/

theorem SimpleTerm.writable_of_lexical {t : SimpleTerm} (h : t.token.kind.Lexical) :
    t.Writable := by
  obtain ⟨literal, span⟩ := t
  cases literal <;> exact h

namespace Search

variable {ts : List Token}

theorem writable_of_spells {i : WeightedItem} (h : i.Spells ts)
    (hlexical : ∀ t ∈ ts, t.kind.Lexical) : i.Writable := by
  cases h with
  | plain t =>
    refine ⟨SimpleTerm.writable_of_lexical (hlexical _ List.mem_cons_self), ?_⟩
    intro weight hweight
    cases hweight
  | weighted t word opening closing hnumber hle =>
    refine ⟨SimpleTerm.writable_of_lexical (hlexical _ List.mem_cons_self), ?_⟩
    intro weight hweight
    cases hweight
    exact hle

theorem SpellItems.writable {items : List WeightedItem} (h : SpellItems ts items)
    (hlexical : ∀ t ∈ ts, t.kind.Lexical) : ∀ i ∈ items, i.Writable := by
  induction h with
  | last h => simpa using writable_of_spells h hlexical
  | more comma h _ ih =>
    obtain ⟨hfirst, hrest⟩ := List.forall_mem_append.mp hlexical
    exact List.forall_mem_cons.mpr
      ⟨writable_of_spells h hfirst, ih (List.forall_mem_cons.mp hrest).2⟩

theorem SpellTerms.writable {terms : List SimpleTerm} (h : SpellTerms ts terms)
    (hlexical : ∀ t ∈ ts, t.kind.Lexical) : ∀ t ∈ terms, t.Writable := by
  induction h with
  | last comma t =>
    have ht := SimpleTerm.writable_of_lexical (hlexical t.token (by simp))
    simpa using ht
  | more comma t _ ih =>
    obtain ⟨-, hterms⟩ := List.forall_mem_cons.mp hlexical
    obtain ⟨ht, hrest⟩ := List.forall_mem_cons.mp hterms
    exact List.forall_mem_cons.mpr ⟨SimpleTerm.writable_of_lexical ht, ih hrest⟩

end Search

/-- What is spelled by tokens of a text can be written. -/
theorem Term.Spells.writable {ts : List Token} {t : Term} (h : Spells ts t)
    (hlexical : ∀ u ∈ ts, u.kind.Lexical) : t.Writable := by
  induction h with
  | simple t => exact SimpleTerm.writable_of_lexical (hlexical _ List.mem_cons_self)
  | weighted word opening closing h =>
    exact ⟨h.ne_nil, h.writable fun u hu => hlexical u (by simp [hu])⟩
  | generation word opening closing hname h =>
    exact ⟨h.ne_nil, h.writable fun u hu => hlexical u (by simp [hu])⟩
  | group opening closing _ ih => exact ih fun u hu => hlexical u (by simp [hu])
  | not ht _ ih => exact ih fun u hu => hlexical u (by simp [hu])
  | joined ht _ _ ihl ihr =>
    exact ⟨ihl fun u hu => hlexical u (by simp [hu]), ihr fun u hu => hlexical u (by simp [hu])⟩

/-! ### Texts -/

section Texts

variable {text : String} {t : Term} {ts : List Token}

open SqlPredicates.Parser

/-- What the reader of search terms guarantees about a text and its tree. No token is left out. -/
theorem exists_tokens_of_parseCondition (h : parseCondition text = .ok t) :
    ∃ ts : List Token, tokenize text = ts.map .ok ∧ t.Spells ts ∧ t.Grouped ∧
      t.height ≤ maxNesting := by
  obtain ⟨p, q, hp, hcondition⟩ := run_eq_ok.mp h
  obtain ⟨hterm, hend⟩ := of_whole_eq_ok hcondition
  obtain ⟨hreading, -, hheight⟩ := Search.sound_termWithin _ hterm
  obtain ⟨ts, hts, hspells⟩ := hreading.spelled
  have htokens := tokenize_of_passes hp hts hspells.ne_endOfInput hend
  exact ⟨ts, htokens, hspells, hreading.grouped, hheight⟩

theorem of_parseCondition (h : parseCondition text = .ok t) :
    t.WellShaped ∧ t.height ≤ maxNesting := by
  obtain ⟨ts, htokens, hspells, hgrouped, hheight⟩ := exists_tokens_of_parseCondition h
  have hwritable := hspells.writable fun u hu =>
    lexical_of_mem_tokenize (htokens ▸ List.mem_map_of_mem hu)
  exact ⟨⟨hwritable, hgrouped⟩, hheight⟩

/-- A text whose tokens spell a grouped term is read as that term, unless it is too high. -/
theorem parseCondition_of_spells (htokens : tokenize text = ts.map .ok) (hspells : t.Spells ts)
    (hgrouped : t.Grouped) :
    parseCondition text = .ok t ∨
      maxNesting < t.height ∧ ∃ offset, parseCondition text = .error (.nestingTooDeep offset) := by
  obtain ⟨u, us, rfl⟩ := List.exists_cons_of_length_pos hspells.length_pos
  obtain ⟨p, q, hp, hpasses, hend⟩ := exists_passes_of_tokenize htokens
  have hstops : ∀ power, Search.Stops power q.current.kind :=
    Search.stops_of_ofKind?_eq_none (by rw [hend]; rfl)
  have hreading : Term.OperandReading 0 p t q :=
    { spelled := ⟨_, hpasses, hspells⟩
      grouped := hgrouped
      stops := hstops _
      holds := t.holds_zero
      stops_least := hstops _ }
  have hfirst : p.current.kind ≠ .endOfInput := by
    rw [hpasses.current_eq]
    exact hspells.ne_endOfInput u List.mem_cons_self
  have hterm : Reads.Yields Parser.term p t (q.atHeight t.height) (maxNesting < t.height) := by
    have hcomplete := Search.complete_termWithin (Nat.le_refl maxNesting) hreading
    refine Reads.Yields.bind_of_ok (a := maxNesting) (q := p) ?_ hcomplete
    rw [levels, depth_of_ofText hp]
    rfl
  exact run_of_yields hp (yields_whole hterm hfirst hend)

/-- The canonical text of a well-shaped term is read as the term up to places, unless it is too
high. -/
theorem parseCondition_render_of_wellShaped (h : t.WellShaped) :
    ∃ t' : Term, t'.erase = t.erase ∧ (parseCondition t.render = .ok t' ∨ maxNesting < t.height ∧
      ∃ offset, parseCondition t.render = .error (.nestingTooDeep offset)) := by
  obtain ⟨ts, htokens, hkinds⟩ := Term.exists_tokens_of_writable h.1
  obtain ⟨t', hspells, herase⟩ := Term.canBeSpelled h.1 hkinds
  have hgrouped : t'.Grouped := by
    rw [← Term.grouped_erase, herase, Term.grouped_erase]
    exact h.2
  have hheight : t'.height = t.height := by
    rw [← Term.height_erase, herase, Term.height_erase]
  refine ⟨t', herase, ?_⟩
  rw [← hheight]
  exact parseCondition_of_spells htokens hspells hgrouped

theorem exists_parseCondition_render (h : t.WellShaped) (hheight : t.height ≤ maxNesting) :
    ∃ t' : Term, parseCondition t.render = .ok t' ∧ t'.erase = t.erase := by
  obtain ⟨t', herase, hok | ⟨hlt, -⟩⟩ := parseCondition_render_of_wellShaped h
  · exact ⟨t', hok, herase⟩
  · exact absurd hheight (Nat.not_le_of_lt hlt)

theorem parseCondition_render_of_lt (h : t.WellShaped) (hheight : maxNesting < t.height) :
    ∃ offset, parseCondition t.render = .error (.nestingTooDeep offset) := by
  obtain ⟨t', herase, hok | ⟨-, herror⟩⟩ := parseCondition_render_of_wellShaped h
  · -- a tree that has been read is not too high, with or without its places
    have hle := (of_parseCondition hok).2
    rw [← Term.height_erase, herase, Term.height_erase] at hle
    exact absurd hle (Nat.not_le_of_lt hheight)
  · exact herror

/-- **The grammar of search conditions.** The height of a well-shaped term is the number of nodes on
its longest chain. What is read from a text is well shaped and not higher than `maxNesting`; every
such term is read, up to places, from some text, for which its canonical text can be taken; and the
canonical text of a well-shaped term that is higher is refused for that reason. -/
theorem parseCondition_grammar :
    (∀ t : Term, t.WellShaped → IsGreatest {n | (Node.term t).HasChain n} t.height) ∧
      (∀ (text : String) (t : Term), parseCondition text = .ok t →
        t.WellShaped ∧ t.height ≤ maxNesting) ∧
      (∀ t : Term, t.WellShaped → t.height ≤ maxNesting →
        ∃ text t', parseCondition text = .ok t' ∧ t'.erase = t.erase) ∧
      ∀ t : Term, t.WellShaped → maxNesting < t.height →
        ∃ offset, parseCondition t.render = .error (.nestingTooDeep offset) := by
  refine ⟨fun t h => Term.isGreatest_height h.1, fun text t h => of_parseCondition h, ?_, ?_⟩
  · intro t h hheight
    exact ⟨t.render, exists_parseCondition_render h hheight⟩
  · intro t h hheight
    exact parseCondition_render_of_lt h hheight

/-- An `ISABOUT` of one word, which has the weight one half, under `n` negations. It is read within
`n + 1` levels, but is `n + 3` high. -/
def Term.negatedIsabout : ℕ → Term
  | 0 =>
    .weighted [⟨⟨.word "a", .point 0⟩, some ⟨0x3fe0000000000000, by decide⟩, .point 0⟩] (.point 0)
  | n + 1 => .not (negatedIsabout n) (.point 0)

theorem Term.height_negatedIsabout (n : ℕ) : (negatedIsabout n).height = n + 3 := by
  induction n with
  | zero => rfl
  | succ n ih => rw [negatedIsabout, height, ih, Nat.add_right_comm]

theorem Term.wellShaped_negatedIsabout (n : ℕ) : (negatedIsabout n).WellShaped := by
  induction n with
  | zero => simp [negatedIsabout, WellShaped, Writable, WeightedItem.Writable, SimpleTerm.Writable,
      Grouped, Binary64.le, Binary64.one]
  | succ n ih =>
    refine ⟨ih.1, grouped_not_iff.mpr ⟨ih.2, ?_⟩⟩
    exact holds_of_connective?_eq_none (by cases n <;> rfl) _

/-- Both sides of the limit: 253 negations of an `ISABOUT` can be read, and 254 cannot. -/
theorem parseCondition_grammar_negatedIsabout :
    ((Term.negatedIsabout 253).WellShaped ∧
        IsGreatest {n | (Node.term (Term.negatedIsabout 253)).HasChain n} 256 ∧
        ∃ text t', parseCondition text = .ok t' ∧ t'.erase = (Term.negatedIsabout 253).erase ∧
          t'.WellShaped ∧ t'.height ≤ maxNesting) ∧
      (Term.negatedIsabout 254).WellShaped ∧ maxNesting < (Term.negatedIsabout 254).height ∧
        ∃ offset, parseCondition (Term.negatedIsabout 254).render =
          .error (.nestingTooDeep offset) := by
  have hread := Term.wellShaped_negatedIsabout 253
  have hrefused := Term.wellShaped_negatedIsabout 254
  have hlow : (Term.negatedIsabout 253).height ≤ maxNesting := by
    rw [Term.height_negatedIsabout]
    decide
  have htall : maxNesting < (Term.negatedIsabout 254).height := by
    rw [Term.height_negatedIsabout]
    decide
  obtain ⟨hchain, hsound, haccepts, hrefuses⟩ := parseCondition_grammar
  have hgreatest := hchain _ hread
  rw [Term.height_negatedIsabout] at hgreatest
  obtain ⟨text, t', hok, herase⟩ := haccepts _ hread hlow
  exact ⟨⟨hread, hgreatest, text, t', hok, herase, hsound text t' hok⟩, hrefused, htall,
    hrefuses _ hrefused htall⟩

/-! ### The round trip -/

/-- **The round trip of search conditions.** The canonical text of a term that has been read is read
again as the same term up to places, weights included. The term read from it has the same canonical
text, and is the one that this text is read as, with its places. -/
theorem parseCondition_render (h : parseCondition text = .ok t) :
    ∃ t' : Term, parseCondition t.render = .ok t' ∧ t'.erase = t.erase ∧ t'.render = t.render ∧
      parseCondition t'.render = .ok t' := by
  obtain ⟨hshaped, hheight⟩ := of_parseCondition h
  obtain ⟨t', hok, herase⟩ := exists_parseCondition_render hshaped hheight
  have hrender : t'.render = t.render := by
    rw [← Term.render_erase, herase, Term.render_erase]
  refine ⟨t', hok, herase, hrender, ?_⟩
  rw [hrender]
  exact hok

/-- A negation that takes over a `NEAR`, a weight, a name that is a keyword, and a form in brackets
and in the other case. -/
def weightedNearCondition : Term :=
  .joined .or
    (.not
      (.joined .near (.simple ⟨.word "a", ⟨1, 2⟩⟩) (.simple ⟨.phrase ⟨"b c", .double⟩, ⟨3, 8⟩⟩)
        ⟨1, 8⟩)
      ⟨0, 8⟩)
    (.joined .and
      (.weighted
        [⟨⟨.word "or", ⟨17, 21⟩⟩, some ⟨0x3fe0000000000000, by decide⟩, ⟨17, 33⟩⟩,
          ⟨⟨.word "x", ⟨34, 35⟩⟩, some .one, ⟨34, 48⟩⟩]
        ⟨9, 49⟩)
      (.generation .inflectional [⟨.word "run", ⟨73, 76⟩⟩] ⟨50, 77⟩)
      ⟨9, 77⟩)
    ⟨0, 77⟩

theorem parseCondition_render_weightedNearCondition :
    parseCondition "!a~\"b c\"|isabout([or] weight(.50),x weight(1.00))&formsof([Inflectional],run)" =
        .ok weightedNearCondition ∧
      weightedNearCondition.render = "NOT a NEAR \"b c\" OR ISABOUT([or] WEIGHT(0.5), x WEIGHT(1))" ++
        " AND FORMSOF(INFLECTIONAL, run)" ∧
      ∃ t' : Term, parseCondition weightedNearCondition.render = .ok t' ∧
        t'.erase = weightedNearCondition.erase ∧ t'.render = weightedNearCondition.render ∧
        parseCondition t'.render = .ok t' := by
  have hread : parseCondition
      "!a~\"b c\"|isabout([or] weight(.50),x weight(1.00))&formsof([Inflectional],run)" =
        .ok weightedNearCondition := by
    decide +kernel
  exact ⟨hread, by decide +kernel, parseCondition_render hread⟩

end Texts

end SqlPredicates
