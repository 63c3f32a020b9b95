import SqlPredicates.Proofs.Comparison
import SqlPredicates.Proofs.Search.ParserSoundness

/-!
# Comparing two readings of search conditions

The reader of search terms does the same at two places from which the tokens agree up to spelling,
and returns terms that agree up to places. As for naming rules, the bounds of the loops do not
matter, so that the loops of two texts of different lengths can be compared round by round.

The two lists of words and phrases are read without the reader of terms, so nothing is assumed for
them.

## Main results

* `Search.connections_congr`, `Search.weightedItems_congr`, `Search.generationTerms_congr` — every
  large enough bound gives the same
* `Search.follows_termWithin` — the reader of terms does the same at places that are alike
-/

namespace SqlPredicates

namespace Search

open SqlPredicates.Parser SqlPredicates.Reads SqlPredicates.Comparison SqlPredicates.Term

variable {operand : ℕ → Reads Term} {least n m : ℕ} {p q : Parser}

/-! ### The bounds of the loops -/

theorem connections_congr (hoperand : Sound operand) {lhs : Term} {height : ℕ}
    (hn : q.rest.length < n) (hm : q.rest.length < m) :
    connections operand least n lhs height q = connections operand least m lhs height q := by
  induction n generalizing m q lhs height with
  | zero => cases hn
  | succ n ih =>
    obtain ⟨m, rfl⟩ : ∃ k, m = k + 1 := ⟨m - 1, by omega⟩
    by_cases hstops : Stops least q.current.kind
    · rw [connections_of_stops hstops, connections_of_stops hstops]
    · obtain ⟨op, hop, hle⟩ := not_stops_iff.mp hstops
      rw [connections_of_le hop hle, connections_of_le hop hle]
      refine bind_congr fun t q₁ hadvance => bind_congr fun rhs q₂ hrhs => ?_
      obtain rfl := (advance_eq_ok.mp hadvance).1
      rw [lastHeight_bind, lastHeight_bind]
      refine bind_congr fun height q₃ hnode => ?_
      obtain ⟨-, hpure⟩ := nodeHeight_bind_eq_ok.mp (bind_eq_ok.mpr ⟨_, _, hnode, rfl⟩)
      obtain ⟨-, rfl⟩ := pure_eq_ok.mp hpure
      have hlength := rest_length_lt hop hadvance (hoperand hrhs).1.toReading
      exact ih (by omega) (by omega)

/-- An alternative and the comma after it are two tokens or more. -/
theorem rest_length_lt_of_comma {r : Parser} {i : WeightedItem} {t : Token}
    (hitem : weightedItem p = .ok i q) (hcomma : q.current.kind = .symbol .comma)
    (hadvance : advance q = .ok t r) : r.rest.length < p.rest.length := by
  obtain ⟨ts, hts, hspells⟩ := weightedItem_sound hitem
  have hpos := hspells.length_pos
  have hlength := (hts.append (.single hadvance)).length_le <| by
    refine List.forall_mem_append.mpr ⟨hspells.ne_endOfInput, ?_⟩
    rw [(advance_eq_ok.mp hadvance).1]
    simp [hcomma]
  simp only [List.length_append, List.length_cons, List.length_nil] at hlength
  omega

theorem weightedItems_congr (hn : p.rest.length < n) (hm : p.rest.length < m) :
    weightedItems n p = weightedItems m p := by
  induction n generalizing m p with
  | zero => cases hn
  | succ n ih =>
    obtain ⟨m, rfl⟩ : ∃ k, m = k + 1 := ⟨m - 1, by omega⟩
    refine bind_congr fun i p₁ hi => bind_congr fun found p₂ hfound => ?_
    rcases eat?_eq_ok.mp hfound with ⟨-, t, rfl, -⟩ | ⟨-, rfl, rfl⟩
    · rfl
    · refine bind_congr fun found p₃ hfound => ?_
      rcases eat?_eq_ok.mp hfound with ⟨hcomma, t, rfl, hadvance⟩ | ⟨-, rfl, rfl⟩
      · have hlength := rest_length_lt_of_comma hi hcomma hadvance
        exact bind_congr_left (ih (by omega) (by omega))
      · rfl

theorem generationTerms_congr (hn : p.rest.length < n) (hm : p.rest.length < m) :
    generationTerms n p = generationTerms m p := by
  induction n generalizing m p with
  | zero => cases hn
  | succ n ih =>
    obtain ⟨m, rfl⟩ : ∃ k, m = k + 1 := ⟨m - 1, by omega⟩
    refine bind_congr fun comma p₁ hcomma => bind_congr fun t p₂ ht => ?_
    obtain ⟨hkind, hcomma⟩ := expect_eq_ok.mp hcomma
    -- the comma and the word have been passed over
    have hlength := (Passes.cons hcomma (passes_of_simpleTerm ht)).length_le <| by
      simpa [hkind] using t.token_ne_endOfInput
    simp only [List.length_cons, List.length_nil] at hlength
    refine bind_congr fun found p₃ hfound => ?_
    rcases eat?_eq_ok.mp hfound with ⟨-, t, rfl, -⟩ | ⟨-, rfl, rfl⟩
    · rfl
    · exact bind_congr_left (ih (by omega) (by omega))

/-! ### Readings that agree -/

/-- A kind that spells neither a connective nor a negation is spelled in one way only. -/
theorem plain_canonicalKind {kind : Token.Kind} (hconnective : Connective.ofKind? kind = none)
    (hnot : ¬ Negates kind) : Plain canonicalKind kind := by
  intro other h
  rw [canonicalKind_of_none hconnective hnot] at h
  have hother : canonicalKind other = other := by
    refine canonicalKind_of_none ?_ ?_
    · rw [← connective_canonicalKind, h, hconnective]
    · rw [← negates_canonicalKind, h]
      exact hnot
  rw [← hother, h]

theorem plain_symbol {sign : Symbol} (hconnective : Connective.ofKind? (.symbol sign) = none)
    (hbang : sign ≠ .bang) : Plain canonicalKind (.symbol sign) :=
  plain_canonicalKind hconnective (by simpa [Negates] using hbang)

theorem plain_keyword {word : Keyword} (hconnective : Connective.ofKind? (.keyword word) = none)
    (hnot : word ≠ .not) : Plain canonicalKind (.keyword word) :=
  plain_canonicalKind hconnective (by simpa [Negates] using hnot)

variable {c : Comparison canonicalKind} {p' : Parser}

/-- Terms that agree up to places. -/
def SameTerm (t t' : Term) : Prop := t.erase = t'.erase

/-- Words and phrases that agree up to places. -/
def SameSimple (t t' : SimpleTerm) : Prop := t.erase = t'.erase

/-- Alternatives that agree up to places. -/
def SameItem (i i' : WeightedItem) : Prop := i.erase = i'.erase

/-- Alternatives that agree up to places, with closing parentheses that belong together. -/
def SameItems (c : Comparison canonicalKind) (r r' : List WeightedItem × Token) : Prop :=
  r.1.map WeightedItem.erase = r'.1.map WeightedItem.erase ∧ c.Paired r.2 r'.2

/-- Words and phrases that agree up to places, with closing parentheses that belong together. -/
def SameSimples (c : Comparison canonicalKind) (r r' : List SimpleTerm × Token) : Prop :=
  r.1.map SimpleTerm.erase = r'.1.map SimpleTerm.erase ∧ c.Paired r.2 r'.2

/-- What a kind of token denotes in the lists does not depend on how connectives are spelled. -/
theorem literal?_canonicalKind (kind : Token.Kind) : literal? (canonicalKind kind) = literal? kind := by
  cases kind with
  | symbol sign => cases sign <;> rfl
  | _ => rfl

theorem number?_canonicalKind (kind : Token.Kind) : number? (canonicalKind kind) = number? kind := by
  cases kind with
  | symbol sign => cases sign <;> rfl
  | _ => rfl

theorem form_canonicalKind (kind : Token.Kind) :
    GenerationForm.ofKind? (canonicalKind kind) = GenerationForm.ofKind? kind := by
  cases kind with
  | symbol sign => cases sign <;> rfl
  | _ => rfl

theorem plain_closing : Plain canonicalKind (.symbol .closing) := plain_symbol rfl (by simp)

theorem plain_opening : Plain canonicalKind (.symbol .opening) := plain_symbol rfl (by simp)

theorem plain_comma : Plain canonicalKind (.symbol .comma) := plain_symbol rfl (by simp)

/-! ### Lists -/

theorem follows_simpleTerm (hp : c.Alike p p') :
    c.Follows SameSimple simpleTerm simpleTerm p p' := by
  have hliteral : literal? p.current.kind = literal? p'.current.kind := by
    rw [← literal?_canonicalKind, c.spelling_eq hp.paired, literal?_canonicalKind]
  refine follows_look_bind ?_
  rw [← hliteral]
  cases h : literal? p.current.kind with
  | none => exact follows_unexpected _ hp
  | some literal =>
    have hne : p.current.kind ≠ .endOfInput := by
      intro hend
      rw [hend] at h
      cases h
    refine (follows_advance hne hp).bind (by grind) ?_
    intro _ _ q q' _ hq
    refine (follows_setHeight 1 hq).bind (by grind) ?_
    intro _ _ r r' _ hr
    exact follows_pure rfl hr

theorem follows_weight (hp : c.Alike p p') : c.Follows Eq weight weight p p' := by
  have hnumber : number? p.current.kind = number? p'.current.kind := by
    rw [← number?_canonicalKind, c.spelling_eq hp.paired, number?_canonicalKind]
  refine follows_look_bind ?_
  rw [← hnumber]
  cases h : number? p.current.kind with
  | none => exact follows_unexpected _ hp
  | some value =>
    dsimp only
    by_cases hle : value.le Binary64.one = true
    · rw [if_pos hle, if_pos hle]
      refine (follows_advance (ne_endOfInput_of_number? h) hp).bind (by grind) ?_
      intro _ _ q q' _ hq
      exact follows_pure rfl hq
    · rw [if_neg hle, if_neg hle]
      exact .inr (.fault (.weightOutOfRange value) hp)

theorem follows_weightedItem (hp : c.Alike p p') :
    c.Follows SameItem weightedItem weightedItem p p' := by
  refine (follows_simpleTerm hp).bind (by grind) ?_
  intro t t' q q' ht hq
  refine (follows_eat? (plain_keyword rfl (by simp)) (by simp) hq).bind (by grind) ?_
  intro found found' r r' hfound hr
  cases hfound with
  | none =>
    refine follows_pure ?_ hr
    rw [SameItem, WeightedItem.erase, WeightedItem.erase, ht]
  | some _ =>
    refine (follows_expect plain_opening (by simp) hr).bind (by grind) ?_
    intro _ _ s s' _ hs
    refine (follows_weight hs).bind (by grind) ?_
    rintro value _ u u' rfl hu
    refine (follows_expect plain_closing (by simp) hu).bind (by grind) ?_
    intro closing closing' v v' _ hv
    refine follows_pure ?_ hv
    rw [SameItem, WeightedItem.erase, WeightedItem.erase, ht]

theorem follows_weightedItems (n : ℕ) (hp : c.Alike p p') :
    c.Follows (SameItems c) (weightedItems n) (weightedItems n) p p' := by
  induction n generalizing p p' with
  | zero => exact follows_unexpected _ hp
  | succ n ih =>
    refine (follows_weightedItem hp).bind (by grind) ?_
    intro i i' q q' hi hq
    refine (follows_eat? plain_closing (by simp) hq).bind (by grind) ?_
    intro found found' r r' hfound hr
    cases hfound with
    | some hclosing => exact follows_pure ⟨congrArg (· :: []) hi, hclosing⟩ hr
    | none =>
      refine (follows_eat? plain_comma (by simp) hr).bind (by grind) ?_
      intro found found' s s' hfound hs
      cases hfound with
      | none => exact follows_unexpected _ hs
      | some _ =>
        refine (ih hs).bind (by grind) ?_
        intro rest rest' u u' hrest hu
        exact follows_pure ⟨congrArg₂ List.cons hi hrest.1, hrest.2⟩ hu

theorem follows_weightedTerm (hp : c.Alike p p') :
    c.Follows SameTerm weightedTerm weightedTerm p p' := by
  refine (follows_expect (plain_keyword rfl (by simp)) (by simp) hp).bind (by grind) ?_
  intro word word' q q' _ hq
  refine (follows_expect plain_opening (by simp) hq).bind (by grind) ?_
  intro opening opening' r r' _ hr
  -- one bound for both readings
  let n := max r.rest.length r'.rest.length + 1
  have hitems : c.Follows (SameItems c) (remaining >>= weightedItems) (remaining >>= weightedItems)
      r r' :=
    (follows_weightedItems n hr).congr (weightedItems_congr (Nat.lt_succ_self _) (by omega))
      (weightedItems_congr (Nat.lt_succ_self _) (by omega))
  rw [← bind_assoc, ← bind_assoc]
  refine hitems.bind (by grind) ?_
  intro items items' s s' hitems hs
  refine (follows_setHeight 3 hs).bind (by grind) ?_
  intro _ _ u u' _ hu
  refine follows_pure ?_ hu
  rw [SameTerm, erase, erase, hitems.1]

theorem follows_generationTerms (n : ℕ) (hp : c.Alike p p') :
    c.Follows (SameSimples c) (generationTerms n) (generationTerms n) p p' := by
  induction n generalizing p p' with
  | zero => exact follows_unexpected _ hp
  | succ n ih =>
    refine (follows_expect plain_comma (by simp) hp).bind (by grind) ?_
    intro _ _ q q' _ hq
    refine (follows_simpleTerm hq).bind (by grind) ?_
    intro t t' r r' ht hr
    refine (follows_eat? plain_closing (by simp) hr).bind (by grind) ?_
    intro found found' s s' hfound hs
    cases hfound with
    | some hclosing => exact follows_pure ⟨congrArg (· :: []) ht, hclosing⟩ hs
    | none =>
      refine (ih hs).bind (by grind) ?_
      intro rest rest' u u' hrest hu
      exact follows_pure ⟨congrArg₂ List.cons ht hrest.1, hrest.2⟩ hu

theorem follows_generationTerm (hp : c.Alike p p') :
    c.Follows SameTerm generationTerm generationTerm p p' := by
  refine (follows_expect (plain_keyword rfl (by simp)) (by simp) hp).bind
    (fun _ => (orderly_expect (by simp)).bind (by grind)) ?_
  intro word word' q q' _ hq
  refine (follows_expect plain_opening (by simp) hq).bind (by grind) ?_
  intro opening opening' r r' _ hr
  have hform : GenerationForm.ofKind? r.current.kind = GenerationForm.ofKind? r'.current.kind := by
    rw [← form_canonicalKind, c.spelling_eq hr.paired, form_canonicalKind]
  refine follows_look_bind ?_
  rw [← hform]
  cases h : GenerationForm.ofKind? r.current.kind with
  | none => exact follows_unexpected _ hr
  | some form =>
    refine (follows_advance (GenerationForm.ne_endOfInput_of_ofKind? h) hr).bind (by grind) ?_
    intro _ _ s s' _ hs
    let n := max s.rest.length s'.rest.length + 1
    have hterms : c.Follows (SameSimples c) (remaining >>= generationTerms)
        (remaining >>= generationTerms) s s' :=
      (follows_generationTerms n hs).congr (generationTerms_congr (Nat.lt_succ_self _) (by omega))
        (generationTerms_congr (Nat.lt_succ_self _) (by omega))
    rw [← bind_assoc, ← bind_assoc]
    refine hterms.bind (by grind) ?_
    intro terms terms' u u' hterms hu
    refine (follows_setHeight 2 hu).bind (by grind) ?_
    intro _ _ v v' _ hv
    refine follows_pure ?_ hv
    rw [SameTerm, erase, erase, hterms.1]

/-! ### Terms -/

/-- Reads a term that no connective joins and that begins with a token of this kind. -/
def primaryOf (operand : ℕ → Reads Term) (kind : Token.Kind) : Reads Term :=
  match kind with
  | .string _ | .identifier _ => return .simple (← simpleTerm)
  | .symbol .opening => group operand
  | .keyword .not | .symbol .bang => negation operand
  | .keyword .isabout => weightedTerm
  | .keyword .formsof => generationTerm
  | _ => unexpected .searchTerm

/-- What is read depends on the kind of the current token up to spelling. -/
theorem primaryOf_canonicalKind (kind : Token.Kind) :
    primaryOf operand (canonicalKind kind) = primaryOf operand kind := by
  cases kind with
  | symbol sign => cases sign <;> rfl
  | _ => rfl

section Follows

variable (horderly : ∀ least, (operand least).Orderly)
  (hoperand : ∀ {least p p'}, c.Alike p p' →
    c.Follows SameTerm (operand least) (operand least) p p')

include horderly hoperand

theorem follows_group (hne : p.current.kind ≠ .endOfInput) (hp : c.Alike p p') :
    c.Follows SameTerm (group operand) (group operand) p p' := by
  refine (follows_advance hne hp).bind (by grind) ?_
  intro opening opening' q q' hopening hq
  refine (hoperand hq).bind (by grind) ?_
  intro inner inner' r r' hinner hr
  refine (follows_wrap hopening hr).bind (by grind) ?_
  intro _ _ s s' _ hs
  refine (follows_expect plain_closing (by simp) hs).bind (by grind) ?_
  intro closing closing' u u' _ hu
  refine follows_pure ?_ hu
  rw [SameTerm, erase, erase, hinner]

theorem follows_negation (hne : p.current.kind ≠ .endOfInput) (hp : c.Alike p p') :
    c.Follows SameTerm (negation operand) (negation operand) p p' := by
  refine (follows_advance hne hp).bind (by grind) ?_
  intro t t' q q' ht hq
  refine (hoperand hq).bind (by grind) ?_
  intro inner inner' r r' hinner hr
  refine (follows_wrap ht hr).bind (by grind) ?_
  intro _ _ s s' _ hs
  refine follows_pure ?_ hs
  rw [SameTerm, erase, erase, hinner]

theorem follows_primary (hp : c.Alike p p') :
    c.Follows SameTerm (primary operand) (primary operand) p p' := by
  have hsimple : c.Follows SameTerm (simpleTerm >>= fun t => pure (.simple t))
      (simpleTerm >>= fun t => pure (.simple t)) p p' := by
    refine (follows_simpleTerm hp).bind (by grind) ?_
    intro t t' q q' ht hq
    exact follows_pure (congrArg Term.simple ht) hq
  refine follows_look_bind ?_
  change c.Follows SameTerm (primaryOf operand p.current.kind) (primaryOf operand p'.current.kind)
    p p'
  rw [← primaryOf_canonicalKind p.current.kind, ← primaryOf_canonicalKind p'.current.kind,
    ← c.spelling_eq hp.paired]
  have hne : canonicalKind p.current.kind ≠ .endOfInput → p.current.kind ≠ .endOfInput := by
    intro h hend
    rw [hend] at h
    exact h rfl
  cases hkind : canonicalKind p.current.kind with
  | string value => exact hsimple
  | identifier name => exact hsimple
  | keyword word =>
    cases word with
    | not => exact follows_negation horderly hoperand (hne (by simp [hkind])) hp
    | isabout => exact follows_weightedTerm hp
    | formsof => exact follows_generationTerm hp
    | _ => exact follows_unexpected _ hp
  | symbol sign =>
    cases sign with
    | opening => exact follows_group horderly hoperand (hne (by simp [hkind])) hp
    | bang => exact follows_negation horderly hoperand (hne (by simp [hkind])) hp
    | _ => exact follows_unexpected _ hp
  | _ => exact follows_unexpected _ hp

theorem follows_connections {lhs lhs' : Term} (n height : ℕ) (hlhs : SameTerm lhs lhs')
    (hp : c.Alike p p') :
    c.Follows (EquallyHigh SameTerm) (connections operand least n lhs height)
      (connections operand least n lhs' height) p p' := by
  have hrest := orderly_connections horderly
  induction n generalizing p p' lhs lhs' height with
  | zero => exact follows_pure ⟨hlhs, rfl⟩ hp
  | succ n ih =>
    have ht := hp.paired
    have hop : Connective.ofKind? p.current.kind = Connective.ofKind? p'.current.kind := by
      rw [← connective_canonicalKind, c.spelling_eq ht, connective_canonicalKind]
    refine follows_look_bind ?_
    rw [← hop]
    cases hkind : Connective.ofKind? p.current.kind with
    | none => exact follows_pure ⟨hlhs, rfl⟩ hp
    | some op =>
      dsimp only
      by_cases hless : op.leftPower < least
      · rw [if_pos hless, if_pos hless]
        exact follows_pure ⟨hlhs, rfl⟩ hp
      · rw [if_neg hless, if_neg hless]
        have hne := Connective.ne_endOfInput_of_ofKind? hkind
        refine (follows_advance hne hp).bind (by grind) ?_
        intro _ _ q q' _ hq
        refine (hoperand hq).bind (by grind) ?_
        intro rhs rhs' r r' hrhs hr
        have hsame : SameTerm (.joined op lhs rhs (lhs.span.cover rhs.span))
            (.joined op lhs' rhs' (lhs'.span.cover rhs'.span)) := by
          rw [SameTerm, erase, erase, hlhs, hrhs]
        refine follows_lastHeight_bind hr ?_
        refine (follows_nodeHeight _ ht hr).bind (by grind) ?_
        rintro height _ s s' rfl hs
        exact ih height hsame hs

theorem follows_chain (hsound : Sound operand) (hp : c.Alike p p') :
    c.Follows SameTerm (chain operand least) (chain operand least) p p' := by
  have hrest := orderly_connections horderly
  refine (follows_primary horderly hoperand hp).bind (by grind) ?_
  intro lhs lhs' q q' hlhs hq
  let n := max q.rest.length q'.rest.length + 1
  have hleft : (connections operand least (q.rest.length + 1) lhs q.height >>= note) q =
      (connections operand least n lhs q.height >>= note) q :=
    bind_congr_left (connections_congr hsound (Nat.lt_succ_self _) (by omega))
  have hright : (connections operand least (q'.rest.length + 1) lhs' q'.height >>= note) q' =
      (connections operand least n lhs' q.height >>= note) q' := by
    rw [hq.height_eq]
    exact bind_congr_left (connections_congr hsound (Nat.lt_succ_self _) (by omega))
  exact (follows_connections horderly hoperand n q.height hlhs hq).note.congr hleft hright

end Follows

/-- **Search terms are read alike at places that are alike.** -/
theorem follows_termWithin (levels least : ℕ) (hp : c.Alike p p') :
    c.Follows SameTerm (termWithin levels least) (termWithin levels least) p p' := by
  induction levels generalizing least p p' with
  | zero => exact follows_tooDeep hp
  | succ levels ih =>
    rw [termWithin_succ]
    refine follows_counted (fun hq => ?_) hp
    exact follows_chain (orderly_termWithin levels) (fun h => ih _ h) (sound_termWithin levels) hq

/-- Search conditions are read alike from the starts of two texts. -/
theorem follows_condition (hdepth : p.depth = 0) (hdepth' : p'.depth = 0) (hp : c.Alike p p') :
    c.Follows SameTerm condition condition p p' := by
  have hterm : ∀ {q : Parser}, q.depth = 0 → term q = termWithin maxNesting 0 q := by
    intro q hq
    change termWithin (maxNesting - q.depth) 0 q = _
    rw [hq, Nat.sub_zero]
  have hend : Plain canonicalKind .endOfInput := plain_canonicalKind rfl (by simp [Negates])
  have hwhole := follows_whole hend (orderly_termWithin maxNesting 0).forward
    (fun hq => follows_termWithin maxNesting 0 hq) hp
  exact hwhole.congr (whole_congr (hterm hdepth)) (whole_congr (hterm hdepth'))

end Search

end SqlPredicates
