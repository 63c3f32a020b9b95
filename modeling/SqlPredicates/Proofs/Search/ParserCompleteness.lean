import SqlPredicates.Proofs.Search.ParserSoundness

/-!
# What the reader of search terms returns

Every reading that the grammar allows is found by the reader, unless the term is too high; then the
reader fails with that reason and with no other.

The two limits are handled as for naming rules: a term uses at most as many levels as it is high, so
`levels < t.height` is a necessary condition for running out of levels, and one for a finished node
to be too high. An `ISABOUT` or `FORMSOF` is higher than the one level that it uses, and its lists
are read without any limit.

## Main definitions

* `Search.Complete` — a reader that returns what the grammar allows
* `Search.GoesOn` — what the loop over the connectives returns

## Main results

* `Search.complete_termWithin` — the reader of terms is complete
-/

namespace SqlPredicates

namespace Search

open SqlPredicates.Parser SqlPredicates.Term

theorem stops_of_ofKind?_eq_none {kind : Token.Kind} (h : Connective.ofKind? kind = none)
    (power : ℕ) : Stops power kind := by
  intro op hop
  rw [h] at hop
  cases hop

/-- The reader of operands returns every operand and notes its height, except that it may fail on one
that is higher than `limit`. -/
def Complete (operand : ℕ → Reads Term) (limit : ℕ) : Prop :=
  ∀ {least : ℕ} {p q : Parser} {t : Term}, OperandReading least p t q →
    Reads.Yields (operand least) p t (q.atHeight t.height) (limit < t.height)

variable {operand : ℕ → Reads Term} {limit least n : ℕ} {p q r : Parser} {t : Term}
  {ts : List Token}

/-! ### Lists -/

theorem simpleTerm_of_advance {t : SimpleTerm} (h : advance p = .ok t.token q) :
    simpleTerm p = .ok t (q.atHeight 1) :=
  simpleTerm_eq_ok.mpr ⟨(advance_eq_ok.mp h).1.symm, q, h, rfl⟩

/-- A plain alternative is not followed by `WEIGHT`, since it would go on then. -/
theorem weightedItem_complete {i : WeightedItem} (hts : Passes p ts q) (hspells : i.Spells ts)
    (hweight : q.current.kind ≠ .keyword .weight) : weightedItem p = .ok i (q.atHeight 1) := by
  cases hspells with
  | plain t =>
    have hread : simpleTerm p = .ok t (q.atHeight 1) :=
      simpleTerm_of_advance (q := q.atHeight p.height) (hts.advance_eq p.height)
    rw [weightedItem, Reads.bind_of_ok hread,
      Reads.bind_of_ok (eat?_of_ne (p := q.atHeight 1) hweight)]
    rfl
  | weighted t word opening closing hnumber hle =>
    obtain ⟨p₁, hterm, hts₁⟩ := hts.of_cons
    obtain ⟨p₂, hword, hts₂⟩ := hts₁.of_cons
    obtain ⟨p₃, hopening, hts₃⟩ := hts₂.of_cons
    obtain ⟨p₄, hvalue, hts₄⟩ := hts₃.of_cons
    rw [← hts₃.current_eq] at hnumber hvalue
    rw [weightedItem, Reads.bind_of_ok (simpleTerm_of_advance hterm),
      Reads.bind_of_ok (eat?_of_advance (advance_atHeight hword 1) rfl)]
    dsimp only
    rw [Reads.bind_of_ok (expect_eq_ok.mpr ⟨rfl, advance_atHeight hopening 1⟩),
      Reads.bind_of_ok (weight_eq_ok (p := p₃.atHeight 1).mpr ⟨hnumber, hle, advance_atHeight hvalue 1⟩),
      Reads.bind_of_ok (expect_eq_ok.mpr ⟨rfl, hts₄.advance_eq 1⟩)]
    rfl

theorem weightedItems_complete {items : List WeightedItem} {closing : Token}
    (hclosing : closing.kind = .symbol .closing) (hspells : SpellItems ts items)
    (hts : Passes p (ts ++ [closing]) q) (hn : p.rest.length < n) :
    weightedItems n p = .ok (items, closing) (q.atHeight 1) := by
  induction hspells generalizing n p with
  | last hspells =>
    obtain ⟨n, rfl⟩ : ∃ m, n = m + 1 := ⟨n - 1, by omega⟩
    obtain ⟨p₁, hts, hend⟩ := hts.of_append
    have hkind : p₁.current.kind = .symbol .closing := by rw [hend.current_eq, hclosing]
    rw [weightedItems, Reads.bind_of_ok (weightedItem_complete hts hspells (by simp [hkind])),
      Reads.bind_of_ok (eat?_of_advance (hend.advance_eq 1) hclosing)]
    rfl
  | @more us vs i items comma hspells hs ih =>
    obtain ⟨n, rfl⟩ : ∃ m, n = m + 1 := ⟨n - 1, by omega⟩
    rw [List.append_assoc, List.cons_append] at hts
    obtain ⟨p₁, hus, hrest⟩ := hts.of_append
    have hkind : p₁.current.kind = .symbol .comma := by rw [hrest.current_eq]
    obtain ⟨p₂, hadvance, hvs⟩ := hrest.of_cons
    -- an alternative and a comma have been passed over
    have hpos := hspells.length_pos
    have hlength := (hus.append (.single hadvance)).length_le <|
      List.forall_mem_append.mpr ⟨hspells.ne_endOfInput, by simp⟩
    simp only [List.length_append, List.length_cons, List.length_nil] at hlength
    rw [weightedItems, Reads.bind_of_ok (weightedItem_complete hus hspells (by simp [hkind])),
      Reads.bind_of_ok (eat?_of_ne (by simp [hkind]))]
    dsimp only
    rw [Reads.bind_of_ok (eat?_of_advance (advance_atHeight hadvance 1) rfl)]
    dsimp only
    rw [Reads.bind_of_ok (ih (hvs.from_atHeight 1) (show p₂.rest.length < n by omega))]
    rfl

theorem generationTerms_complete {terms : List SimpleTerm} {closing : Token}
    (hclosing : closing.kind = .symbol .closing) (hspells : SpellTerms ts terms)
    (hts : Passes p (ts ++ [closing]) q) (hn : p.rest.length < n) :
    generationTerms n p = .ok (terms, closing) (q.atHeight 1) := by
  induction hspells generalizing n p with
  | last comma t =>
    obtain ⟨n, rfl⟩ : ∃ m, n = m + 1 := ⟨n - 1, by omega⟩
    obtain ⟨p₁, hcomma, hts₁⟩ := hts.of_cons
    obtain ⟨p₂, hterm, hts₂⟩ := hts₁.of_cons
    rw [generationTerms, Reads.bind_of_ok (expect_eq_ok.mpr ⟨rfl, hcomma⟩),
      Reads.bind_of_ok (simpleTerm_of_advance hterm),
      Reads.bind_of_ok (eat?_of_advance (hts₂.advance_eq 1) hclosing)]
    rfl
  | @more us terms comma t hs ih =>
    obtain ⟨n, rfl⟩ : ∃ m, n = m + 1 := ⟨n - 1, by omega⟩
    obtain ⟨p₁, hcomma, hts₁⟩ := hts.of_cons
    obtain ⟨p₂, hterm, hts₂⟩ := hts₁.of_cons
    have hkind : p₂.current.kind ≠ .symbol .closing := by
      cases hs with
      | last comma' t' => simp [hts₂.current_eq]
      | more comma' t' _ => simp [hts₂.current_eq]
    have hlength := (Passes.cons hcomma (.single hterm)).length_le <|
      List.forall_mem_cons.mpr ⟨by simp, by simpa using t.token_ne_endOfInput⟩
    simp only [List.length_cons, List.length_nil] at hlength
    rw [generationTerms, Reads.bind_of_ok (expect_eq_ok.mpr ⟨rfl, hcomma⟩),
      Reads.bind_of_ok (simpleTerm_of_advance hterm),
      Reads.bind_of_ok (eat?_of_ne (p := p₂.atHeight 1) hkind)]
    dsimp only
    rw [Reads.bind_of_ok (ih (hts₂.from_atHeight 1) (show p₂.rest.length < n by omega))]
    rfl

/-! ### Terms that no connective joins -/

theorem weightedTerm_complete {items : List WeightedItem} {word opening closing : Span}
    (hspells : SpellItems ts items)
    (hts : Passes p (⟨.keyword .isabout, word⟩ :: ⟨.symbol .opening, opening⟩ ::
      (ts ++ [⟨.symbol .closing, closing⟩])) q) :
    weightedTerm p = .ok (.weighted items (word.cover closing)) (q.atHeight 3) := by
  obtain ⟨p₁, hword, hts⟩ := hts.of_cons
  obtain ⟨p₂, hopening, hts⟩ := hts.of_cons
  rw [weightedTerm, Reads.bind_of_ok (expect_eq_ok.mpr ⟨rfl, hword⟩),
    Reads.bind_of_ok (expect_eq_ok.mpr ⟨rfl, hopening⟩), remaining_bind,
    Reads.bind_of_ok (weightedItems_complete rfl hspells hts (Nat.lt_succ_self _))]
  rfl

theorem generationTerm_complete {terms : List SimpleTerm} {form : GenerationForm} {name : Token}
    {word opening closing : Span} (hform : GenerationForm.ofKind? name.kind = some form)
    (hspells : SpellTerms ts terms)
    (hts : Passes p (⟨.keyword .formsof, word⟩ :: ⟨.symbol .opening, opening⟩ :: name ::
      (ts ++ [⟨.symbol .closing, closing⟩])) q) :
    generationTerm p = .ok (.generation form terms (word.cover closing)) (q.atHeight 2) := by
  obtain ⟨p₁, hword, hts⟩ := hts.of_cons
  obtain ⟨p₂, hopening, hts⟩ := hts.of_cons
  have hcurrent := hts.current_eq
  obtain ⟨p₃, hname, hts⟩ := hts.of_cons
  rw [generationTerm, Reads.bind_of_ok (expect_eq_ok.mpr ⟨rfl, hword⟩),
    Reads.bind_of_ok (expect_eq_ok.mpr ⟨rfl, hopening⟩), look_bind, hcurrent]
  simp only [hform]
  rw [Reads.bind_of_ok hname, remaining_bind,
    Reads.bind_of_ok (generationTerms_complete rfl hspells hts (Nat.lt_succ_self _))]
  rfl

theorem primary_of_negates (hnot : Negates p.current.kind) :
    primary operand p = negation operand p := by
  rw [primary, look_bind]
  rcases hnot with h | h
  · rw [h]
  · rw [h]

theorem primary_complete (hoperand : Complete operand limit) (hlimit : limit < maxNesting)
    (hreading : Reading p t q) (hconnective : t.connective? = none) :
    Reads.Yields (primary operand) p t (q.atHeight t.height) (limit + 1 < t.height) := by
  obtain ⟨⟨ts, hts, hspells⟩, hgrouped, hstops⟩ := hreading
  cases hspells with
  | simple simple =>
    have hread : simpleTerm p = .ok simple (q.atHeight 1) :=
      simpleTerm_of_advance (q := q.atHeight p.height) (hts.advance_eq p.height)
    obtain ⟨literal, span⟩ := simple
    rw [Reads.Yields, primary, look_bind, hts.current_eq]
    cases literal with
    | word text => exact Reads.Yields.bind_of_ok hread (.inl rfl)
    | phrase quoted => exact Reads.Yields.bind_of_ok hread (.inl rfl)
  | weighted word opening closing h =>
    rw [Reads.Yields, primary, look_bind, hts.current_eq]
    exact .inl (weightedTerm_complete h hts)
  | generation word opening closing hform h =>
    rw [Reads.Yields, primary, look_bind, hts.current_eq]
    exact .inl (generationTerm_complete hform h hts)
  | group opening closing hinner =>
    rw [Reads.Yields, primary, look_bind, hts.current_eq]
    obtain ⟨p₁, hadvance, hrest⟩ := hts.of_cons
    obtain ⟨p₂, hus, hend⟩ := hrest.of_append
    have hnone : Connective.ofKind? p₂.current.kind = none := by
      rw [hend.current_eq]
      rfl
    refine Reads.Yields.bind_of_ok hadvance ?_
    have hinner := hoperand
      { spelled := ⟨_, hus, hinner⟩
        grouped := hgrouped
        stops := stops_of_ofKind?_eq_none hnone _
        holds := holds_zero _
        stops_least := stops_of_ofKind?_eq_none hnone _ }
    refine (hinner.mono fun h => ?_).bind ?_
    · rw [Term.height]
      omega
    · refine Reads.Yields.bind ((yields_wrap _).mono (Nat.lt_of_le_of_lt hlimit)) ?_
      exact .bind_of_ok (expect_eq_ok.mpr ⟨rfl, hend.advance_eq _⟩) (.inl rfl)
  | @not u us inner hnot hinner =>
    obtain ⟨p₁, hadvance, hus⟩ := hts.of_cons
    rw [Reads.Yields, primary_of_negates (by rw [hts.current_eq]; exact hnot)]
    refine Reads.Yields.bind_of_ok hadvance ?_
    obtain ⟨hstopsNot, hstops⟩ := stops_min_iff.mp hstops
    obtain ⟨hgrouped, hholds⟩ := grouped_not_iff.mp hgrouped
    have hinner := hoperand
      { spelled := ⟨us, hus, hinner⟩
        grouped := hgrouped
        stops := hstops
        holds := hholds
        stops_least := hstopsNot }
    refine (hinner.mono fun h => ?_).bind ?_
    · rw [Term.height]
      omega
    · exact Reads.Yields.bind ((yields_wrap _).mono (Nat.lt_of_le_of_lt hlimit)) (.inl rfl)
  | joined => cases hconnective

/-! ### Joined terms -/

/-- A joined term has been read in two parts, of which the first ends at its connective. -/
theorem Reading.exists_of_joined {op : Connective} {lhs rhs : Term} {span : Span}
    (h : Reading p (.joined op lhs rhs span) r) :
    span = lhs.span.cover rhs.span ∧ ∃ q q', Reading p lhs q ∧
      Connective.ofKind? q.current.kind = some op ∧ advance q = .ok q.current q' ∧
      OperandReading op.rightPower q' rhs r := by
  obtain ⟨⟨ts, hts, hspells⟩, hgrouped, hstops⟩ := h
  obtain ⟨hlhs, hrhs, hedge, hholds⟩ := grouped_joined_iff.mp hgrouped
  obtain ⟨hleast, hrest⟩ := stops_min_iff.mp hstops
  cases hspells with
  | @joined t _ us vs _ _ hop hl hr =>
    obtain ⟨q, hus, hright⟩ := hts.of_append
    have hcurrent := hright.current_eq
    obtain ⟨q', hadvance, hvs⟩ := hright.of_cons
    rw [← hcurrent] at hop hadvance
    refine ⟨rfl, q, q', ⟨⟨us, hus, hl⟩, hlhs, fun op' hop' => ?_⟩, hop, hadvance,
      ⟨⟨vs, hvs, hr⟩, hrhs, hrest⟩, hholds, hleast⟩
    rw [hop] at hop'
    cases hop'
    exact hedge

/-- The left side of a joined term that belongs into an operand does so as well. -/
theorem holds_left {op : Connective} {lhs rhs : Term} {span : Span}
    (hgrouped : (Term.joined op lhs rhs span).Grouped) (hle : least ≤ op.leftPower) :
    lhs.Holds least := by
  intro op' hop'
  obtain ⟨-, -, hleft, -, -⟩ := hgrouped
  have hlevel := (op.leftPower_lt_rightPower_iff op').mpr (hleft op' hop')
  exact Nat.le_trans hle (Nat.le_of_lt_succ hlevel)

/-- The loop over the connectives goes from `t` at `q` on to `b` at `s`, whatever is noted at `q`. -/
def GoesOn (operand : ℕ → Reads Term) (least n : ℕ) (t : Term) (q : Parser) (b : Term) (s : Parser)
    (tall : Prop) : Prop :=
  ∀ noted, ∃ noted', Reads.Yields (connections operand least n t t.height) (q.atHeight noted)
    (b, b.height) (s.atHeight noted') tall

theorem goesOn_of_stops (h : Stops least q.current.kind) (tall : Prop) :
    GoesOn operand least n t q t q tall :=
  fun noted => ⟨noted, .inl (connections_of_stops h)⟩

/-- The loop takes a connective and its right side. -/
theorem goesOn_of_connective (hoperand : Complete operand limit) (hlimit : limit < maxNesting)
    {lhs rhs : Term} {op : Connective} (hop : Connective.ofKind? q.current.kind = some op)
    (hle : least ≤ op.leftPower) {q' : Parser} (hadvance : advance q = .ok q.current q')
    (hrhs : OperandReading op.rightPower q' rhs r) {b : Term} {s : Parser} {tall : Prop}
    (htall : limit + 1 < (Term.joined op lhs rhs (lhs.span.cover rhs.span)).height → tall)
    (hrest : GoesOn operand least n (.joined op lhs rhs (lhs.span.cover rhs.span)) r b s tall) :
    GoesOn operand least (n + 1) lhs q b s tall := by
  intro noted
  obtain ⟨noted', hrest⟩ := hrest rhs.height
  refine ⟨noted', ?_⟩
  rw [Reads.Yields, connections_of_le (q := q.atHeight noted) hop hle]
  refine Reads.Yields.bind_of_ok (advance_atHeight hadvance noted) ?_
  refine ((hoperand (hrhs.from_atHeight noted)).mono ?_).bind ?_
  · intro h
    refine htall ?_
    rw [Term.height]
    omega
  · rw [Reads.Yields, lastHeight_bind]
    exact Reads.Yields.bind
      ((yields_nodeHeight _).mono fun h => htall (Nat.lt_of_le_of_lt hlimit h)) hrest

/-- Reading a term and going on is the same as having it as the left side: its leftmost part is read
first, and then its connectives, one after the other. The induction goes to the left side. -/
theorem chain_of_goesOn (hoperand : Complete operand limit) (hlimit : limit < maxNesting)
    (hreading : Reading p t q) (hholds : t.Holds least) {b : Term} {s : Parser} {tall : Prop}
    (htall : limit + 1 < t.height → tall)
    (hrest : ∀ n, q.rest.length < n → GoesOn operand least n t q b s tall) :
    Reads.Yields (chain operand least) p b (s.atHeight b.height) tall := by
  induction t generalizing q with
  | joined op lhs rhs span ih _ =>
    obtain ⟨rfl, q₁, q₂, hlhs, hop, hadvance, hrhs⟩ := Reading.exists_of_joined hreading
    have hle := hholds op rfl
    refine ih hlhs (holds_left hreading.grouped hle) (fun h => htall ?_) fun n hn => ?_
    · rw [Term.height]
      omega
    · obtain ⟨n, rfl⟩ : ∃ m, n = m + 1 := ⟨n - 1, by omega⟩
      have hlength := rest_length_lt hop hadvance hrhs.toReading
      exact goesOn_of_connective hoperand hlimit hop hle hadvance hrhs htall (hrest n (by omega))
  | _ =>
    obtain ⟨noted, hconnections⟩ := hrest _ (Nat.lt_succ_self _) _
    refine ((primary_complete hoperand hlimit hreading rfl).mono htall).bind ?_
    rw [Reads.Yields, remaining_bind, lastHeight_bind]
    exact Reads.Yields.bind hconnections (.inl rfl)

theorem height_pos (t : Term) : 0 < t.height := by
  cases t <;> exact Nat.succ_pos _

/-- **Every operand is returned, unless it is higher than levels are left.** -/
theorem complete_termWithin {levels : ℕ} (hlevels : levels ≤ maxNesting) :
    Complete (termWithin levels) levels := by
  induction levels with
  | zero =>
    intro least p q t _
    exact .inr ⟨height_pos t, p.current.span.start, p.deeper, rfl⟩
  | succ levels ih =>
    intro least p q t hreading
    have hoperand : Complete (termWithin levels) levels := ih (Nat.le_of_succ_le hlevels)
    have hdeeper := hreading.deeper
    refine .bind_of_ok (enter_eq p)
      (Reads.Yields.bind (q := q.deeper.atHeight t.height) ?_ (.inl rfl))
    exact chain_of_goesOn hoperand hlevels hdeeper.toReading hdeeper.holds id
      fun n _ => goesOn_of_stops hdeeper.stops_least _

end Search

end SqlPredicates
