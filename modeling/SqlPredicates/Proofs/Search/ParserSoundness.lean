import SqlPredicates.Proofs.Reading
import SqlPredicates.Proofs.Search.Spelling

/-!
# What the reader of search terms accepts

Whatever the reader returns is spelled by the tokens that it passed over, is grouped as the binding
powers ask for, and is not too high. Its height is what the parser has noted at the end.

Words, weights and the lists of `ISABOUT` and `FORMSOF` involve no precedence. Their readers are
described first, the single tokens by equivalences, which serve the converse direction as well. What
is left is the part that goes by binding powers, and it is organised as for naming rules: a finished
reading (`Term.Reading`) records that the next token stops all operands that end with the term,
which makes the term a correct left side of that token's connective.

## Main definitions

* `Search.Stops` — a token at which an operand of a given power ends
* `Term.Reading`, `Term.OperandReading` — what is known about a finished reading

## Main results

* `Search.simpleTerm_eq_ok`, `Search.weight_eq_ok` — reading one token
* `Search.sound_termWithin` — every reading of a term
-/

namespace SqlPredicates

namespace Search

open SqlPredicates.Parser

variable {p q r : Parser}

/-! ### Words, weights and lists -/

theorem simpleTerm_eq_ok {t : SimpleTerm} :
    simpleTerm p = .ok t q ↔
      p.current = t.token ∧ ∃ r, advance p = .ok t.token r ∧ q = r.atHeight 1 := by
  rw [simpleTerm, look_bind]
  cases hliteral : literal? p.current.kind with
  | none =>
    refine iff_of_false (fun h => by cases h) fun h => ?_
    rw [h.1, SimpleTerm.token, literal?_kind] at hliteral
    cases hliteral
  | some literal =>
    have hcurrent : p.current = (⟨literal, p.current.span⟩ : SimpleTerm).token := by
      rw [SimpleTerm.token, ← kind_of_literal? hliteral]
    constructor
    · intro h
      obtain ⟨t', r, hadvance, h⟩ := Reads.bind_eq_ok.mp h
      rw [Reads.bind_of_ok (setHeight_eq 1 r)] at h
      obtain ⟨rfl, rfl⟩ := Reads.pure_eq_ok.mp h
      obtain rfl := (advance_eq_ok.mp hadvance).1
      exact ⟨hcurrent, r, hcurrent ▸ hadvance, rfl⟩
    · rintro ⟨ht, r, hadvance, rfl⟩
      refine Reads.bind_eq_ok.mpr ⟨_, r, hadvance, ?_⟩
      rw [Reads.bind_of_ok (setHeight_eq 1 r)]
      refine Reads.pure_eq_ok.mpr ⟨?_, rfl⟩
      rw [ht, SimpleTerm.token, literal?_kind] at hliteral
      cases hliteral
      rw [ht]
      rfl

theorem passes_of_simpleTerm {t : SimpleTerm} (h : simpleTerm p = .ok t q) :
    Passes p [t.token] q := by
  obtain ⟨-, r, hadvance, rfl⟩ := simpleTerm_eq_ok.mp h
  exact (Passes.single hadvance).to_atHeight 1

theorem weight_eq_ok {weight : Binary64} :
    Search.weight p = .ok weight q ↔ number? p.current.kind = some weight ∧
      weight.le Binary64.one = true ∧ advance p = .ok p.current q := by
  rw [Search.weight, look_bind]
  cases hnumber : number? p.current.kind with
  | none => exact iff_of_false (fun h => by cases h) fun h => by cases h.1
  | some value =>
    by_cases hle : value.le Binary64.one = true
    · simp only [hle, if_true, Reads.bind_eq_ok, Reads.pure_eq_ok, Option.some.injEq]
      constructor
      · rintro ⟨t, q', hadvance, rfl, rfl⟩
        obtain rfl := (advance_eq_ok.mp hadvance).1
        exact ⟨rfl, hle, hadvance⟩
      · rintro ⟨rfl, -, hadvance⟩
        exact ⟨p.current, q, hadvance, rfl, rfl⟩
    · refine iff_of_false (fun h => ?_) fun h => ?_
      · simp only [hle] at h
        cases h
      · cases h.1
        exact hle h.2.1

theorem weightedItem_sound {i : WeightedItem} (h : weightedItem p = .ok i q) :
    ∃ ts, Passes p ts q ∧ i.Spells ts := by
  obtain ⟨t, p₁, hterm, h⟩ := Reads.bind_eq_ok.mp h
  have hterm := passes_of_simpleTerm hterm
  obtain ⟨found, p₂, hfound, h⟩ := Reads.bind_eq_ok.mp h
  rcases eat?_eq_ok.mp hfound with ⟨hk, ⟨_, word⟩, rfl, hword⟩ | ⟨-, rfl, rfl⟩
  · obtain ⟨⟨_, opening⟩, p₃, hopening, h⟩ := Reads.bind_eq_ok.mp h
    obtain ⟨rfl, hopening⟩ := expect_eq_ok.mp hopening
    obtain ⟨weight, p₄, hweight, h⟩ := Reads.bind_eq_ok.mp h
    obtain ⟨hnumber, hle, hweight⟩ := weight_eq_ok.mp hweight
    obtain ⟨⟨_, closing⟩, p₅, hclosing, h⟩ := Reads.bind_eq_ok.mp h
    obtain ⟨rfl, hclosing⟩ := expect_eq_ok.mp hclosing
    obtain ⟨rfl, rfl⟩ := Reads.pure_eq_ok.mp h
    obtain rfl : _ = Token.Kind.keyword .weight := by rw [← hk, ← (advance_eq_ok.mp hword).1]
    exact ⟨_, hterm.append (.cons hword (.cons hopening (.cons hweight (.single hclosing)))),
      .weighted t word opening closing hnumber hle⟩
  · obtain ⟨rfl, rfl⟩ := Reads.pure_eq_ok.mp h
    exact ⟨_, hterm, .plain t⟩

/-- The induction is on the number of alternatives that may still follow. -/
theorem weightedItems_sound {n : ℕ} {items : List WeightedItem} {closing : Token}
    (h : weightedItems n p = .ok (items, closing) q) :
    closing.kind = .symbol .closing ∧ ∃ ts, Passes p (ts ++ [closing]) q ∧ SpellItems ts items := by
  induction n generalizing p items with
  | zero => cases h
  | succ n ih =>
    obtain ⟨i, p₁, hitem, h⟩ := Reads.bind_eq_ok.mp h
    obtain ⟨ts, hts, hspells⟩ := weightedItem_sound hitem
    obtain ⟨found, p₂, hfound, h⟩ := Reads.bind_eq_ok.mp h
    rcases eat?_eq_ok.mp hfound with ⟨hk, t, rfl, hadvance⟩ | ⟨-, rfl, rfl⟩
    · obtain ⟨hpair, rfl⟩ := Reads.pure_eq_ok.mp h
      obtain ⟨rfl, rfl⟩ := Prod.mk.inj hpair
      obtain rfl := (advance_eq_ok.mp hadvance).1
      exact ⟨hk, ts, hts.append (.single hadvance), .last hspells⟩
    · obtain ⟨found, p₃, hfound, h⟩ := Reads.bind_eq_ok.mp h
      rcases eat?_eq_ok.mp hfound with ⟨hk, ⟨_, comma⟩, rfl, hadvance⟩ | ⟨-, rfl, rfl⟩
      · obtain ⟨⟨items', closing'⟩, p₄, hrest, h⟩ := Reads.bind_eq_ok.mp h
        obtain ⟨hpair, rfl⟩ := Reads.pure_eq_ok.mp h
        obtain ⟨rfl, rfl⟩ := Prod.mk.inj hpair
        obtain ⟨hclosing, us, hus, hitems⟩ := ih hrest
        obtain rfl : _ = Token.Kind.symbol .comma := by rw [← hk, ← (advance_eq_ok.mp hadvance).1]
        refine ⟨hclosing, ts ++ ⟨.symbol .comma, comma⟩ :: us, ?_, .more comma hspells hitems⟩
        rw [List.append_assoc, List.cons_append]
        exact hts.append (.cons hadvance hus)
      · cases h

theorem generationTerms_sound {n : ℕ} {terms : List SimpleTerm} {closing : Token}
    (h : generationTerms n p = .ok (terms, closing) q) :
    closing.kind = .symbol .closing ∧ ∃ ts, Passes p (ts ++ [closing]) q ∧ SpellTerms ts terms := by
  induction n generalizing p terms with
  | zero => cases h
  | succ n ih =>
    obtain ⟨⟨_, comma⟩, p₁, hcomma, h⟩ := Reads.bind_eq_ok.mp h
    obtain ⟨rfl, hcomma⟩ := expect_eq_ok.mp hcomma
    obtain ⟨t, p₂, hterm, h⟩ := Reads.bind_eq_ok.mp h
    have hterm := passes_of_simpleTerm hterm
    obtain ⟨found, p₃, hfound, h⟩ := Reads.bind_eq_ok.mp h
    rcases eat?_eq_ok.mp hfound with ⟨hk, u, rfl, hadvance⟩ | ⟨-, rfl, rfl⟩
    · obtain ⟨hpair, rfl⟩ := Reads.pure_eq_ok.mp h
      obtain ⟨rfl, rfl⟩ := Prod.mk.inj hpair
      obtain rfl := (advance_eq_ok.mp hadvance).1
      exact ⟨hk, _, .cons hcomma (hterm.append (.single hadvance)), .last comma t⟩
    · obtain ⟨⟨terms', closing'⟩, p₄, hrest, h⟩ := Reads.bind_eq_ok.mp h
      obtain ⟨hpair, rfl⟩ := Reads.pure_eq_ok.mp h
      obtain ⟨rfl, rfl⟩ := Prod.mk.inj hpair
      obtain ⟨hclosing, us, hus, hterms⟩ := ih hrest
      exact ⟨hclosing, _, .cons hcomma (hterm.append hus), .more comma t hterms⟩

/-! ### Tokens that end an operand -/

/-- An operand that is read with this power ends before a token of this kind. -/
def Stops (power : ℕ) (kind : Token.Kind) : Prop :=
  ∀ op, Connective.ofKind? kind = some op → op.leftPower < power

theorem stops_min_iff {a b : ℕ} {kind : Token.Kind} :
    Stops (min a b) kind ↔ Stops a kind ∧ Stops b kind := by
  refine ⟨fun h => ⟨fun op hop => ?_, fun op hop => ?_⟩, fun h op hop => ?_⟩
  · exact Nat.lt_of_lt_of_le (h op hop) (Nat.min_le_left a b)
  · exact Nat.lt_of_lt_of_le (h op hop) (Nat.min_le_right a b)
  · exact Nat.lt_min.mpr ⟨h.1 op hop, h.2 op hop⟩

/-- No connective goes on with a term that does not end with an operand. -/
theorem stops_eight (kind : Token.Kind) : Stops 8 kind := fun op _ => op.leftPower_lt_eight

theorem not_stops_iff {power : ℕ} {kind : Token.Kind} :
    ¬ Stops power kind ↔ ∃ op, Connective.ofKind? kind = some op ∧ power ≤ op.leftPower := by
  simp only [Stops, not_forall, Nat.not_lt, exists_prop]

end Search

namespace Term

open SqlPredicates.Parser

/-- `t` has been read from `p` up to `q`. -/
structure Reading (p : Parser) (t : Term) (q : Parser) : Prop where
  /-- The tokens passed over spell the term. -/
  spelled : ∃ ts, Passes p ts q ∧ Spells ts t
  /-- The term is grouped as it is read. -/
  grouped : t.Grouped
  /-- No operand at the right edge goes on. -/
  stops : Search.Stops t.edge q.current.kind

/-- `t` has been read from `p` up to `q` as an operand with the power `least`. -/
structure OperandReading (least : ℕ) (p : Parser) (t : Term) (q : Parser) : Prop
    extends Reading p t q where
  /-- Its connective belongs into the operand. -/
  holds : t.Holds least
  /-- The operand does not go on. -/
  stops_least : Search.Stops least q.current.kind

variable {least : ℕ} {p q : Parser} {t : Term}

theorem OperandReading.deeper (h : OperandReading least p t q) :
    OperandReading least p.deeper t q.deeper := by
  obtain ⟨ts, hts, hspells⟩ := h.spelled
  exact ⟨⟨⟨ts, hts.deeper, hspells⟩, h.grouped, h.stops⟩, h.holds, h.stops_least⟩

theorem OperandReading.shallower (h : OperandReading least p t q) :
    OperandReading least p.shallower t q.shallower := by
  obtain ⟨ts, hts, hspells⟩ := h.spelled
  exact ⟨⟨⟨ts, hts.shallower, hspells⟩, h.grouped, h.stops⟩, h.holds, h.stops_least⟩

theorem OperandReading.from_atHeight (h : OperandReading least p t q) (height : ℕ) :
    OperandReading least (p.atHeight height) t q := by
  obtain ⟨ts, hts, hspells⟩ := h.spelled
  exact ⟨⟨⟨ts, hts.from_atHeight height, hspells⟩, h.grouped, h.stops⟩, h.holds, h.stops_least⟩

theorem OperandReading.to_atHeight (h : OperandReading least p t q) (height : ℕ) :
    OperandReading least p t (q.atHeight height) := by
  obtain ⟨ts, hts, hspells⟩ := h.spelled
  exact ⟨⟨⟨ts, hts.to_atHeight height, hspells⟩, h.grouped, h.stops⟩, h.holds, h.stops_least⟩

end Term

namespace Search

open SqlPredicates.Parser SqlPredicates.Term

/-- What the reader of operands returns is a reading, and has been measured. -/
def Sound (operand : ℕ → Reads Term) : Prop :=
  ∀ {least : ℕ} {p q : Parser} {t : Term},
    operand least p = .ok t q → OperandReading least p t q ∧ q.Measured t.height

variable {operand : ℕ → Reads Term} {least n : ℕ} {p q r : Parser} {t : Term}

/-! ### Terms that no connective joins -/

theorem weightedTerm_sound (h : weightedTerm p = .ok t q) :
    Reading p t q ∧ q.Measured t.height ∧ t.connective? = none := by
  obtain ⟨⟨_, word⟩, p₁, hword, h⟩ := Reads.bind_eq_ok.mp h
  obtain ⟨rfl, hword⟩ := expect_eq_ok.mp hword
  obtain ⟨⟨_, opening⟩, p₂, hopening, h⟩ := Reads.bind_eq_ok.mp h
  obtain ⟨rfl, hopening⟩ := expect_eq_ok.mp hopening
  rw [remaining_bind] at h
  obtain ⟨⟨items, _, closing⟩, p₃, hitems, h⟩ := Reads.bind_eq_ok.mp h
  cases h
  obtain ⟨rfl, ts, hts, hspells⟩ := weightedItems_sound hitems
  have hts := (Passes.cons hword (.cons hopening hts)).to_atHeight 3
  exact ⟨⟨⟨_, hts, .weighted word opening closing hspells⟩, trivial, stops_eight _⟩,
    measured_atHeight p₃ (by decide), rfl⟩

theorem generationTerm_sound (h : generationTerm p = .ok t q) :
    Reading p t q ∧ q.Measured t.height ∧ t.connective? = none := by
  obtain ⟨⟨_, word⟩, p₁, hword, h⟩ := Reads.bind_eq_ok.mp h
  obtain ⟨rfl, hword⟩ := expect_eq_ok.mp hword
  obtain ⟨⟨_, opening⟩, p₂, hopening, h⟩ := Reads.bind_eq_ok.mp h
  obtain ⟨rfl, hopening⟩ := expect_eq_ok.mp hopening
  rw [look_bind] at h
  cases hform : GenerationForm.ofKind? p₂.current.kind with
  | none =>
    rw [hform] at h
    cases h
  | some form =>
    simp only [hform] at h
    obtain ⟨name, p₃, hname, h⟩ := Reads.bind_eq_ok.mp h
    obtain rfl := (advance_eq_ok.mp hname).1
    rw [remaining_bind] at h
    obtain ⟨⟨terms, _, closing⟩, p₄, hterms, h⟩ := Reads.bind_eq_ok.mp h
    cases h
    obtain ⟨rfl, ts, hts, hspells⟩ := generationTerms_sound hterms
    have hts := (Passes.cons hword (.cons hopening (.cons hname hts))).to_atHeight 2
    exact ⟨⟨⟨_, hts, .generation word opening closing hform hspells⟩, trivial, stops_eight _⟩,
      measured_atHeight p₄ (by decide), rfl⟩

theorem group_sound (hoperand : Sound operand) (hk : p.current.kind = .symbol .opening)
    (h : group operand p = .ok t q) :
    Reading p t q ∧ q.Measured t.height ∧ t.connective? = none := by
  obtain ⟨⟨kind, opening⟩, p₁, hopening, h⟩ := Reads.bind_eq_ok.mp h
  obtain rfl : kind = .symbol .opening := by rw [← hk, ← (advance_eq_ok.mp hopening).1]
  obtain ⟨inner, p₂, hinner, h⟩ := Reads.bind_eq_ok.mp h
  obtain ⟨⟨⟨⟨ts, hts, hspells⟩, hgrouped, -⟩, -, -⟩, hmeasured, -⟩ := hoperand hinner
  rw [wrap_bind_eq_ok, hmeasured] at h
  obtain ⟨hheight, h⟩ := h
  obtain ⟨⟨_, closing⟩, p₃, hclosing, h⟩ := Reads.bind_eq_ok.mp h
  obtain ⟨rfl, hclosing⟩ := expect_eq_ok.mp hclosing
  obtain ⟨rfl, rfl⟩ := Reads.pure_eq_ok.mp h
  have hts := (hts.to_atHeight (inner.height + 1)).append (.single hclosing)
  exact ⟨⟨⟨_, .cons hopening hts, .group opening closing hspells⟩, hgrouped, stops_eight _⟩,
    ⟨height_eq_of_advance hclosing, hheight⟩, rfl⟩

theorem negation_sound (hoperand : Sound operand) (hnot : Negates p.current.kind)
    (h : negation operand p = .ok t q) :
    Reading p t q ∧ q.Measured t.height ∧ t.connective? = none := by
  obtain ⟨u, p₁, hadvance, h⟩ := Reads.bind_eq_ok.mp h
  obtain rfl := (advance_eq_ok.mp hadvance).1
  obtain ⟨inner, p₂, hinner, h⟩ := Reads.bind_eq_ok.mp h
  obtain ⟨hreading, hmeasured, -⟩ := hoperand hinner
  obtain ⟨ts, hts, hspells⟩ := hreading.spelled
  rw [wrap_bind_eq_ok, hmeasured] at h
  obtain ⟨hheight, h⟩ := h
  obtain ⟨rfl, rfl⟩ := Reads.pure_eq_ok.mp h
  refine ⟨⟨⟨_, (Passes.cons hadvance hts).to_atHeight _, .not hnot hspells⟩, ?_, ?_⟩,
    ⟨rfl, hheight⟩, rfl⟩
  · exact grouped_not_iff.mpr ⟨hreading.grouped, hreading.holds⟩
  · exact stops_min_iff.mpr ⟨hreading.stops_least, hreading.stops⟩

/-- What is read is decided by the current token. -/
theorem primary_cases (operand : ℕ → Reads Term) (p : Parser) :
    ((∃ literal, literal? p.current.kind = some literal) ∧
        primary operand p = (simpleTerm >>= fun t => pure (.simple t)) p) ∨
      (p.current.kind = .symbol .opening ∧ primary operand p = group operand p) ∨
      (Negates p.current.kind ∧ primary operand p = negation operand p) ∨
      (p.current.kind = .keyword .isabout ∧ primary operand p = weightedTerm p) ∨
      (p.current.kind = .keyword .formsof ∧ primary operand p = generationTerm p) ∨
      primary operand p = unexpected .searchTerm p := by
  rw [primary, look_bind]
  generalize p.current.kind = kind
  cases kind with
  | string value => exact .inl ⟨⟨_, rfl⟩, rfl⟩
  | identifier name => exact .inl ⟨⟨_, rfl⟩, rfl⟩
  | keyword word =>
    cases word with
    | not => exact .inr (.inr (.inl ⟨.inl rfl, rfl⟩))
    | isabout => exact .inr (.inr (.inr (.inl ⟨rfl, rfl⟩)))
    | formsof => exact .inr (.inr (.inr (.inr (.inl ⟨rfl, rfl⟩))))
    | _ => exact .inr (.inr (.inr (.inr (.inr rfl))))
  | symbol sign =>
    cases sign with
    | opening => exact .inr (.inl ⟨rfl, rfl⟩)
    | bang => exact .inr (.inr (.inl ⟨.inr rfl, rfl⟩))
    | _ => exact .inr (.inr (.inr (.inr (.inr rfl))))
  | _ => exact .inr (.inr (.inr (.inr (.inr rfl))))

theorem primary_sound (hoperand : Sound operand) (h : primary operand p = .ok t q) :
    Reading p t q ∧ q.Measured t.height ∧ t.connective? = none := by
  rcases primary_cases operand p with
    ⟨-, heq⟩ | ⟨hk, heq⟩ | ⟨hnot, heq⟩ | ⟨-, heq⟩ | ⟨-, heq⟩ | heq
  · rw [heq] at h
    obtain ⟨simple, p₁, hsimple, h⟩ := Reads.bind_eq_ok.mp h
    obtain ⟨rfl, rfl⟩ := Reads.pure_eq_ok.mp h
    obtain ⟨-, r, -, rfl⟩ := simpleTerm_eq_ok.mp hsimple
    exact ⟨⟨⟨_, passes_of_simpleTerm hsimple, .simple simple⟩, trivial, stops_eight _⟩,
      measured_atHeight r (by decide), rfl⟩
  · exact group_sound hoperand hk (heq ▸ h)
  · exact negation_sound hoperand hnot (heq ▸ h)
  · exact weightedTerm_sound (heq ▸ h)
  · exact generationTerm_sound (heq ▸ h)
  · rw [heq] at h
    cases h

/-! ### Joined terms -/

/-- A term and a right side of the connective that follows it. -/
theorem Reading.joined {lhs rhs : Term} {op : Connective} (hleft : Reading p lhs q)
    (hop : Connective.ofKind? q.current.kind = some op) {q' : Parser}
    (hadvance : advance q = .ok q.current q') (hright : OperandReading op.rightPower q' rhs r) :
    Reading p (.joined op lhs rhs (lhs.span.cover rhs.span)) r := by
  obtain ⟨ts, hts, hspellsLeft⟩ := hleft.spelled
  obtain ⟨us, hus, hspellsRight⟩ := hright.spelled
  refine ⟨⟨_, hts.append (.cons hadvance hus), .joined hop hspellsLeft hspellsRight⟩, ?_, ?_⟩
  · exact grouped_joined_iff.mpr
      ⟨hleft.grouped, hright.grouped, hleft.stops op hop, hright.holds⟩
  · exact stops_min_iff.mpr ⟨hright.stops_least, hright.stops⟩

/-- A connective and its right side are two tokens or more, so a round leaves fewer of them. -/
theorem rest_length_lt {rhs : Term} {op : Connective} {q' : Parser}
    (hop : Connective.ofKind? q.current.kind = some op) (hadvance : advance q = .ok q.current q')
    (hright : Reading q' rhs r) : r.rest.length < q.rest.length := by
  obtain ⟨us, hus, hspells⟩ := hright.spelled
  have hpos := hspells.length_pos
  have hlength := (Passes.cons hadvance hus).length_le <|
    List.forall_mem_cons.mpr ⟨Connective.ne_endOfInput_of_ofKind? hop, hspells.ne_endOfInput⟩
  rw [List.length_cons] at hlength
  omega

theorem connections_of_stops {lhs : Term} {height : ℕ} (h : Stops least q.current.kind) :
    connections operand least n lhs height q = .ok (lhs, height) q := by
  cases n with
  | zero => rfl
  | succ n =>
    rw [connections, look_bind]
    cases hop : Connective.ofKind? q.current.kind with
    | none => rfl
    | some op => exact congrFun (if_pos (h op hop)) q

theorem connections_of_le {lhs : Term} {height : ℕ} {op : Connective}
    (hop : Connective.ofKind? q.current.kind = some op) (hle : least ≤ op.leftPower) :
    connections operand least (n + 1) lhs height q = (do
      let _ ← advance
      let rhs ← operand op.rightPower
      let height ← nodeHeight (max height (← lastHeight)) q.current.span.start
      connections operand least n (.joined op lhs rhs (lhs.span.cover rhs.span)) height) q := by
  rw [connections, look_bind]
  simp only [hop]
  exact congrFun (if_neg (Nat.not_lt_of_le hle)) q

/-- The loop keeps a term that has been read correctly, and stops before a connective that it may
not take. The induction is on the rounds, of which more are left than tokens. -/
theorem connections_sound (hoperand : Sound operand) {lhs : Term} (hn : q.rest.length < n)
    (hlhs : Reading p lhs q) (hle : lhs.height ≤ maxNesting) (hholds : lhs.Holds least)
    {height : ℕ} (h : connections operand least n lhs lhs.height q = .ok (t, height) r) :
    OperandReading least p t r ∧ height = t.height ∧ t.height ≤ maxNesting := by
  induction n generalizing lhs q with
  | zero => cases hn
  | succ n ih =>
    by_cases hstops : Stops least q.current.kind
    · rw [connections_of_stops hstops] at h
      cases h
      exact ⟨⟨hlhs, hholds, hstops⟩, rfl, hle⟩
    · obtain ⟨op, hop, hpower⟩ := not_stops_iff.mp hstops
      rw [connections_of_le hop hpower] at h
      obtain ⟨u, q₁, hadvance, h⟩ := Reads.bind_eq_ok.mp h
      obtain rfl := (advance_eq_ok.mp hadvance).1
      obtain ⟨rhs, q₂, hrhs, h⟩ := Reads.bind_eq_ok.mp h
      obtain ⟨hright, hmeasured, -⟩ := hoperand hrhs
      rw [lastHeight_bind, nodeHeight_bind_eq_ok, hmeasured] at h
      have hlength := rest_length_lt hop hadvance hright.toReading
      refine ih (by omega) (Reading.joined hlhs hop hadvance hright) h.1 ?_ h.2
      intro op' hop'
      cases hop'
      exact hpower

theorem chain_sound (hoperand : Sound operand) (h : chain operand least p = .ok t q) :
    OperandReading least p t q ∧ q.Measured t.height := by
  obtain ⟨lhs, p₁, hprimary, h⟩ := Reads.bind_eq_ok.mp h
  obtain ⟨hlhs, ⟨hmeasured, hle⟩, hconnective⟩ := primary_sound hoperand hprimary
  rw [remaining_bind, lastHeight_bind, hmeasured] at h
  obtain ⟨⟨t', height⟩, p₂, hconnections, h⟩ := Reads.bind_eq_ok.mp h
  cases h
  obtain ⟨hreading, rfl, hle⟩ := connections_sound hoperand (Nat.lt_succ_self _) hlhs hle
    (holds_of_connective?_eq_none hconnective least) hconnections
  exact ⟨hreading.to_atHeight _, rfl, hle⟩

/-- **Every reading of a term is correct.** -/
theorem sound_termWithin (levels : ℕ) : Sound (termWithin levels) := by
  induction levels with
  | zero =>
    intro least p q t h
    cases h
  | succ levels ih =>
    intro least p q t h
    rw [termWithin, Reads.bind_of_ok (enter_eq p)] at h
    obtain ⟨t', p₁, hchain, h⟩ := Reads.bind_eq_ok.mp h
    rw [Reads.bind_of_ok (leave_eq p₁)] at h
    obtain ⟨rfl, rfl⟩ := Reads.pure_eq_ok.mp h
    obtain ⟨hreading, hheight, hle⟩ := chain_sound ih hchain
    exact ⟨hreading.shallower, hheight, hle⟩

end Search

end SqlPredicates
