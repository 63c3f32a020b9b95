import SqlPredicates.Proofs.Reading
import SqlPredicates.Proofs.Rule.Spelling

/-!
# What the reader of expressions accepts

Whatever the reader returns is spelled by the tokens that it passed over, is grouped as the binding
powers ask for, and is not too high. Its height is what the parser has noted at the end.

## What stops a reading

An operand is read up to the first operator that binds less strongly than its power. Whether the
operator after it is left alone depends on more than that power: the operand may itself end with
operands, each read with a power of its own. `Expr.Reading` therefore also records that the next
token stops all of them, by `Expr.edge`, and that is what makes the expression a correct left
operand of that token's operator.

The loop over the operators is bounded by the number of tokens. Running out of rounds would return
an expression although an operator follows, so its lemma carries the bound along.

## Main definitions

* `Stops` — a token at which an operand of a given power ends
* `Expr.Reading`, `Expr.OperandReading` — what is known about a finished reading

## Main results

* `Rule.sound_exprWithin` — every reading of an expression
-/

namespace SqlPredicates

/-- An operand that is read with this power ends before a token of this kind. -/
def Stops (power : ℕ) (kind : Token.Kind) : Prop :=
  ∀ op, BinaryOp.ofKind? kind = some op → op.leftPower < power

theorem stops_min_iff {a b : ℕ} {kind : Token.Kind} :
    Stops (min a b) kind ↔ Stops a kind ∧ Stops b kind := by
  refine ⟨fun h => ⟨fun op hop => ?_, fun op hop => ?_⟩, fun h op hop => ?_⟩
  · exact Nat.lt_of_lt_of_le (h op hop) (Nat.min_le_left a b)
  · exact Nat.lt_of_lt_of_le (h op hop) (Nat.min_le_right a b)
  · exact Nat.lt_min.mpr ⟨h.1 op hop, h.2 op hop⟩

/-- No operator goes on with an expression that does not end with an operand. -/
theorem stops_thirteen (kind : Token.Kind) : Stops 13 kind :=
  fun op _ => Nat.lt_succ_of_lt op.leftPower_lt_power_neg

theorem not_stops_iff {power : ℕ} {kind : Token.Kind} :
    ¬ Stops power kind ↔ ∃ op, BinaryOp.ofKind? kind = some op ∧ power ≤ op.leftPower := by
  simp only [Stops, not_forall, Nat.not_lt, exists_prop]

namespace Expr

open SqlPredicates.Parser

/-- `e` has been read from `p` up to `q`. -/
structure Reading (p : Parser) (e : Expr) (q : Parser) : Prop where
  /-- The tokens passed over spell the expression. -/
  spelled : ∃ ts, Passes p ts q ∧ Spells ts e
  /-- Every node is grouped as it is read. -/
  grouped : e.Everywhere Grouped
  /-- No operand at the right edge goes on. -/
  stops : Stops e.edge q.current.kind

/-- `e` has been read from `p` up to `q` as an operand with the power `least`. -/
structure OperandReading (least : ℕ) (p : Parser) (e : Expr) (q : Parser) : Prop
    extends Reading p e q where
  /-- Its operator belongs into the operand. -/
  holds : e.Holds least
  /-- The operand does not go on. -/
  stops_least : Stops least q.current.kind

variable {least : ℕ} {p q : Parser} {e : Expr}

theorem OperandReading.deeper (h : OperandReading least p e q) :
    OperandReading least p.deeper e q.deeper := by
  obtain ⟨ts, hts, hspells⟩ := h.spelled
  exact ⟨⟨⟨ts, hts.deeper, hspells⟩, h.grouped, h.stops⟩, h.holds, h.stops_least⟩

theorem OperandReading.shallower (h : OperandReading least p e q) :
    OperandReading least p.shallower e q.shallower := by
  obtain ⟨ts, hts, hspells⟩ := h.spelled
  exact ⟨⟨⟨ts, hts.shallower, hspells⟩, h.grouped, h.stops⟩, h.holds, h.stops_least⟩

theorem OperandReading.from_atHeight (h : OperandReading least p e q) (height : ℕ) :
    OperandReading least (p.atHeight height) e q := by
  obtain ⟨ts, hts, hspells⟩ := h.spelled
  exact ⟨⟨⟨ts, hts.from_atHeight height, hspells⟩, h.grouped, h.stops⟩, h.holds, h.stops_least⟩

theorem OperandReading.to_atHeight (h : OperandReading least p e q) (height : ℕ) :
    OperandReading least p e (q.atHeight height) := by
  obtain ⟨ts, hts, hspells⟩ := h.spelled
  exact ⟨⟨⟨ts, hts.to_atHeight height, hspells⟩, h.grouped, h.stops⟩, h.holds, h.stops_least⟩

end Expr

namespace Rule

open SqlPredicates.Parser SqlPredicates.Expr

/-- What the reader of operands returns is a reading, and has been measured. -/
def Sound (operand : ℕ → Reads Expr) : Prop :=
  ∀ {least : ℕ} {p q : Parser} {e : Expr},
    operand least p = .ok e q → OperandReading least p e q ∧ q.Measured e.height

variable {operand : ℕ → Reads Expr} {least n : ℕ} {p q r : Parser} {e : Expr}

/-! ### Literals, names and calls -/

/-- An expression that one token spells. -/
theorem leaf_sound {literal : Expr} (h : leaf literal p = .ok e q)
    (hspells : Spells [p.current] literal) (hgrouped : literal.Everywhere Grouped)
    (hheight : literal.height = 1) (hedge : literal.edge = 13)
    (hbinary : literal.binaryOp? = none) :
    Reading p e q ∧ q.Measured e.height ∧ e.binaryOp? = none := by
  obtain ⟨t, p', hadvance, h⟩ := Reads.bind_eq_ok.mp h
  obtain rfl := (advance_eq_ok.mp hadvance).1
  rw [Reads.bind_of_ok (setHeight_eq 1 p')] at h
  obtain ⟨rfl, rfl⟩ := Reads.pure_eq_ok.mp h
  refine ⟨⟨⟨_, (Passes.single hadvance).to_atHeight 1, hspells⟩, hgrouped, ?_⟩, ?_, hbinary⟩
  · rw [hedge]
    exact stops_thirteen _
  · rw [hheight]
    exact measured_atHeight p' (by decide)

/-- The induction is on the number of arguments that may still follow. -/
theorem arguments_sound (hoperand : Sound operand) {es : List Expr} {closing : Token}
    {highest : ℕ} (h : arguments operand n p = .ok (es, closing, highest) q) :
    closing.kind = .symbol .closing ∧ es ≠ [] ∧ highest = tallest es ∧
      (∀ e ∈ es, e.Everywhere Grouped) ∧ ∃ ts, Passes p (ts ++ [closing]) q ∧ SpellArgs ts es := by
  induction n generalizing p es highest with
  | zero => cases h
  | succ n ih =>
    obtain ⟨e, p₁, he, h⟩ := Reads.bind_eq_ok.mp h
    obtain ⟨⟨⟨⟨ts, hts, hspells⟩, hgrouped, -⟩, -, -⟩, hheight, -⟩ := hoperand he
    rw [lastHeight_bind, hheight] at h
    obtain ⟨found, p₂, hfound, h⟩ := Reads.bind_eq_ok.mp h
    rcases eat?_eq_ok.mp hfound with ⟨hk, t, rfl, hadvance⟩ | ⟨-, rfl, rfl⟩
    · -- the argument is the last one
      obtain ⟨htriple, rfl⟩ := Reads.pure_eq_ok.mp h
      obtain ⟨rfl, rfl, rfl⟩ : [e] = es ∧ t = closing ∧ e.height = highest := by simpa using htriple
      obtain rfl := (advance_eq_ok.mp hadvance).1
      exact ⟨hk, by simp, (Nat.max_zero _).symm, by simpa using hgrouped, ts,
        hts.append (.single hadvance), .last hspells⟩
    · obtain ⟨found, p₃, hfound, h⟩ := Reads.bind_eq_ok.mp h
      rcases eat?_eq_ok.mp hfound with ⟨hk, t, rfl, hadvance⟩ | ⟨-, rfl, rfl⟩
      · obtain ⟨⟨es', closing', highest'⟩, p₄, hrest, h⟩ := Reads.bind_eq_ok.mp h
        obtain ⟨htriple, rfl⟩ := Reads.pure_eq_ok.mp h
        obtain ⟨rfl, rfl, rfl⟩ : e :: es' = es ∧ closing' = closing ∧
            max e.height highest' = highest := by simpa using htriple
        obtain ⟨hclosing, hne, rfl, hall, us, hus, hargs⟩ := ih hrest
        obtain rfl := (advance_eq_ok.mp hadvance).1
        obtain ⟨e', es'', rfl⟩ := List.exists_cons_of_ne_nil hne
        have hcomma : p₁.current = ⟨.symbol .comma, p₁.current.span⟩ := by rw [← hk]
        refine ⟨hclosing, by simp, rfl, List.forall_mem_cons.mpr ⟨hgrouped, hall⟩,
          ts ++ p₁.current :: us, ?_, ?_⟩
        · rw [List.append_assoc, List.cons_append]
          exact hts.append (.cons hadvance hus)
        · rw [hcomma]
          exact .more _ hspells hargs
      · cases h

theorem closedArguments_sound (hoperand : Sound operand) {es : List Expr} {closing : Token}
    {highest : ℕ} (h : closedArguments operand p = .ok (es, closing, highest) q) :
    closing.kind = .symbol .closing ∧ highest = tallest es ∧ (∀ e ∈ es, e.Everywhere Grouped) ∧
      ∃ ts, Passes p (ts ++ [closing]) q ∧ SpellArgs ts es := by
  obtain ⟨found, p₁, hfound, h⟩ := Reads.bind_eq_ok.mp h
  rcases eat?_eq_ok.mp hfound with ⟨hk, t, rfl, hadvance⟩ | ⟨-, rfl, rfl⟩
  · obtain ⟨htriple, rfl⟩ := Reads.pure_eq_ok.mp h
    obtain ⟨rfl, rfl, rfl⟩ : [] = es ∧ t = closing ∧ 0 = highest := by simpa using htriple
    obtain rfl := (advance_eq_ok.mp hadvance).1
    exact ⟨hk, rfl, by simp, [], .single hadvance, .none⟩
  · obtain ⟨hclosing, -, hspelled⟩ := arguments_sound hoperand h
    exact ⟨hclosing, hspelled⟩

theorem argumentList_sound (hoperand : Sound operand) {es : List Expr} {span : Span}
    (h : argumentList operand p = .ok (es, span) q) :
    q.Measured (tallest es + 1) ∧ (∀ e ∈ es, e.Everywhere Grouped) ∧ ∃ ts opening closing,
      Passes p (⟨.symbol .opening, opening⟩ :: (ts ++ [⟨.symbol .closing, closing⟩])) q ∧
        SpellArgs ts es ∧ span = opening.cover closing := by
  obtain ⟨⟨kind, opening⟩, p₁, hopening, h⟩ := Reads.bind_eq_ok.mp h
  obtain ⟨rfl, hopening⟩ := expect_eq_ok.mp hopening
  obtain ⟨⟨es', ⟨kind, closing⟩, highest⟩, p₂, hargs, h⟩ := Reads.bind_eq_ok.mp h
  obtain ⟨hheight, h⟩ := nodeHeight_bind_eq_ok.mp h
  rw [Reads.bind_of_ok (setHeight_eq _ p₂)] at h
  obtain ⟨hpair, rfl⟩ := Reads.pure_eq_ok.mp h
  obtain ⟨rfl, rfl⟩ := Prod.mk.inj hpair
  obtain ⟨rfl, rfl, hgrouped, ts, hts, hspells⟩ := closedArguments_sound hoperand hargs
  exact ⟨⟨rfl, hheight⟩, hgrouped, ts, opening, closing, (Passes.cons hopening hts).to_atHeight _,
    hspells, rfl⟩

theorem reference_sound (hoperand : Sound operand) {name : String} {span : Span}
    (hcurrent : p.current = ⟨.identifier name, span⟩)
    (h : reference operand ⟨name, span⟩ p = .ok e q) :
    Reading p e q ∧ q.Measured e.height ∧ e.binaryOp? = none := by
  obtain ⟨t, p₁, hadvance, h⟩ := Reads.bind_eq_ok.mp h
  obtain rfl : t = ⟨.identifier name, span⟩ := by rw [← hcurrent, (advance_eq_ok.mp hadvance).1]
  rw [look_bind] at h
  split at h
  · obtain ⟨⟨args, argsSpan⟩, p₂, hargs, h⟩ := Reads.bind_eq_ok.mp h
    obtain ⟨⟨hlist, -⟩, hgrouped, ts, opening, closing, hts, hspells, rfl⟩ :=
      argumentList_sound hoperand hargs
    rw [wrap_bind_eq_ok, hlist] at h
    obtain ⟨hheight, h⟩ := h
    obtain ⟨rfl, rfl⟩ := Reads.pure_eq_ok.mp h
    refine ⟨⟨⟨_, (Passes.cons hadvance hts).to_atHeight _, .call name span opening closing hspells⟩,
      ?_, stops_thirteen _⟩, ⟨rfl, hheight⟩, rfl⟩
    exact everywhere_iff.mpr ⟨trivial, hgrouped⟩
  · rw [Reads.bind_of_ok (setHeight_eq 1 p₁)] at h
    obtain ⟨rfl, rfl⟩ := Reads.pure_eq_ok.mp h
    refine ⟨⟨⟨_, (Passes.single hadvance).to_atHeight 1, .var name span⟩, ?_, stops_thirteen _⟩,
      measured_atHeight p₁ (by decide), rfl⟩
    exact everywhere_of_parts_eq_nil rfl trivial

/-! ### Parentheses and prefix operators -/

theorem parenthesised_sound (hoperand : Sound operand) (h : parenthesised operand p = .ok e q) :
    Reading p e q ∧ q.Measured e.height ∧ e.binaryOp? = none := by
  obtain ⟨⟨kind, opening⟩, p₁, hopening, h⟩ := Reads.bind_eq_ok.mp h
  obtain ⟨rfl, hopening⟩ := expect_eq_ok.mp hopening
  obtain ⟨inner, p₂, hinner, h⟩ := Reads.bind_eq_ok.mp h
  obtain ⟨⟨⟨⟨ts, hts, hspells⟩, hgrouped, -⟩, -, -⟩, hmeasured, -⟩ := hoperand hinner
  rw [wrap_bind_eq_ok, hmeasured] at h
  obtain ⟨hheight, h⟩ := h
  obtain ⟨⟨kind, closing⟩, p₄, hclosing, h⟩ := Reads.bind_eq_ok.mp h
  obtain ⟨rfl, hclosing⟩ := expect_eq_ok.mp hclosing
  obtain ⟨rfl, rfl⟩ := Reads.pure_eq_ok.mp h
  have hts := (hts.to_atHeight (inner.height + 1)).append (.single hclosing)
  refine ⟨⟨⟨_, .cons hopening hts, .paren opening closing hspells⟩, ?_, stops_thirteen _⟩,
    ⟨height_eq_of_advance hclosing, hheight⟩, rfl⟩
  exact everywhere_iff.mpr ⟨trivial, by simpa [parts] using hgrouped⟩

theorem prefixed_sound (hoperand : Sound operand) {op : UnaryOp}
    (hop : UnaryOp.ofKind? p.current.kind = some op) (h : prefixed operand op p = .ok e q) :
    Reading p e q ∧ q.Measured e.height ∧ e.binaryOp? = none := by
  obtain ⟨t, p₁, hadvance, h⟩ := Reads.bind_eq_ok.mp h
  obtain rfl := (advance_eq_ok.mp hadvance).1
  obtain ⟨inner, p₂, hinner, h⟩ := Reads.bind_eq_ok.mp h
  obtain ⟨hreading, hmeasured, -⟩ := hoperand hinner
  obtain ⟨ts, hts, hspells⟩ := hreading.spelled
  rw [wrap_bind_eq_ok, hmeasured] at h
  obtain ⟨hheight, h⟩ := h
  obtain ⟨rfl, rfl⟩ := Reads.pure_eq_ok.mp h
  refine ⟨⟨⟨_, (Passes.cons hadvance hts).to_atHeight _, .unary hop hspells⟩, ?_, ?_⟩,
    ⟨rfl, hheight⟩, rfl⟩
  · exact everywhere_iff.mpr
      ⟨grouped_unary_iff.mpr hreading.holds, by simpa [parts] using hreading.grouped⟩
  · exact stops_min_iff.mpr ⟨hreading.stops_least, hreading.stops⟩

/-- What is read is decided by the current token. -/
theorem primary_cases (h : primary operand p = .ok e q) :
    (∃ value, p.current = ⟨.integer value, p.current.span⟩ ∧
        leaf (.integer value p.current.span) p = .ok e q) ∨
      (∃ value, p.current = ⟨.string value, p.current.span⟩ ∧
        leaf (.string value p.current.span) p = .ok e q) ∨
      (∃ name, p.current = ⟨.identifier name, p.current.span⟩ ∧
        reference operand ⟨name, p.current.span⟩ p = .ok e q) ∨
      parenthesised operand p = .ok e q ∨
      ∃ op, UnaryOp.ofKind? p.current.kind = some op ∧ prefixed operand op p = .ok e q := by
  rw [primary, look_bind] at h
  have hcurrent : p.current = ⟨p.current.kind, p.current.span⟩ := rfl
  generalize p.current.kind = kind at h hcurrent ⊢
  cases kind with
  | integer value => exact .inl ⟨value, hcurrent, h⟩
  | string value => exact .inr (.inl ⟨value, hcurrent, h⟩)
  | identifier name => exact .inr (.inr (.inl ⟨name, hcurrent, h⟩))
  | keyword word =>
    cases word with
    | not => exact .inr (.inr (.inr (.inr ⟨.not, rfl, h⟩)))
    | _ => cases h
  | symbol sign =>
    cases sign with
    | opening => exact .inr (.inr (.inr (.inl h)))
    | bang => exact .inr (.inr (.inr (.inr ⟨.not, rfl, h⟩)))
    | minus => exact .inr (.inr (.inr (.inr ⟨.neg, rfl, h⟩)))
    | _ => cases h
  | _ => cases h

theorem primary_sound (hoperand : Sound operand) (h : primary operand p = .ok e q) :
    Reading p e q ∧ q.Measured e.height ∧ e.binaryOp? = none := by
  rcases primary_cases h with
    ⟨value, hcurrent, h⟩ | ⟨value, hcurrent, h⟩ | ⟨name, hcurrent, h⟩ | h | ⟨op, hop, h⟩
  · have hspells : Spells [p.current] (.integer value p.current.span) := hcurrent ▸ .integer value _
    exact leaf_sound h hspells (everywhere_of_parts_eq_nil rfl trivial) rfl rfl rfl
  · have hspells : Spells [p.current] (.string value p.current.span) := hcurrent ▸ .string value _
    exact leaf_sound h hspells (everywhere_of_parts_eq_nil rfl trivial) rfl rfl rfl
  · exact reference_sound hoperand hcurrent h
  · exact parenthesised_sound hoperand h
  · exact prefixed_sound hoperand hop h

/-! ### Binary operators -/

/-- An expression and a right operand of the operator that follows it. -/
theorem Reading.binary {lhs rhs : Expr} {op : BinaryOp} (hleft : Reading p lhs q)
    (hop : BinaryOp.ofKind? q.current.kind = some op) {q' : Parser}
    (hadvance : advance q = .ok q.current q') (hright : OperandReading op.rightPower q' rhs r) :
    Reading p (.binary op lhs rhs (lhs.span.cover rhs.span)) r := by
  obtain ⟨ts, hts, hspellsLeft⟩ := hleft.spelled
  obtain ⟨us, hus, hspellsRight⟩ := hright.spelled
  refine ⟨⟨_, hts.append (.cons hadvance hus), .binary hop hspellsLeft hspellsRight⟩, ?_, ?_⟩
  · refine everywhere_iff.mpr ⟨?_, by simpa [parts] using ⟨hleft.grouped, hright.grouped⟩⟩
    exact (grouped_binary_iff hleft.grouped).mpr ⟨hleft.stops op hop, hright.holds⟩
  · exact stops_min_iff.mpr ⟨hright.stops_least, hright.stops⟩

/-- An operator and its right operand are two tokens or more, so a round leaves fewer of them. -/
theorem rest_length_lt {rhs : Expr} {op : BinaryOp} {q' : Parser}
    (hop : BinaryOp.ofKind? q.current.kind = some op) (hadvance : advance q = .ok q.current q')
    (hright : Reading q' rhs r) :
    r.rest.length < q.rest.length := by
  obtain ⟨us, hus, hspells⟩ := hright.spelled
  have hpos := hspells.length_pos
  have hlength := (Passes.cons hadvance hus).length_le <|
    List.forall_mem_cons.mpr ⟨ne_endOfInput_of_binary hop, hspells.ne_endOfInput⟩
  simp only [List.length_cons] at hlength
  omega

theorem operations_of_stops {lhs : Expr} {height : ℕ} (h : Stops least q.current.kind) :
    operations operand least n lhs height q = .ok (lhs, height) q := by
  cases n with
  | zero => rfl
  | succ n =>
    rw [operations, look_bind]
    cases hop : BinaryOp.ofKind? q.current.kind with
    | none => rfl
    | some op => exact congrFun (if_pos (h op hop)) q

theorem operations_of_le {lhs : Expr} {height : ℕ} {op : BinaryOp}
    (hop : BinaryOp.ofKind? q.current.kind = some op) (hle : least ≤ op.leftPower) :
    operations operand least (n + 1) lhs height q = (do
      let _ ← advance
      let rhs ← operand op.rightPower
      let height ← nodeHeight (max height (← lastHeight)) q.current.span.start
      operations operand least n (.binary op lhs rhs (lhs.span.cover rhs.span)) height) q := by
  rw [operations, look_bind]
  simp only [hop]
  exact congrFun (if_neg (Nat.not_lt_of_le hle)) q

/-- The loop keeps an expression that has been read correctly, and stops before an operator that it
may not take. The induction is on the rounds, of which more are left than tokens. -/
theorem operations_sound (hoperand : Sound operand) {lhs : Expr} (hn : q.rest.length < n)
    (hlhs : Reading p lhs q) (hle : lhs.height ≤ maxNesting) (hholds : lhs.Holds least)
    {height : ℕ} (h : operations operand least n lhs lhs.height q = .ok (e, height) r) :
    OperandReading least p e r ∧ height = e.height ∧ e.height ≤ maxNesting := by
  induction n generalizing lhs q with
  | zero => cases hn
  | succ n ih =>
    by_cases hstops : Stops least q.current.kind
    · rw [operations_of_stops hstops] at h
      cases h
      exact ⟨⟨hlhs, hholds, hstops⟩, rfl, hle⟩
    · obtain ⟨op, hop, hpower⟩ := not_stops_iff.mp hstops
      rw [operations_of_le hop hpower] at h
      obtain ⟨t, q₁, hadvance, h⟩ := Reads.bind_eq_ok.mp h
      obtain rfl := (advance_eq_ok.mp hadvance).1
      obtain ⟨rhs, q₂, hrhs, h⟩ := Reads.bind_eq_ok.mp h
      obtain ⟨hright, hmeasured, -⟩ := hoperand hrhs
      rw [lastHeight_bind, nodeHeight_bind_eq_ok, hmeasured] at h
      have hlength := rest_length_lt hop hadvance hright.toReading
      refine ih (by omega) (Reading.binary hlhs hop hadvance hright) h.1 ?_ h.2
      intro op' hop'
      cases hop'
      exact hpower

theorem chain_sound (hoperand : Sound operand) (h : chain operand least p = .ok e q) :
    OperandReading least p e q ∧ q.Measured e.height := by
  obtain ⟨lhs, p₁, hprimary, h⟩ := Reads.bind_eq_ok.mp h
  obtain ⟨hlhs, ⟨hmeasured, hle⟩, hbinary⟩ := primary_sound hoperand hprimary
  rw [remaining_bind, lastHeight_bind, hmeasured] at h
  obtain ⟨⟨e', height⟩, p₂, hoperations, h⟩ := Reads.bind_eq_ok.mp h
  cases h
  obtain ⟨hreading, rfl, hle⟩ := operations_sound hoperand (Nat.lt_succ_self _) hlhs hle
    (holds_of_binaryOp?_eq_none hbinary least) hoperations
  exact ⟨hreading.to_atHeight _, rfl, hle⟩

/-- **Every reading of an expression is correct.** -/
theorem sound_exprWithin (levels : ℕ) : Sound (exprWithin levels) := by
  induction levels with
  | zero =>
    intro least p q e h
    cases h
  | succ levels ih =>
    intro least p q e h
    rw [exprWithin, Reads.bind_of_ok (enter_eq p)] at h
    obtain ⟨e', p₁, hchain, h⟩ := Reads.bind_eq_ok.mp h
    rw [Reads.bind_of_ok (leave_eq p₁)] at h
    obtain ⟨rfl, rfl⟩ := Reads.pure_eq_ok.mp h
    obtain ⟨hreading, hheight, hle⟩ := chain_sound ih hchain
    exact ⟨hreading.shallower, hheight, hle⟩

end Rule

end SqlPredicates
