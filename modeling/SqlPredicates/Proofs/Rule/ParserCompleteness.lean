import SqlPredicates.Proofs.Rule.Height
import SqlPredicates.Proofs.Rule.ParserSoundness

/-!
# What the reader of expressions returns

Every reading that the grammar allows is found by the reader, unless the expression is too high;
then the reader fails with that reason and with no other.

## The two limits

A reading may begin as long as levels are left, and a finished node may not be higher than
`maxNesting`. An expression uses at most as many levels as it is high: each level that is entered
belongs to a node on the way down, and a call has two nodes for one level. So `levels < e.height` is
a necessary condition for running out of levels, and as at most `maxNesting` levels are ever left,
it is also one for a finished node to be too high. All lemmas carry this one condition.

## Main definitions

* `Rule.Complete` — a reader that returns what the grammar allows
* `Rule.GoesOn` — what the loop over the operators returns

## Main results

* `Rule.complete_exprWithin` — the reader of expressions is complete
-/

namespace SqlPredicates

theorem stops_of_ofKind?_eq_none {kind : Token.Kind} (h : BinaryOp.ofKind? kind = none)
    (power : ℕ) : Stops power kind := by
  intro op hop
  rw [h] at hop
  cases hop

namespace Rule

open SqlPredicates.Parser SqlPredicates.Expr

/-- The reader of operands returns every operand and notes its height, except that it may fail on one
that is higher than `limit`. A name is not followed by an opening parenthesis, since it would be a
call then. -/
def Complete (operand : ℕ → Reads Expr) (limit : ℕ) : Prop :=
  ∀ {least : ℕ} {p q : Parser} {e : Expr}, OperandReading least p e q →
    q.current.kind ≠ .symbol .opening →
      Reads.Yields (operand least) p e (q.atHeight e.height) (limit < e.height)

variable {operand : ℕ → Reads Expr} {limit least n : ℕ} {p q r : Parser} {e : Expr}
  {ts : List Token}

/-- An operand that ends at a comma or a closing parenthesis. -/
theorem Complete.yields_before (hoperand : Complete operand limit) (hts : Passes p ts q)
    (hspells : Spells ts e) (hgrouped : e.Everywhere Grouped) {sign : Symbol}
    (hkind : q.current.kind = .symbol sign) (hsign : sign = .closing ∨ sign = .comma) :
    Reads.Yields (operand 0) p e (q.atHeight e.height) (limit < e.height) := by
  have hnone : BinaryOp.ofKind? q.current.kind = none := by
    rw [hkind]
    rcases hsign with rfl | rfl <;> rfl
  refine hoperand
    { spelled := ⟨ts, hts, hspells⟩
      grouped := hgrouped
      stops := stops_of_ofKind?_eq_none hnone _
      holds := holds_zero e
      stops_least := stops_of_ofKind?_eq_none hnone _ } ?_
  rw [hkind]
  rcases hsign with rfl | rfl <;> simp

/-! ### Calls -/

theorem arguments_complete (hoperand : Complete operand limit) {es : List Expr} {closing : Token}
    (hclosing : closing.kind = .symbol .closing) (hes : es ≠ []) (hspells : SpellArgs ts es)
    (hgrouped : ∀ e ∈ es, e.Everywhere Grouped) (hts : Passes p (ts ++ [closing]) q)
    (hn : p.rest.length < n) :
    ∃ height, Reads.Yields (arguments operand n) p (es, closing, tallest es) (q.atHeight height)
      (limit < tallest es) := by
  induction es generalizing n p ts with
  | nil => exact absurd rfl hes
  | cons e es ih =>
    obtain ⟨n, rfl⟩ : ∃ m, n = m + 1 := ⟨n - 1, by omega⟩
    cases hspells with
    | last hspells =>
      obtain ⟨p₁, hts, hend⟩ := hts.of_append
      have hkind : p₁.current.kind = .symbol .closing := by rw [hend.current_eq, hclosing]
      have hfirst := hoperand.yields_before hts hspells (hgrouped e List.mem_cons_self) hkind
        (.inl rfl)
      have htallest : tallest [e] = e.height := Nat.max_zero _
      refine ⟨e.height, ?_⟩
      rw [htallest]
      refine hfirst.bind ?_
      rw [Reads.Yields, lastHeight_bind]
      exact Reads.Yields.bind_of_ok (eat?_of_advance (hend.advance_eq e.height) hclosing) (.inl rfl)
    | @more us vs _ e' es comma hspells hs =>
      rw [List.append_assoc, List.cons_append] at hts
      obtain ⟨p₁, hus, hrest⟩ := hts.of_append
      have hkind : p₁.current.kind = .symbol .comma := by rw [hrest.current_eq]
      obtain ⟨p₂, hadvance, hvs⟩ := hrest.of_cons
      have hfirst := hoperand.yields_before hus hspells (hgrouped e List.mem_cons_self) hkind
        (.inr rfl)
      have hlength : p₂.rest.length < n := by
        -- an argument and a comma have been passed over
        have hpos := hspells.length_pos
        have hlength := (hus.append (.single hadvance)).length_le <|
          List.forall_mem_append.mpr ⟨hspells.ne_endOfInput, by simp⟩
        simp only [List.length_append, List.length_cons, List.length_nil] at hlength
        omega
      have hadvance := advance_atHeight hadvance e.height
      obtain ⟨height, hothers⟩ := ih (by simp) hs
        (fun e he => hgrouped e (List.mem_cons_of_mem _ he)) (hvs.from_atHeight e.height) hlength
      refine ⟨height, (hfirst.mono fun h => ?_).bind ?_⟩
      · exact Nat.lt_of_lt_of_le h (Nat.le_max_left _ _)
      · rw [Reads.Yields, lastHeight_bind]
        refine Reads.Yields.bind_of_ok (eat?_of_ne ?_) ?_
        · rw [current_atHeight, hkind]
          simp
        refine .bind_of_ok (eat?_of_advance hadvance rfl) ((hothers.mono fun h => ?_).bind (.inl rfl))
        exact Nat.lt_of_lt_of_le h (Nat.le_max_right _ _)

theorem closedArguments_complete (hoperand : Complete operand limit) {es : List Expr}
    {closing : Token} (hclosing : closing.kind = .symbol .closing) (hspells : SpellArgs ts es)
    (hgrouped : ∀ e ∈ es, e.Everywhere Grouped) (hts : Passes p (ts ++ [closing]) q) :
    ∃ height, Reads.Yields (closedArguments operand) p (es, closing, tallest es)
      (q.atHeight height) (limit < tallest es) := by
  cases es with
  | nil =>
    cases hspells
    exact ⟨p.height, .bind_of_ok (eat?_of_advance (hts.advance_eq p.height) hclosing) (.inl rfl)⟩
  | cons e es =>
    -- the first token begins an argument, so it does not close the list
    obtain ⟨t, us, rfl, hbegins⟩ := hspells.exists_cons
    have hkind : p.current.kind ≠ .symbol .closing := by
      rw [hts.current_eq]
      intro h
      rw [h] at hbegins
      rcases hbegins with ⟨_, h⟩ | ⟨_, h⟩ | ⟨_, h⟩ | h | ⟨_, h⟩ <;> cases h
    obtain ⟨height, hargs⟩ :=
      arguments_complete hoperand hclosing (by simp) hspells hgrouped hts (Nat.lt_succ_self _)
    exact ⟨height, .bind_of_ok (eat?_of_ne hkind) hargs⟩

theorem argumentList_complete (hoperand : Complete operand limit) (hlimit : limit < maxNesting)
    {es : List Expr} {opening closing : Span} (hspells : SpellArgs ts es)
    (hgrouped : ∀ e ∈ es, e.Everywhere Grouped)
    (hts : Passes p (⟨.symbol .opening, opening⟩ :: (ts ++ [⟨.symbol .closing, closing⟩])) q) :
    Reads.Yields (argumentList operand) p (es, opening.cover closing)
      (q.atHeight (tallest es + 1)) (limit < tallest es) := by
  obtain ⟨p₁, hadvance, hts⟩ := hts.of_cons
  obtain ⟨height, hargs⟩ := closedArguments_complete hoperand rfl hspells hgrouped hts
  refine .bind_of_ok (expect_eq_ok.mpr ⟨rfl, hadvance⟩) (hargs.bind ?_)
  exact Reads.Yields.bind ((yields_nodeHeight _).mono (by omega)) (.inl rfl)

/-! ### Expressions that are no binary operations -/

theorem leaf_complete {t : Token} (hts : Passes p [t] q) (e : Expr) (tall : Prop) :
    Reads.Yields (leaf e) p e (q.atHeight 1) tall := by
  exact .bind_of_ok (hts.advance_eq p.height) (.inl rfl)

theorem primary_of_ofKind? {op : UnaryOp} (hop : UnaryOp.ofKind? p.current.kind = some op) :
    primary operand p = prefixed operand op p := by
  rw [primary, look_bind]
  generalize p.current.kind = kind at hop ⊢
  cases kind with
  | keyword word =>
    cases word with
    | not =>
      cases hop
      rfl
    | _ => cases hop
  | symbol sign =>
    cases sign with
    | bang | minus =>
      cases hop
      rfl
    | _ => cases hop
  | _ => cases hop

theorem primary_complete (hoperand : Complete operand limit) (hlimit : limit < maxNesting)
    (hreading : Reading p e q) (hopening : q.current.kind ≠ .symbol .opening)
    (hbinary : e.binaryOp? = none) :
    Reads.Yields (primary operand) p e (q.atHeight e.height) (limit + 1 < e.height) := by
  obtain ⟨⟨ts, hts, hspells⟩, hgrouped, hstops⟩ := hreading
  have hparts := (everywhere_iff.mp hgrouped).2
  cases hspells with
  | integer value span =>
    rw [Reads.Yields, primary, look_bind, hts.current_eq]
    exact leaf_complete hts _ _
  | string value span =>
    rw [Reads.Yields, primary, look_bind, hts.current_eq]
    exact leaf_complete hts _ _
  | var name span =>
    rw [Reads.Yields, primary, look_bind, hts.current_eq]
    refine Reads.Yields.bind_of_ok (hts.advance_eq p.height) ?_
    rw [Reads.Yields, look_bind, current_atHeight, if_neg hopening]
    exact .inl rfl
  | call name span opening closing hargs =>
    rw [Reads.Yields, primary, look_bind, hts.current_eq]
    obtain ⟨p₁, hadvance, hlist⟩ := hts.of_cons
    refine Reads.Yields.bind_of_ok hadvance ?_
    rw [Reads.Yields, look_bind, if_pos (by rw [hlist.current_eq])]
    refine ((argumentList_complete hoperand hlimit hargs hparts hlist).mono ?_).bind ?_
    · intro h
      rw [Expr.height]
      omega
    · exact Reads.Yields.bind ((yields_wrap _).mono (Nat.lt_of_le_of_lt hlimit)) (.inl rfl)
  | paren opening closing hinner =>
    rw [Reads.Yields, primary, look_bind, hts.current_eq]
    obtain ⟨p₁, hadvance, hrest⟩ := hts.of_cons
    obtain ⟨p₂, hus, hend⟩ := hrest.of_append
    have hkind : p₂.current.kind = .symbol .closing := by rw [hend.current_eq]
    refine Reads.Yields.bind_of_ok (expect_eq_ok.mpr ⟨rfl, hadvance⟩) ?_
    have hoperand := hoperand.yields_before hus hinner (hparts _ (List.mem_singleton_self _)) hkind
      (.inl rfl)
    refine (hoperand.mono fun h => ?_).bind ?_
    · rw [Expr.height]
      omega
    · refine Reads.Yields.bind ((yields_wrap _).mono (Nat.lt_of_le_of_lt hlimit)) ?_
      exact .bind_of_ok (expect_eq_ok.mpr ⟨rfl, hend.advance_eq _⟩) (.inl rfl)
  | @unary t op us inner hop hinner =>
    obtain ⟨p₁, hadvance, hus⟩ := hts.of_cons
    rw [Reads.Yields, primary_of_ofKind? (by rw [hts.current_eq, hop])]
    refine Reads.Yields.bind_of_ok hadvance ?_
    have hstops := stops_min_iff.mp hstops
    have hinner : OperandReading op.power p₁ inner q :=
      { spelled := ⟨us, hus, hinner⟩
        grouped := hparts _ (List.mem_singleton_self _)
        stops := hstops.2
        holds := grouped_unary_iff.mp (everywhere_iff.mp hgrouped).1
        stops_least := hstops.1 }
    refine ((hoperand hinner hopening).mono ?_).bind ?_
    · rw [Expr.height]
      omega
    · exact Reads.Yields.bind ((yields_wrap _).mono (Nat.lt_of_le_of_lt hlimit)) (.inl rfl)
  | binary => cases hbinary

/-! ### Binary operations -/

/-- A binary operation has been read in two parts, of which the first ends at its operator. -/
theorem Reading.exists_of_binary {op : BinaryOp} {lhs rhs : Expr} {span : Span}
    (h : Reading p (.binary op lhs rhs span) r) :
    span = lhs.span.cover rhs.span ∧ ∃ q q', Reading p lhs q ∧
      BinaryOp.ofKind? q.current.kind = some op ∧ advance q = .ok q.current q' ∧
      OperandReading op.rightPower q' rhs r := by
  obtain ⟨⟨ts, hts, hspells⟩, hgrouped, hstops⟩ := h
  obtain ⟨hnode, hparts⟩ := everywhere_iff.mp hgrouped
  have hlhs := hparts lhs (by simp [parts])
  obtain ⟨hedge, hholds⟩ := (grouped_binary_iff hlhs).mp hnode
  obtain ⟨hleast, hrest⟩ := stops_min_iff.mp hstops
  cases hspells with
  | @binary t _ us vs _ _ hop hl hr =>
    obtain ⟨q, hus, hright⟩ := hts.of_append
    have hcurrent := hright.current_eq
    obtain ⟨q', hadvance, hvs⟩ := hright.of_cons
    rw [← hcurrent] at hop hadvance
    refine ⟨rfl, q, q', ⟨⟨us, hus, hl⟩, hlhs, fun op' hop' => ?_⟩, hop, hadvance,
      ⟨⟨vs, hvs, hr⟩, hparts rhs (by simp [parts]), hrest⟩, hholds, hleast⟩
    rw [hop] at hop'
    cases hop'
    exact hedge

/-- The left operand of an operation that belongs into an operand does so as well. -/
theorem holds_left {op : BinaryOp} {lhs rhs : Expr} {span : Span}
    (hgrouped : (Expr.binary op lhs rhs span).Grouped) (hle : least ≤ op.leftPower) :
    lhs.Holds least := by
  intro op' hop'
  have hlevel := (BinaryOp.leftPower_lt_rightPower_iff op op').mpr (hgrouped.1 op' hop')
  exact Nat.le_trans hle (Nat.le_of_lt_succ hlevel)

/-- The loop over the operators goes from `e` at `q` on to `b` at `s`, whatever is noted at `q`. -/
def GoesOn (operand : ℕ → Reads Expr) (least n : ℕ) (e : Expr) (q : Parser) (b : Expr) (s : Parser)
    (tall : Prop) : Prop :=
  ∀ noted, ∃ noted', Reads.Yields (operations operand least n e e.height) (q.atHeight noted)
    (b, b.height) (s.atHeight noted') tall

theorem goesOn_of_stops (h : Stops least q.current.kind) (tall : Prop) :
    GoesOn operand least n e q e q tall :=
  fun noted => ⟨noted, .inl (operations_of_stops h)⟩

/-- The loop takes an operator and its right operand. -/
theorem goesOn_of_operator (hoperand : Complete operand limit) (hlimit : limit < maxNesting)
    {lhs rhs : Expr} {op : BinaryOp} (hop : BinaryOp.ofKind? q.current.kind = some op)
    (hle : least ≤ op.leftPower) {q' : Parser} (hadvance : advance q = .ok q.current q')
    (hrhs : OperandReading op.rightPower q' rhs r) (hopening : r.current.kind ≠ .symbol .opening)
    {b : Expr} {s : Parser} {tall : Prop}
    (htall : limit + 1 < (Expr.binary op lhs rhs (lhs.span.cover rhs.span)).height → tall)
    (hrest : GoesOn operand least n (.binary op lhs rhs (lhs.span.cover rhs.span)) r b s tall) :
    GoesOn operand least (n + 1) lhs q b s tall := by
  intro noted
  obtain ⟨noted', hrest⟩ := hrest rhs.height
  refine ⟨noted', ?_⟩
  rw [Reads.Yields, operations_of_le (q := q.atHeight noted) hop hle]
  refine Reads.Yields.bind_of_ok (advance_atHeight hadvance noted) ?_
  refine ((hoperand (hrhs.from_atHeight noted) hopening).mono ?_).bind ?_
  · intro h
    refine htall ?_
    rw [Expr.height]
    omega
  · rw [Reads.Yields, lastHeight_bind]
    exact Reads.Yields.bind
      ((yields_nodeHeight _).mono fun h => htall (Nat.lt_of_le_of_lt hlimit h)) hrest

/-- An expression is read by reading its leftmost part and then its operators, one after the other.
So reading it and going on is the same as having it as the left operand. The induction goes to the
left operand. -/
theorem chain_of_goesOn (hoperand : Complete operand limit) (hlimit : limit < maxNesting)
    (hreading : Reading p e q) (hholds : e.Holds least)
    (hopening : q.current.kind ≠ .symbol .opening)
    {b : Expr} {s : Parser} {tall : Prop} (htall : limit + 1 < e.height → tall)
    (hrest : ∀ n, q.rest.length < n → GoesOn operand least n e q b s tall) :
    Reads.Yields (chain operand least) p b (s.atHeight b.height) tall := by
  induction e using induction_on_parts generalizing q with
  | _ e ih =>
    by_cases hbinary : e.binaryOp? = none
    · obtain ⟨noted, hoperations⟩ := hrest _ (Nat.lt_succ_self _) e.height
      refine ((primary_complete hoperand hlimit hreading hopening hbinary).mono htall).bind ?_
      rw [Reads.Yields, remaining_bind, lastHeight_bind]
      exact Reads.Yields.bind hoperations (.inl rfl)
    · cases e with
      | binary op lhs rhs span =>
        obtain ⟨rfl, q₁, q₂, hlhs, hop, hadvance, hrhs⟩ := Reading.exists_of_binary hreading
        have hle := hholds op rfl
        refine ih lhs (by simp [parts]) hlhs ?_ ?_ (fun h => htall ?_) fun n hn => ?_
        · exact holds_left (everywhere_iff.mp hreading.grouped).1 hle
        · intro h
          rw [h] at hop
          cases hop
        · rw [Expr.height]
          omega
        · obtain ⟨n, rfl⟩ : ∃ m, n = m + 1 := ⟨n - 1, by omega⟩
          have hlength := rest_length_lt hop hadvance hrhs.toReading
          exact goesOn_of_operator hoperand hlimit hop hle hadvance hrhs hopening htall
            (hrest n (by omega))
      | _ => exact absurd rfl hbinary

/-- **Every operand is returned, unless it is higher than levels are left.** -/
theorem complete_exprWithin {levels : ℕ} (hlevels : levels ≤ maxNesting) :
    Complete (exprWithin levels) levels := by
  induction levels with
  | zero =>
    intro least p q e _ _
    exact .inr ⟨e.height_pos, p.current.span.start, p.deeper, rfl⟩
  | succ levels ih =>
    intro least p q e hreading hopening
    have hoperand : Complete (exprWithin levels) levels := ih (Nat.le_of_succ_le hlevels)
    refine .bind_of_ok (enter_eq p) (Reads.Yields.bind (q := q.deeper.atHeight e.height) ?_ (.inl rfl))
    have hdeeper := hreading.deeper
    exact chain_of_goesOn hoperand hlevels hdeeper.toReading hdeeper.holds hopening id
      fun n _ => goesOn_of_stops hdeeper.stops_least _

end Rule

end SqlPredicates
