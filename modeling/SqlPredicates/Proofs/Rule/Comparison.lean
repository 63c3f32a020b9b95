import SqlPredicates.Proofs.Comparison
import SqlPredicates.Proofs.Rule.ParserSoundness

/-!
# Comparing two readings of naming rules

The reader of expressions does the same at two places from which the tokens agree up to spelling,
and returns expressions that agree up to places.

The two texts may have different lengths, so that the loops of the readers are bounded differently.
The bounds do not matter (`Rule.operations_congr`, `Rule.arguments_congr`): each round uses up a
token, so two readings can be given a common bound, and then the loops are compared round by round.

## Main results

* `Rule.operations_congr`, `Rule.arguments_congr` — every large enough bound gives the same
* `Rule.follows_exprWithin` — the reader of expressions does the same at places that are alike
-/

namespace SqlPredicates

namespace Rule

open SqlPredicates.Parser SqlPredicates.Reads SqlPredicates.Comparison SqlPredicates.Expr

variable {operand : ℕ → Reads Expr} {least n m : ℕ} {p q : Parser}

/-! ### The bounds of the loops -/

theorem operations_congr (hoperand : Sound operand) {lhs : Expr} {height : ℕ}
    (hn : q.rest.length < n) (hm : q.rest.length < m) :
    operations operand least n lhs height q = operations operand least m lhs height q := by
  induction n generalizing m q lhs height with
  | zero => cases hn
  | succ n ih =>
    obtain ⟨m, rfl⟩ : ∃ k, m = k + 1 := ⟨m - 1, by omega⟩
    by_cases hstops : Stops least q.current.kind
    · rw [operations_of_stops hstops, operations_of_stops hstops]
    · obtain ⟨op, hop, hle⟩ := not_stops_iff.mp hstops
      rw [operations_of_le hop hle, operations_of_le hop hle]
      refine bind_congr fun t q₁ hadvance => bind_congr fun rhs q₂ hrhs => ?_
      obtain rfl := (advance_eq_ok.mp hadvance).1
      rw [lastHeight_bind, lastHeight_bind]
      refine bind_congr fun height q₃ hnode => ?_
      obtain ⟨-, hpure⟩ := nodeHeight_bind_eq_ok.mp (bind_eq_ok.mpr ⟨_, _, hnode, rfl⟩)
      obtain ⟨-, rfl⟩ := pure_eq_ok.mp hpure
      have hlength := rest_length_lt hop hadvance (hoperand hrhs).1.toReading
      exact ih (by omega) (by omega)

/-- An argument and the comma after it are two tokens or more. -/
theorem rest_length_lt_of_comma {r : Parser} {e : Expr} {t : Token} (hreading : Reading p e q)
    (hcomma : q.current.kind = .symbol .comma) (hadvance : advance q = .ok t r) :
    r.rest.length < p.rest.length := by
  obtain ⟨ts, hts, hspells⟩ := hreading.spelled
  have hpos := hspells.length_pos
  have hlength := (hts.append (.single hadvance)).length_le <| by
    refine List.forall_mem_append.mpr ⟨hspells.ne_endOfInput, ?_⟩
    rw [(advance_eq_ok.mp hadvance).1]
    simp [hcomma]
  simp only [List.length_append, List.length_cons, List.length_nil] at hlength
  omega

theorem arguments_congr (hoperand : Sound operand) (hn : p.rest.length < n)
    (hm : p.rest.length < m) : arguments operand n p = arguments operand m p := by
  induction n generalizing m p with
  | zero => cases hn
  | succ n ih =>
    obtain ⟨m, rfl⟩ : ∃ k, m = k + 1 := ⟨m - 1, by omega⟩
    refine bind_congr fun e p₁ he => ?_
    rw [lastHeight_bind, lastHeight_bind]
    refine bind_congr fun found p₂ hfound => ?_
    rcases eat?_eq_ok.mp hfound with ⟨-, t, rfl, -⟩ | ⟨-, rfl, rfl⟩
    · rfl
    · refine bind_congr fun found p₃ hfound => ?_
      rcases eat?_eq_ok.mp hfound with ⟨hcomma, t, rfl, hadvance⟩ | ⟨-, rfl, rfl⟩
      · have hlength := rest_length_lt_of_comma (hoperand he).1.toReading hcomma hadvance
        exact bind_congr_left (ih (by omega) (by omega))
      · rfl

/-! ### Readings that agree -/

/-- A kind that spells no operator is spelled in one way only. -/
theorem plain_canonicalKind {kind : Token.Kind} (hunary : UnaryOp.ofKind? kind = none)
    (hbinary : BinaryOp.ofKind? kind = none) : Plain canonicalKind kind := by
  intro other h
  rw [canonicalKind_of_none hunary hbinary] at h
  have hother : canonicalKind other = other := by
    refine canonicalKind_of_none ?_ ?_
    · rw [← unaryOp_canonicalKind, h, hunary]
    · rw [← binaryOp_canonicalKind, h, hbinary]
  rw [← hother, h]

variable {c : Comparison canonicalKind} {p' : Parser}

/-- Expressions that agree up to places. -/
def SameExpr (e e' : Expr) : Prop := e.erase = e'.erase

/-- Arguments that agree up to places and are equally high, with closing parentheses that belong
together. -/
def SameArguments (c : Comparison canonicalKind) (r r' : List Expr × Token × ℕ) : Prop :=
  eraseAll r.1 = eraseAll r'.1 ∧ c.Paired r.2.1 r'.2.1 ∧ r.2.2 = r'.2.2

theorem plain_closing : Plain canonicalKind (.symbol .closing) := plain_canonicalKind rfl rfl

theorem plain_opening : Plain canonicalKind (.symbol .opening) := plain_canonicalKind rfl rfl

theorem plain_comma : Plain canonicalKind (.symbol .comma) := plain_canonicalKind rfl rfl

/-- Reads an expression that is no binary operation and begins with a token of this kind. -/
def primaryOf (operand : ℕ → Reads Expr) (kind : Token.Kind) (span : Span) : Reads Expr :=
  match kind with
  | .integer value => leaf (.integer value span)
  | .string value => leaf (.string value span)
  | .identifier name => reference operand ⟨name, span⟩
  | .symbol .opening => parenthesised operand
  | kind =>
    match UnaryOp.ofKind? kind with
    | some op => prefixed operand op
    | none => unexpected .expression

section Follows

variable (horderly : ∀ least, (operand least).Orderly)
  (hoperand : ∀ {least p p'}, c.Alike p p' →
    c.Follows SameExpr (operand least) (operand least) p p')

theorem follows_leaf {e e' : Expr} (h : SameExpr e e') (hne : p.current.kind ≠ .endOfInput)
    (hp : c.Alike p p') : c.Follows SameExpr (leaf e) (leaf e') p p' := by
  refine (follows_advance hne hp).bind (by grind) ?_
  intro _ _ q q' _ hq
  refine (follows_setHeight 1 hq).bind (by grind) ?_
  intro _ _ r r' _ hr
  exact follows_pure h hr

include horderly hoperand

theorem follows_arguments (n : ℕ) (hp : c.Alike p p') :
    c.Follows (SameArguments c) (arguments operand n) (arguments operand n) p p' := by
  have hrest := orderly_arguments horderly
  induction n generalizing p p' with
  | zero => exact follows_unexpected _ hp
  | succ n ih =>
    refine (hoperand hp).bind (by grind) ?_
    intro e e' q q' he hq
    refine follows_lastHeight_bind hq ?_
    refine (follows_eat? plain_closing (by simp) hq).bind (by grind) ?_
    intro found found' r r' hfound hr
    cases hfound with
    | some hclosing => exact follows_pure ⟨congrArg (· :: []) he, hclosing, rfl⟩ hr
    | none =>
      refine (follows_eat? plain_comma (by simp) hr).bind (by grind) ?_
      intro found found' s s' hfound hs
      cases hfound with
      | none => exact follows_unexpected _ hs
      | some _ =>
        refine (ih hs).bind (by grind) ?_
        intro rest rest' u u' hrest hu
        refine follows_pure ⟨congrArg₂ List.cons he hrest.1, hrest.2.1, ?_⟩ hu
        exact congrArg (max q.height) hrest.2.2

theorem follows_closedArguments (hsound : Sound operand) (hp : c.Alike p p') :
    c.Follows (SameArguments c) (closedArguments operand) (closedArguments operand) p p' := by
  have hrest := orderly_arguments horderly
  refine (follows_eat? plain_closing (by simp) hp).bind (by grind) ?_
  intro found found' q q' hfound hq
  cases hfound with
  | some hclosing => exact follows_pure ⟨rfl, hclosing, rfl⟩ hq
  | none =>
    -- one bound for both readings
    let n := max q.rest.length q'.rest.length + 1
    have hleft : (remaining >>= arguments operand) q = arguments operand n q :=
      arguments_congr hsound (Nat.lt_succ_self _) (by omega)
    have hright : (remaining >>= arguments operand) q' = arguments operand n q' :=
      arguments_congr hsound (Nat.lt_succ_self _) (by omega)
    exact (follows_arguments horderly hoperand n hq).congr hleft hright

theorem follows_argumentList (hsound : Sound operand) (hp : c.Alike p p') :
    c.Follows (fun r r' => eraseAll r.1 = eraseAll r'.1) (argumentList operand)
      (argumentList operand) p p' := by
  have hrest := orderly_closedArguments horderly
  refine (follows_expect plain_opening (by simp) hp).bind (by grind) ?_
  intro opening opening' q q' hopening hq
  refine (follows_closedArguments horderly hoperand hsound hq).bind (by grind) ?_
  rintro ⟨args, closing, tallest⟩ ⟨args', closing', _⟩ r r' ⟨hargs, -, rfl⟩ hr
  refine (follows_nodeHeight tallest hopening hr).bind (by grind) ?_
  rintro height _ s s' rfl hs
  refine (follows_setHeight height hs).bind (by grind) ?_
  intro _ _ u u' _ hu
  exact follows_pure hargs hu

theorem follows_reference (hsound : Sound operand) (name : String)
    (hne : p.current.kind ≠ .endOfInput) (hp : c.Alike p p') :
    c.Follows SameExpr (reference operand ⟨name, p.current.span⟩)
      (reference operand ⟨name, p'.current.span⟩) p p' := by
  have hrest := orderly_argumentList horderly
  have hident := hp.paired
  refine (follows_advance hne hp).bind (by grind) ?_
  intro _ _ q q' _ hq
  have hiff := kind_eq_iff plain_opening hq.paired
  refine follows_look_bind ?_
  by_cases h : q.current.kind = .symbol .opening
  · rw [if_pos h, if_pos (hiff.mp h)]
    refine (follows_argumentList horderly hoperand hsound hq).bind (by grind) ?_
    intro args args' r r' hargs hr
    have hsame : SameExpr
        (.call ⟨name, p.current.span⟩ args.1 args.2 (p.current.span.cover args.2))
        (.call ⟨name, p'.current.span⟩ args'.1 args'.2 (p'.current.span.cover args'.2)) := by
      rw [SameExpr, erase, erase, hargs]
    refine (follows_wrap hident hr).bind (by grind) ?_
    intro _ _ s s' _ hs
    exact follows_pure hsame hs
  · rw [if_neg h, if_neg fun h' => h (hiff.mpr h')]
    refine (follows_setHeight 1 hq).bind (by grind) ?_
    intro _ _ r r' _ hr
    exact follows_pure rfl hr

theorem follows_parenthesised (hp : c.Alike p p') :
    c.Follows SameExpr (parenthesised operand) (parenthesised operand) p p' := by
  refine (follows_expect plain_opening (by simp) hp).bind (by grind) ?_
  intro opening opening' q q' hopening hq
  refine (hoperand hq).bind (by grind) ?_
  intro inner inner' r r' hinner hr
  refine (follows_wrap hopening hr).bind (by grind) ?_
  intro _ _ s s' _ hs
  refine (follows_expect plain_closing (by simp) hs).bind (by grind) ?_
  intro closing closing' u u' _ hu
  refine follows_pure ?_ hu
  rw [SameExpr, erase, erase, hinner]

theorem follows_prefixed {op : UnaryOp} (hne : p.current.kind ≠ .endOfInput) (hp : c.Alike p p') :
    c.Follows SameExpr (prefixed operand op) (prefixed operand op) p p' := by
  refine (follows_advance hne hp).bind (by grind) ?_
  intro t t' q q' ht hq
  refine (hoperand hq).bind (by grind) ?_
  intro inner inner' r r' hinner hr
  have hsame : SameExpr (.unary op inner (t.span.cover inner.span))
      (.unary op inner' (t'.span.cover inner'.span)) := by
    rw [SameExpr, erase, erase, hinner]
  refine (follows_wrap ht hr).bind (by grind) ?_
  intro _ _ s s' _ hs
  exact follows_pure hsame hs

omit horderly hoperand in
/-- What is read depends on the kind of the current token up to spelling. -/
theorem primaryOf_canonicalKind (kind : Token.Kind) (span : Span) :
    primaryOf operand (canonicalKind kind) span = primaryOf operand kind span := by
  cases kind with
  | symbol sign => cases sign <;> rfl
  | _ => rfl

theorem follows_primary (hsound : Sound operand) (hp : c.Alike p p') :
    c.Follows SameExpr (primary operand) (primary operand) p p' := by
  refine follows_look_bind ?_
  change c.Follows SameExpr (primaryOf operand p.current.kind p.current.span)
    (primaryOf operand p'.current.kind p'.current.span) p p'
  rw [← primaryOf_canonicalKind p.current.kind, ← primaryOf_canonicalKind p'.current.kind,
    ← c.spelling_eq hp.paired]
  have hne : canonicalKind p.current.kind ≠ .endOfInput → p.current.kind ≠ .endOfInput := by
    intro h hend
    rw [hend] at h
    exact h rfl
  cases hkind : canonicalKind p.current.kind with
  | integer value => exact follows_leaf rfl (hne (by simp [hkind])) hp
  | string value => exact follows_leaf rfl (hne (by simp [hkind])) hp
  | identifier name =>
    exact follows_reference horderly hoperand hsound name (hne (by simp [hkind])) hp
  | keyword word =>
    cases word with
    | not => exact follows_prefixed horderly hoperand (hne (by simp [hkind])) hp
    | _ => exact follows_unexpected _ hp
  | symbol sign =>
    cases sign with
    | opening => exact follows_parenthesised horderly hoperand hp
    | minus => exact follows_prefixed horderly hoperand (hne (by simp [hkind])) hp
    | bang => exact follows_prefixed horderly hoperand (hne (by simp [hkind])) hp
    | _ => exact follows_unexpected _ hp
  | _ => exact follows_unexpected _ hp

theorem follows_operations {lhs lhs' : Expr} (n height : ℕ) (hlhs : SameExpr lhs lhs')
    (hp : c.Alike p p') :
    c.Follows (EquallyHigh SameExpr) (operations operand least n lhs height)
      (operations operand least n lhs' height) p p' := by
  have hrest := orderly_operations horderly
  induction n generalizing p p' lhs lhs' height with
  | zero => exact follows_pure ⟨hlhs, rfl⟩ hp
  | succ n ih =>
    have ht := hp.paired
    have hop : BinaryOp.ofKind? p.current.kind = BinaryOp.ofKind? p'.current.kind := by
      rw [← binaryOp_canonicalKind, c.spelling_eq ht, binaryOp_canonicalKind]
    refine follows_look_bind ?_
    rw [← hop]
    cases hkind : BinaryOp.ofKind? p.current.kind with
    | none => exact follows_pure ⟨hlhs, rfl⟩ hp
    | some op =>
      dsimp only
      by_cases hless : op.leftPower < least
      · rw [if_pos hless, if_pos hless]
        exact follows_pure ⟨hlhs, rfl⟩ hp
      · rw [if_neg hless, if_neg hless]
        refine (follows_advance (ne_endOfInput_of_binary hkind) hp).bind (by grind) ?_
        intro _ _ q q' _ hq
        refine (hoperand hq).bind (by grind) ?_
        intro rhs rhs' r r' hrhs hr
        have hsame : SameExpr (.binary op lhs rhs (lhs.span.cover rhs.span))
            (.binary op lhs' rhs' (lhs'.span.cover rhs'.span)) := by
          rw [SameExpr, erase, erase, hlhs, hrhs]
        refine follows_lastHeight_bind hr ?_
        refine (follows_nodeHeight _ ht hr).bind (by grind) ?_
        rintro height _ s s' rfl hs
        exact ih height hsame hs

theorem follows_chain (hsound : Sound operand) (hp : c.Alike p p') :
    c.Follows SameExpr (chain operand least) (chain operand least) p p' := by
  have hrest := orderly_operations horderly
  refine (follows_primary horderly hoperand hsound hp).bind (by grind) ?_
  intro lhs lhs' q q' hlhs hq
  let n := max q.rest.length q'.rest.length + 1
  have hleft : (operations operand least (q.rest.length + 1) lhs q.height >>= note) q =
      (operations operand least n lhs q.height >>= note) q :=
    bind_congr_left (operations_congr hsound (Nat.lt_succ_self _) (by omega))
  have hright : (operations operand least (q'.rest.length + 1) lhs' q'.height >>= note) q' =
      (operations operand least n lhs' q.height >>= note) q' := by
    rw [hq.height_eq]
    exact bind_congr_left (operations_congr hsound (Nat.lt_succ_self _) (by omega))
  exact (follows_operations horderly hoperand n q.height hlhs hq).note.congr hleft hright

end Follows

/-- **Expressions are read alike at places that are alike.** -/
theorem follows_exprWithin (levels least : ℕ) (hp : c.Alike p p') :
    c.Follows SameExpr (exprWithin levels least) (exprWithin levels least) p p' := by
  induction levels generalizing least p p' with
  | zero => exact follows_tooDeep hp
  | succ levels ih =>
    rw [exprWithin_succ]
    refine follows_counted (fun hq => ?_) hp
    exact follows_chain (orderly_exprWithin levels) (fun h => ih _ h) (sound_exprWithin levels) hq

/-- Naming rules are read alike from the starts of two texts. -/
theorem follows_rule (hdepth : p.depth = 0) (hdepth' : p'.depth = 0) (hp : c.Alike p p') :
    c.Follows SameExpr rule rule p p' := by
  have hexpr : ∀ {q : Parser}, q.depth = 0 → expr q = exprWithin maxNesting 0 q := by
    intro q hq
    change exprWithin (maxNesting - q.depth) 0 q = _
    rw [hq, Nat.sub_zero]
  have hwhole := follows_whole (plain_canonicalKind rfl rfl) (orderly_exprWithin maxNesting 0).forward
    (fun hq => follows_exprWithin maxNesting 0 hq) hp
  exact hwhole.congr (whole_congr (hexpr hdepth)) (whole_congr (hexpr hdepth'))

end Rule

end SqlPredicates
