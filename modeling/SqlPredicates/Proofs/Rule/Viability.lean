import SqlPredicates.Proofs.Refusal
import SqlPredicates.Proofs.Rule.Comparison

/-!
# Refused naming rules begin like accepted ones

When the reader of expressions gives up at a token, the tokens before it can be completed to an
expression that is grouped as it is read. What is missing is an operand, for which a name can be put,
and the parentheses that are still open. So the reader never goes on after the first token that
cannot belong to a rule.

The height of the expression is not bounded, since the reading may have used up all its levels.

## Main definitions

* `Rule.IsOperand`, `Rule.IsPrimary`, `Rule.AreArguments` — what tokens are completed to

## Main results

* `Rule.viable_exprWithin` — where the reader of expressions gives up
* `Rule.refused_of_parseRule` — the same for texts
-/

namespace SqlPredicates

namespace Rule

open SqlPredicates.Parser SqlPredicates.Reads SqlPredicates.Expr

/-- The tokens spell an expression that is read with the power `least`. -/
def IsOperand (least : ℕ) (ts : List Token) : Prop :=
  ∃ e : Expr, Spells ts e ∧ e.Everywhere Grouped ∧ e.Holds least

/-- The tokens spell an expression that is no binary operation. -/
def IsPrimary (ts : List Token) : Prop :=
  ∃ e : Expr, Spells ts e ∧ e.Everywhere Grouped ∧ e.binaryOp? = none

/-- The tokens spell the arguments of a call, of which there is at least one. -/
def AreArguments (ts : List Token) : Prop :=
  ∃ (e : Expr) (es : List Expr), SpellArgs ts (e :: es) ∧ ∀ e' ∈ e :: es, e'.Everywhere Grouped

/-- Where the reader of operands gives up, it has read what can be completed to an operand. -/
def Viable (operand : ℕ → Reads Expr) : Prop :=
  ∀ {least : ℕ} {p q : Parser} {err : SyntaxError}, Foreign err p →
    operand least p = .error err q → Refused (IsOperand least) err p q

variable {operand : ℕ → Reads Expr} {least n : ℕ} {p q r : Parser} {err : SyntaxError}
  {ts us : List Token}

/-! ### What is completed -/

theorem isPrimary_name {name : Token} {text : String} (h : name.kind = .identifier text) :
    IsPrimary [name] := by
  obtain ⟨kind, span⟩ := name
  subst h
  exact ⟨_, .var text span, everywhere_of_parts_eq_nil rfl trivial, rfl⟩

/-- Nothing is completed to a name. -/
theorem completable_primary : Completable IsPrimary [] := .of_word (isPrimary_name rfl)

theorem isOperand_of_isPrimary (h : IsPrimary ts) : IsOperand least ts := by
  obtain ⟨e, hspells, hgrouped, hbinary⟩ := h
  exact ⟨e, hspells, hgrouped, holds_of_binaryOp?_eq_none hbinary least⟩

theorem areArguments_of_isOperand (h : IsOperand least ts) : AreArguments ts := by
  obtain ⟨e, hspells, hgrouped, -⟩ := h
  exact ⟨e, [], .last hspells, by simpa using hgrouped⟩

/-- Arguments go on after an argument and a comma. -/
theorem areArguments_append {e : Expr} {comma : Token} (hcomma : comma.kind = .symbol .comma)
    (hspells : Spells ts e) (hgrouped : e.Everywhere Grouped) (h : AreArguments us) :
    AreArguments (ts ++ comma :: us) := by
  obtain ⟨e', es, hargs, hall⟩ := h
  obtain ⟨kind, span⟩ := comma
  subst hcomma
  exact ⟨e, e' :: es, .more span hspells hargs, List.forall_mem_cons.mpr ⟨hgrouped, hall⟩⟩

theorem isPrimary_call {name opening : Token} {text : String}
    (hname : name.kind = .identifier text) (hopening : opening.kind = .symbol .opening)
    (h : AreArguments ts) : IsPrimary (name :: opening :: (ts ++ [added (.symbol .closing)])) := by
  obtain ⟨e, es, hargs, hall⟩ := h
  obtain ⟨kind, span⟩ := name
  subst hname
  obtain ⟨kind, span'⟩ := opening
  subst hopening
  exact ⟨_, .call text span span' _ hargs, everywhere_iff.mpr ⟨trivial, hall⟩, rfl⟩

theorem isPrimary_paren {opening : Token} (hopening : opening.kind = .symbol .opening)
    (h : IsOperand 0 ts) : IsPrimary (opening :: (ts ++ [added (.symbol .closing)])) := by
  obtain ⟨e, hspells, hgrouped, -⟩ := h
  obtain ⟨kind, span⟩ := opening
  subst hopening
  exact ⟨_, .paren span _ hspells,
    everywhere_iff.mpr ⟨trivial, by simpa [parts] using hgrouped⟩, rfl⟩

theorem isPrimary_prefixed {t : Token} {op : UnaryOp} (hop : UnaryOp.ofKind? t.kind = some op)
    (h : IsOperand op.power ts) : IsPrimary (t :: ts) := by
  obtain ⟨e, hspells, hgrouped, hholds⟩ := h
  exact ⟨_, .unary hop hspells,
    everywhere_iff.mpr ⟨grouped_unary_iff.mpr hholds, by simpa [parts] using hgrouped⟩, rfl⟩

/-- An operator after an expression that leaves it alone, and its right operand. -/
theorem isOperand_binary {lhs : Expr} {t : Token} {op : BinaryOp} (hspells : Spells ts lhs)
    (hgrouped : lhs.Everywhere Grouped) (hop : BinaryOp.ofKind? t.kind = some op)
    (hedge : op.leftPower < lhs.edge) (hle : least ≤ op.leftPower)
    (h : IsOperand op.rightPower us) : IsOperand least (ts ++ t :: us) := by
  obtain ⟨rhs, hright, hgroupedRight, hholds⟩ := h
  refine ⟨.binary op lhs rhs (lhs.span.cover rhs.span), .binary hop hspells hright, ?_, ?_⟩
  · refine everywhere_iff.mpr ⟨?_, by simpa [parts] using ⟨hgrouped, hgroupedRight⟩⟩
    exact (grouped_binary_iff hgrouped).mpr ⟨hedge, hholds⟩
  · intro op' hop'
    cases hop'
    exact hle

/-! ### Calls -/

/-- The induction is on the rounds, of which more are left than tokens. -/
theorem arguments_refused (hviable : Viable operand) (hsound : Sound operand)
    (hn : p.rest.length < n) (he : Foreign err p) (h : arguments operand n p = .error err r) :
    Refused AreArguments err p r := by
  induction n generalizing p with
  | zero => cases hn
  | succ n ih =>
    rcases bind_eq_error.mp h with h | ⟨e, p₁, hoperand, h⟩
    · exact (hviable he h).mono fun _ => areArguments_of_isOperand
    have hreading := (hsound hoperand).1.toReading
    obtain ⟨ts, hts, hspells⟩ := hreading.spelled
    rw [lastHeight_bind] at h
    have he₁ := he.of_passes hts
    rcases bind_eq_error.mp h with h | ⟨found, p₂, hfound, h⟩
    · exact absurd h he₁.eat?_ne
    rcases eat?_eq_ok.mp hfound with ⟨-, t, rfl, -⟩ | ⟨-, rfl, rfl⟩
    · cases h
    rcases bind_eq_error.mp h with h | ⟨found, p₃, hfound, h⟩
    · exact absurd h he₁.eat?_ne
    rcases eat?_eq_ok.mp hfound with ⟨hcomma, t, rfl, hadvance⟩ | ⟨-, rfl, rfl⟩
    · have hlength := rest_length_lt_of_comma hreading hcomma hadvance
      obtain rfl := (advance_eq_ok.mp hadvance).1
      rcases bind_eq_error.mp h with h | ⟨rest, p₄, -, h⟩
      · have hrefused := ih (by omega) (he₁.of_advance hadvance) h
        refine hrefused.after (hts.append (.single hadvance)) fun us hus => ?_
        rw [List.append_assoc]
        exact areArguments_append hcomma hspells hreading.grouped hus
      · cases h
    · -- the argument is complete, and neither a comma nor a parenthesis follows
      have hargs : AreArguments ts := ⟨e, [], .last hspells, by simpa using hreading.grouped⟩
      exact .of_unexpected hts h (.of_self hargs)

theorem closedArguments_refused (hviable : Viable operand) (hsound : Sound operand)
    (he : Foreign err p) (h : closedArguments operand p = .error err r) :
    Refused AreArguments err p r := by
  rcases bind_eq_error.mp h with h | ⟨found, p₁, hfound, h⟩
  · exact absurd h he.eat?_ne
  rcases eat?_eq_ok.mp hfound with ⟨-, t, rfl, -⟩ | ⟨-, rfl, rfl⟩
  · cases h
  · exact arguments_refused hviable hsound (Nat.lt_succ_self _) he h

/-- A list of arguments after a name. -/
theorem argumentList_refused (hviable : Viable operand) (hsound : Sound operand)
    (he : Foreign err p) {name : Token} {text : String} (hname : name.kind = .identifier text)
    (h : argumentList operand p = .error err r) :
    Refused (fun ts => IsPrimary (name :: ts)) err p r := by
  rcases bind_eq_error.mp h with h | ⟨opening, p₁, hfirst, h⟩
  · exact of_expect_eq_error he (.refl p) h (.of_self (isPrimary_name hname))
  obtain ⟨hkind, hadvance⟩ := expect_eq_ok.mp hfirst
  rcases bind_eq_error.mp h with h | ⟨args, p₂, -, h⟩
  · have hrefused := closedArguments_refused hviable hsound (he.of_advance hadvance) h
    exact hrefused.enclosed (.single hadvance) fun _ => isPrimary_call hname hkind
  · cases of_nodeHeight_eq_error he.atToken h

theorem reference_refused (hviable : Viable operand) (hsound : Sound operand) (he : Foreign err p)
    {ident : Ident} {text : String} (hname : p.current.kind = .identifier text)
    (h : reference operand ident p = .error err r) : Refused IsPrimary err p r := by
  obtain ⟨q, hadvance, hq, h⟩ := he.of_advance_bind h
  rw [look_bind] at h
  split at h
  · rcases bind_eq_error.mp h with h | ⟨args, p₁, -, h⟩
    · exact (argumentList_refused hviable hsound hq hname h).after (.single hadvance) fun _ => id
    · cases of_wrap_eq_error he.atToken h
  · cases h

/-! ### Parentheses and operators -/

theorem parenthesised_refused (hviable : Viable operand) (hsound : Sound operand)
    (he : Foreign err p) (h : parenthesised operand p = .error err r) :
    Refused IsPrimary err p r := by
  rcases bind_eq_error.mp h with h | ⟨opening, p₁, hfirst, h⟩
  · exact of_expect_eq_error he (.refl p) h completable_primary
  obtain ⟨hkind, hadvance⟩ := expect_eq_ok.mp hfirst
  have he₁ := he.of_advance hadvance
  rcases bind_eq_error.mp h with h | ⟨inner, p₂, hinner, h⟩
  · exact (hviable he₁ h).enclosed (.single hadvance) fun _ => isPrimary_paren hkind
  have hreading := (hsound hinner).1
  obtain ⟨ts, hts, hspells⟩ := hreading.spelled
  have hts := hts.to_atHeight (p₂.height + 1)
  rcases bind_eq_error.mp (of_wrap_eq_error he.atToken h) with h | ⟨closing, p₃, -, h⟩
  · -- the expression is complete, and the parenthesis is missing
    have hparen := isPrimary_paren hkind ⟨inner, hspells, hreading.grouped, hreading.holds⟩
    exact of_expect_eq_error (he₁.of_passes hts) (.cons hadvance hts) h (.of_closing hparen)
  · cases h

theorem prefixed_refused (hviable : Viable operand) (he : Foreign err p) {op : UnaryOp}
    (hop : UnaryOp.ofKind? p.current.kind = some op) (h : prefixed operand op p = .error err r) :
    Refused IsPrimary err p r := by
  obtain ⟨q, hadvance, hq, h⟩ := he.of_advance_bind h
  rcases bind_eq_error.mp h with h | ⟨inner, p₁, -, h⟩
  · exact (hviable hq h).after (.single hadvance) fun _ => isPrimary_prefixed hop
  · cases of_wrap_eq_error he.atToken h

theorem leaf_ne (he : Foreign err p) {e : Expr} : leaf e p ≠ .error err r := by
  intro h
  obtain ⟨q, -, -, h⟩ := he.of_advance_bind h
  cases h

theorem primary_refused (hviable : Viable operand) (hsound : Sound operand) (he : Foreign err p)
    (h : primary operand p = .error err r) : Refused IsPrimary err p r := by
  change primaryOf operand p.current.kind p.current.span p = .error err r at h
  cases hkind : p.current.kind with
  | integer value =>
    rw [hkind] at h
    exact absurd h (leaf_ne he)
  | string value =>
    rw [hkind] at h
    exact absurd h (leaf_ne he)
  | identifier name =>
    rw [hkind] at h
    exact reference_refused hviable hsound he hkind h
  | symbol sign =>
    rw [hkind] at h
    cases sign with
    | opening => exact parenthesised_refused hviable hsound he h
    | minus => exact prefixed_refused hviable he (by rw [hkind]; rfl) h
    | bang => exact prefixed_refused hviable he (by rw [hkind]; rfl) h
    | _ => exact .of_unexpected (.refl p) h completable_primary
  | keyword word =>
    rw [hkind] at h
    cases word with
    | not => exact prefixed_refused hviable he (by rw [hkind]; rfl) h
    | _ => exact .of_unexpected (.refl p) h completable_primary
  | _ =>
    rw [hkind] at h
    exact .of_unexpected (.refl p) h completable_primary

/-- The expression read so far is the left operand of whatever completes the tokens. The induction
is on the rounds, of which more are left than tokens. -/
theorem operations_refused (hviable : Viable operand) (hsound : Sound operand) {lhs : Expr}
    {height : ℕ} (hn : q.rest.length < n) (hlhs : Reading p lhs q) (he : Foreign err q)
    (h : operations operand least n lhs height q = .error err r) :
    Refused (IsOperand least) err p r := by
  induction n generalizing lhs height q with
  | zero => cases hn
  | succ n ih =>
    by_cases hstops : Stops least q.current.kind
    · rw [operations_of_stops hstops] at h
      cases h
    obtain ⟨op, hop, hle⟩ := not_stops_iff.mp hstops
    rw [operations_of_le hop hle] at h
    obtain ⟨q₁, hadvance, he₁, h⟩ := he.of_advance_bind h
    rcases bind_eq_error.mp h with h | ⟨rhs, q₂, hrhs, h⟩
    · obtain ⟨ts, hts, hspells⟩ := hlhs.spelled
      refine (hviable he₁ h).after (hts.append (.single hadvance)) fun us hus => ?_
      rw [List.append_assoc]
      exact isOperand_binary hspells hlhs.grouped hop (hlhs.stops op hop) hle hus
    · have hright := (hsound hrhs).1
      have hlength := rest_length_lt hop hadvance hright.toReading
      obtain ⟨us, hus, -⟩ := hright.spelled
      rw [lastHeight_bind] at h
      exact ih (by omega) (Reading.binary hlhs hop hadvance hright) (he₁.of_passes hus)
        (of_nodeHeight_eq_error he.atToken h)

theorem chain_refused (hviable : Viable operand) (hsound : Sound operand) (he : Foreign err p)
    (h : chain operand least p = .error err r) : Refused (IsOperand least) err p r := by
  rcases bind_eq_error.mp h with h | ⟨lhs, q, hprimary, h⟩
  · exact (primary_refused hviable hsound he h).mono fun _ => isOperand_of_isPrimary
  · rw [remaining_bind, lastHeight_bind] at h
    have hlhs := (primary_sound hsound hprimary).1
    obtain ⟨ts, hts, -⟩ := hlhs.spelled
    rcases bind_eq_error.mp h with h | ⟨measured, q', -, h⟩
    · exact operations_refused hviable hsound (Nat.lt_succ_self _) hlhs (he.of_passes hts) h
    · cases h

/-- **Where the reader of expressions gives up, it has read what can be completed.** -/
theorem viable_exprWithin (levels : ℕ) : Viable (exprWithin levels) := by
  induction levels with
  | zero =>
    intro least p q err he h
    cases h
    exact he.atToken.elim
  | succ levels ih =>
    intro least p q err he h
    rw [exprWithin, bind_of_ok (enter_eq p)] at h
    rcases bind_eq_error.mp h with h | ⟨e, p₁, -, h⟩
    · have hdeeper : Foreign err p.deeper := ⟨he.atToken, he.not_mem⟩
      exact (chain_refused ih (sound_exprWithin levels) hdeeper h).of_deeper
    · rw [bind_of_ok (leave_eq p₁)] at h
      cases h

/-- A text that is refused at a token has been read up to it, and the tokens before it can be
completed to an expression. -/
theorem refused_of_parseRule {text : String} (h : parseRule text = .error err) (he : err.AtToken) :
    ∃ p q, ofText text = .ok p ∧ rule p = .error err q ∧ Refused (IsOperand 0) err p q := by
  obtain ⟨p, q, hp, hrule, hforeign⟩ := exists_of_run_eq_error h he
  refine ⟨p, q, hp, hrule, ?_⟩
  rcases of_whole_eq_error hforeign hrule with hexpr | ⟨e, hexpr, herr⟩
  · exact viable_exprWithin _ hforeign hexpr
  · -- something follows after a complete expression
    have hreading := (sound_exprWithin _ hexpr).1
    obtain ⟨ts, hts, hspells⟩ := hreading.spelled
    rw [herr]
    exact .of_fault _ hts (.of_self ⟨e, hspells, hreading.grouped, hreading.holds⟩)

end Rule

end SqlPredicates
