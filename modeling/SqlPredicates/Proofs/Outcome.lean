import SqlPredicates.Proofs.Reading
import SqlPredicates.Proofs.Search.ParserSoundness
import SqlPredicates.Rule.Parser

/-!
# What a reading leaves behind

A parser can be read on after a reading, also after one that has failed, so it matters what a reading
does to it in every case. There are three cases. The reading has passed over some tokens and returns
a value; or it refuses the token that it looks at then; or what follows that token is an error, which
ends the list of tokens. `Outcome` lists them.

A reading that succeeds leaves the number of readings under way as it was, by `Parser.Passes`. A
reading that fails has counted the operands that it was in, and does not take them back. Since every
reader of operands counts itself, a failed one leaves a number that is strictly higher.

The readers of both grammars are put together from a few actions, and so are the lemmas about them:
there is one for each reader, which follows its text. Those that assume nothing about operands are
for `grind`, since other modules ask for the rest of a sequence of actions.

## Main definitions

* `SyntaxError.Inner` — the errors that a reading of an expression or a term raises itself
* `Reads.Outcome` — what a reading has done
* `Reads.Orderly` — a reading that does one of the three things at every place
* `Reads.counted` — an action between the two changes of the counter

## Main results

* `Reads.Orderly.bind`, `Reads.Orderly.counted` — sequences of actions, and an action that is counted
* `Rule.orderly_exprWithin`, `Search.orderly_termWithin` — the readers of both grammars
* `Rule.depth_lt_of_exprWithin`, `Search.depth_lt_of_termWithin` — what a failed reading has counted
-/

namespace SqlPredicates

/-- The error is about a token inside a tree or about its depth. It says neither that there is nothing
to read nor that something follows, and not that the text cannot be cut into tokens. -/
def SyntaxError.Inner : SyntaxError → Prop
  | .unexpected _ expected _ => expected ≠ .token .endOfInput
  | .weightOutOfRange _ _ | .nestingTooDeep _ => True
  | _ => False

open SqlPredicates.Parser

namespace Reads

variable {α β : Type} {x : Reads α} {f : α → Reads β} {p q : Parser} {ts : List Token}

/-- What a reading from `p` has done: it has passed over tokens and succeeded; it has refused the token
after them; or it has met an error behind that token. -/
inductive Outcome {α : Type} (p : Parser) : EStateM.Result SyntaxError Parser α → Prop
  | ok {a : α} {ts : List Token} {q : Parser} (hts : Passes p ts q) : Outcome p (.ok a q)
  | refused {e : SyntaxError} {ts : List Token} {q : Parser} (hts : Passes p ts q) (he : e.Inner)
      {depth : ℕ} (hdepth : p.depth ≤ depth) : Outcome p (.error e (q.atDepth depth))
  | unreadable {e : SyntaxError} {ts : List Token} {q r : Parser} (hts : Passes p ts q)
      (h : advance q = .error e r) {depth : ℕ} (hdepth : p.depth ≤ depth) :
      Outcome p (.error e (r.atDepth depth))

namespace Outcome

/-- What has been passed over before. -/
theorem after {r : EStateM.Result SyntaxError Parser α} (hts : Passes p ts q) (h : Outcome q r) :
    Outcome p r := by
  cases h with
  | ok hus => exact .ok (hts.append hus)
  | refused hus he hdepth => exact .refused (hts.append hus) he (hts.depth_eq ▸ hdepth)
  | unreadable hus h hdepth => exact .unreadable (hts.append hus) h (hts.depth_eq ▸ hdepth)

/-- An action after another one. -/
theorem bind (hx : Outcome p (x p)) (hf : ∀ a q, x p = .ok a q → Outcome q (f a q)) :
    Outcome p ((x >>= f) p) := by
  generalize h : x p = r at hx
  cases hx with
  | ok hts =>
    rw [bind_of_ok h]
    exact after hts (hf _ _ h)
  | refused hts he hdepth =>
    rw [bind_of_error h]
    exact .refused hts he hdepth
  | unreadable hts hadvance hdepth =>
    rw [bind_of_error h]
    exact .unreadable hts hadvance hdepth

end Outcome

/-- What an action does at every place is one of the three outcomes. -/
def Orderly (x : Reads α) : Prop := ∀ p, Outcome p (x p)

/-! ### Single actions -/

@[grind ←]
theorem Orderly.bind (hx : x.Orderly) (hf : ∀ a, (f a).Orderly) : (x >>= f).Orderly :=
  fun p => (hx p).bind fun a q _ => hf a q

@[grind ←]
theorem orderly_pure (a : α) : (pure a : Reads α).Orderly := fun p => .ok (.refl p)

@[grind ←]
theorem orderly_look : look.Orderly := fun p => .ok (.refl p)

@[grind ←]
theorem orderly_remaining : remaining.Orderly := fun p => .ok (.refl p)

@[grind ←]
theorem orderly_throw {e : SyntaxError} (he : e.Inner) : (throw e : Reads α).Orderly :=
  fun p => .refused (.refl p) he (Nat.le_refl p.depth)

@[grind ←]
theorem orderly_unexpected {expected : Expectation} (h : expected ≠ .token .endOfInput) :
    (unexpected expected : Reads α).Orderly :=
  fun p => .refused (e := .unexpected _ expected p.current.kind) (.refl p) h (Nat.le_refl _)

@[grind ←]
theorem orderly_advance : advance.Orderly := by
  intro p
  cases h : advance p with
  | ok t q => exact .ok (.single h)
  | error e q =>
    obtain ⟨-, rfl⟩ := advance_eq_error.mp h
    exact .unreadable (.refl p) h (Nat.le_refl _)

@[grind ←]
theorem orderly_eat? (kind : Token.Kind) : (eat? kind).Orderly := by
  refine orderly_look.bind fun token => ?_
  split
  · exact orderly_advance.bind fun _ => orderly_pure _
  · exact orderly_pure _

@[grind ←]
theorem orderly_expect {kind : Token.Kind} (h : kind ≠ .endOfInput) : (expect kind).Orderly := by
  refine (orderly_eat? kind).bind fun found => ?_
  cases found with
  | some t => exact orderly_pure _
  | none => exact orderly_unexpected fun hkind => h (Expectation.token.inj hkind)

@[grind ←]
theorem orderly_lastHeight : lastHeight.Orderly := fun p => .ok (.refl p)

@[grind ←]
theorem orderly_setHeight (height : ℕ) : (setHeight height).Orderly :=
  fun p => .ok (.nil p height)

@[grind ←]
theorem orderly_nodeHeight (child offset : ℕ) : (nodeHeight child offset).Orderly := by
  rw [nodeHeight]
  split
  · exact orderly_pure _
  · exact orderly_throw trivial

@[grind ←]
theorem orderly_wrap (offset : ℕ) : (wrap offset).Orderly :=
  orderly_lastHeight.bind fun _ => (orderly_nodeHeight _ _).bind fun _ => orderly_setHeight _

@[grind ←]
theorem orderly_note (measured : α × ℕ) : (note measured).Orderly :=
  (orderly_setHeight _).bind fun _ => orderly_pure _

/-! ### Counted actions -/

/-- The reading that is one too many has been counted. -/
theorem orderly_tooDeep : (tooDeep : Reads α).Orderly :=
  fun p => .refused (e := .nestingTooDeep _) (.refl p) trivial (Nat.le_succ _)

/-- The action with the two changes of the counter around it. -/
def counted (x : Reads α) : Reads α := do
  enter
  let a ← x
  leave
  return a

theorem counted_eq_error {e : SyntaxError} (h : counted x p = .error e q) :
    x p.deeper = .error e q := by
  rw [counted, bind_of_ok (enter_eq p)] at h
  cases hx : x p.deeper with
  | ok a r =>
    rw [bind_of_ok hx, bind_of_ok (leave_eq r)] at h
    cases h
  | error e' r => rwa [bind_of_error hx] at h

theorem Orderly.counted (hx : x.Orderly) : (counted x).Orderly := by
  intro p
  rw [Reads.counted, bind_of_ok (enter_eq p)]
  have houtcome := hx p.deeper
  generalize h : x p.deeper = r at houtcome
  cases houtcome with
  | @ok a ts q hts =>
    rw [bind_of_ok h, bind_of_ok (leave_eq q)]
    exact .ok hts.shallower
  | refused hts he hdepth =>
    rw [bind_of_error h]
    exact .refused hts.shallower he (Nat.le_of_succ_le hdepth)
  | unreadable hts hadvance hdepth =>
    rw [bind_of_error h]
    -- what follows does not depend on the counter
    obtain ⟨hnext, rfl⟩ := advance_eq_error.mp hadvance
    exact .unreadable hts.shallower (advance_eq_error.mpr ⟨hnext, rfl⟩) (Nat.le_of_succ_le hdepth)

/-- **A counted action that fails has been counted**, and is not taken back. -/
theorem Orderly.depth_lt (hx : x.Orderly) {e : SyntaxError}
    (h : Reads.counted x p = .error e q) : p.depth < q.depth := by
  have houtcome := hx p.deeper
  rw [counted_eq_error h] at houtcome
  cases houtcome with
  | refused _ _ hdepth | unreadable _ _ hdepth => exact hdepth

theorem depth_lt_of_tooDeep {e : SyntaxError}
    (h : (tooDeep : Reads α) p = .error e q) : p.depth < q.depth := by
  cases h
  exact Nat.lt_succ_self _

end Reads

open SqlPredicates.Reads

/-! ### Naming rules -/

namespace Rule

variable {operand : ℕ → Reads Expr} (hoperand : ∀ least, (operand least).Orderly)

@[grind ←]
theorem orderly_leaf (e : Expr) : (leaf e).Orderly :=
  orderly_advance.bind fun _ => (orderly_setHeight _).bind fun _ => orderly_pure _

include hoperand

theorem orderly_arguments (n : ℕ) : (arguments operand n).Orderly := by
  induction n with
  | zero => exact orderly_unexpected (by simp)
  | succ n ih =>
    refine (hoperand 0).bind fun e => orderly_lastHeight.bind fun height => ?_
    refine (orderly_eat? _).bind fun found => ?_
    cases found with
    | some closing => exact orderly_pure _
    | none =>
      refine (orderly_eat? _).bind fun found => ?_
      cases found with
      | some comma => exact ih.bind fun _ => orderly_pure _
      | none => exact orderly_unexpected (by simp)

theorem orderly_closedArguments : (closedArguments operand).Orderly := by
  refine (orderly_eat? _).bind fun found => ?_
  cases found with
  | some closing => exact orderly_pure _
  | none => exact orderly_remaining.bind fun n => orderly_arguments hoperand n

theorem orderly_argumentList : (argumentList operand).Orderly :=
  (orderly_expect (by simp)).bind fun _ => (orderly_closedArguments hoperand).bind fun _ =>
    (orderly_nodeHeight _ _).bind fun _ => (orderly_setHeight _).bind fun _ => orderly_pure _

theorem orderly_reference (ident : Ident) : (reference operand ident).Orderly := by
  refine orderly_advance.bind fun _ => orderly_look.bind fun token => ?_
  split
  · exact (orderly_argumentList hoperand).bind fun _ =>
      (orderly_wrap _).bind fun _ => orderly_pure _
  · exact (orderly_setHeight _).bind fun _ => orderly_pure _

theorem orderly_parenthesised : (parenthesised operand).Orderly :=
  (orderly_expect (by simp)).bind fun _ => (hoperand _).bind fun _ =>
    (orderly_wrap _).bind fun _ => (orderly_expect (by simp)).bind fun _ => orderly_pure _

theorem orderly_prefixed (op : UnaryOp) : (prefixed operand op).Orderly :=
  orderly_advance.bind fun _ => (hoperand _).bind fun _ => (orderly_wrap _).bind fun _ =>
    orderly_pure _

theorem orderly_primary : (primary operand).Orderly := by
  refine orderly_look.bind fun ⟨kind, span⟩ => ?_
  cases kind with
  | integer | string => exact orderly_leaf _
  | identifier => exact orderly_reference hoperand _
  | symbol sign =>
    cases sign with
    | opening => exact orderly_parenthesised hoperand
    | minus | bang => exact orderly_prefixed hoperand _
    | _ => exact orderly_unexpected (by simp)
  | keyword word =>
    cases word with
    | not => exact orderly_prefixed hoperand _
    | _ => exact orderly_unexpected (by simp)
  | _ => exact orderly_unexpected (by simp)

theorem orderly_operations (least n : ℕ) (lhs : Expr) (height : ℕ) :
    (operations operand least n lhs height).Orderly := by
  induction n generalizing lhs height with
  | zero => exact orderly_pure _
  | succ n ih =>
    refine orderly_look.bind fun token => ?_
    split
    · exact orderly_pure _
    · split
      · exact orderly_pure _
      · exact orderly_advance.bind fun _ => (hoperand _).bind fun _ =>
          orderly_lastHeight.bind fun _ => (orderly_nodeHeight _ _).bind fun _ => ih _ _

theorem orderly_chain (least : ℕ) : (chain operand least).Orderly :=
  (orderly_primary hoperand).bind fun _ => orderly_remaining.bind fun _ =>
    orderly_lastHeight.bind fun _ => (orderly_operations hoperand _ _ _ _).bind fun _ =>
      orderly_note _

omit hoperand

theorem exprWithin_succ (levels least : ℕ) :
    exprWithin (levels + 1) least = counted (chain (exprWithin levels) least) := rfl

/-- **What a reading of an expression does.** -/
theorem orderly_exprWithin (levels least : ℕ) : (exprWithin levels least).Orderly := by
  induction levels generalizing least with
  | zero => exact orderly_tooDeep
  | succ levels ih =>
    rw [exprWithin_succ]
    exact (orderly_chain ih least).counted

/-- **A reading of an expression that fails has been counted**, and is not taken back. -/
theorem depth_lt_of_exprWithin {levels least : ℕ} {p q : Parser} {e : SyntaxError}
    (h : exprWithin levels least p = .error e q) : p.depth < q.depth := by
  cases levels with
  | zero => exact depth_lt_of_tooDeep h
  | succ levels =>
    rw [exprWithin_succ] at h
    exact (orderly_chain (orderly_exprWithin levels) least).depth_lt h

end Rule

/-! ### Search conditions -/

namespace Search

@[grind ←]
theorem orderly_simpleTerm : simpleTerm.Orderly := by
  refine orderly_look.bind fun token => ?_
  split
  · exact orderly_advance.bind fun _ => (orderly_setHeight _).bind fun _ => orderly_pure _
  · exact orderly_unexpected (by simp)

@[grind ←]
theorem orderly_weight : weight.Orderly := by
  refine orderly_look.bind fun token => ?_
  split
  · exact orderly_unexpected (by simp)
  · split
    · exact orderly_advance.bind fun _ => orderly_pure _
    · exact orderly_throw trivial

@[grind ←]
theorem orderly_weightedItem : weightedItem.Orderly := by
  refine orderly_simpleTerm.bind fun t => (orderly_eat? _).bind fun found => ?_
  cases found with
  | none => exact orderly_pure _
  | some word =>
    exact (orderly_expect (by simp)).bind fun _ => orderly_weight.bind fun _ =>
      (orderly_expect (by simp)).bind fun _ => orderly_pure _

@[grind ←]
theorem orderly_weightedItems (n : ℕ) : (weightedItems n).Orderly := by
  induction n with
  | zero => exact orderly_unexpected (by simp)
  | succ n ih =>
    refine orderly_weightedItem.bind fun i => (orderly_eat? _).bind fun found => ?_
    cases found with
    | some closing => exact orderly_pure _
    | none =>
      refine (orderly_eat? _).bind fun found => ?_
      cases found with
      | some comma => exact ih.bind fun _ => orderly_pure _
      | none => exact orderly_unexpected (by simp)

@[grind ←]
theorem orderly_weightedTerm : weightedTerm.Orderly :=
  (orderly_expect (by simp)).bind fun _ => (orderly_expect (by simp)).bind fun _ =>
    orderly_remaining.bind fun n => (orderly_weightedItems n).bind fun _ =>
      (orderly_setHeight _).bind fun _ => orderly_pure _

@[grind ←]
theorem orderly_generationTerms (n : ℕ) : (generationTerms n).Orderly := by
  induction n with
  | zero => exact orderly_unexpected (by simp)
  | succ n ih =>
    refine (orderly_expect (by simp)).bind fun _ => orderly_simpleTerm.bind fun t => ?_
    refine (orderly_eat? _).bind fun found => ?_
    cases found with
    | some closing => exact orderly_pure _
    | none => exact ih.bind fun _ => orderly_pure _

@[grind ←]
theorem orderly_generationTerm : generationTerm.Orderly := by
  refine (orderly_expect (by simp)).bind fun _ => (orderly_expect (by simp)).bind fun _ => ?_
  refine orderly_look.bind fun token => ?_
  split
  · exact orderly_unexpected (by simp)
  · exact orderly_advance.bind fun _ => orderly_remaining.bind fun n =>
      (orderly_generationTerms n).bind fun _ => (orderly_setHeight _).bind fun _ => orderly_pure _

variable {operand : ℕ → Reads Term} (hoperand : ∀ least, (operand least).Orderly)

include hoperand

theorem orderly_group : (group operand).Orderly :=
  orderly_advance.bind fun _ => (hoperand _).bind fun _ => (orderly_wrap _).bind fun _ =>
    (orderly_expect (by simp)).bind fun _ => orderly_pure _

theorem orderly_negation : (negation operand).Orderly :=
  orderly_advance.bind fun _ => (hoperand _).bind fun _ => (orderly_wrap _).bind fun _ =>
    orderly_pure _

theorem orderly_primary : (primary operand).Orderly := by
  refine orderly_look.bind fun token => ?_
  split
  · exact orderly_simpleTerm.bind fun _ => orderly_pure _
  · exact orderly_simpleTerm.bind fun _ => orderly_pure _
  · exact orderly_group hoperand
  · exact orderly_negation hoperand
  · exact orderly_negation hoperand
  · exact orderly_weightedTerm
  · exact orderly_generationTerm
  · exact orderly_unexpected (by simp)

theorem orderly_connections (least n : ℕ) (lhs : Term) (height : ℕ) :
    (connections operand least n lhs height).Orderly := by
  induction n generalizing lhs height with
  | zero => exact orderly_pure _
  | succ n ih =>
    refine orderly_look.bind fun token => ?_
    split
    · exact orderly_pure _
    · split
      · exact orderly_pure _
      · exact orderly_advance.bind fun _ => (hoperand _).bind fun _ =>
          orderly_lastHeight.bind fun _ => (orderly_nodeHeight _ _).bind fun _ => ih _ _

theorem orderly_chain (least : ℕ) : (chain operand least).Orderly :=
  (orderly_primary hoperand).bind fun _ => orderly_remaining.bind fun _ =>
    orderly_lastHeight.bind fun _ => (orderly_connections hoperand _ _ _ _).bind fun _ =>
      orderly_note _

omit hoperand

theorem termWithin_succ (levels least : ℕ) :
    termWithin (levels + 1) least = counted (chain (termWithin levels) least) := rfl

/-- **What a reading of a term does.** -/
theorem orderly_termWithin (levels least : ℕ) : (termWithin levels least).Orderly := by
  induction levels generalizing least with
  | zero => exact orderly_tooDeep
  | succ levels ih =>
    rw [termWithin_succ]
    exact (orderly_chain ih least).counted

/-- **A reading of a term that fails has been counted**, and is not taken back. -/
theorem depth_lt_of_termWithin {levels least : ℕ} {p q : Parser} {e : SyntaxError}
    (h : termWithin levels least p = .error e q) : p.depth < q.depth := by
  cases levels with
  | zero => exact depth_lt_of_tooDeep h
  | succ levels =>
    rw [termWithin_succ] at h
    exact (orderly_chain (orderly_termWithin levels) least).depth_lt h

end Search

end SqlPredicates
