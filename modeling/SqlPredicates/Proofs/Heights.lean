import SqlPredicates.Node
import SqlPredicates.Proofs.Outcome
import SqlPredicates.Proofs.Rule.ParserSoundness

/-!
# The height that is noted

A parser notes the height of the node it has read last, and the reader of the node above takes the
height of its children from there. Nothing clears the note. When a reading begins it holds whatever
was written last, perhaps by the other grammar, perhaps by a reading that has failed.

None of this is seen, because every way through both parsers writes the note before it reads it. The
actions in front of the first leaf of a tree pass the note on, which is `Reads.IgnoresHeight`; the leaf
writes it; and what follows may read it. An action that begins like this is `Reads.OverwritesHeight`: it
does the same whatever is noted, and it ends with the same note unless it fails. Only the first leaf has
to be looked at, so the lemmas about the readers stop there.

What has been written is right: after a reading the note is the height of the tree that is returned.

## Main definitions

* `Reads.IgnoresHeight` — actions that do not depend on what is noted
* `Reads.OverwritesHeight` — actions that write the note before they read it
* `Node.height` — the height of the tree below a node

## Main results

* `Reads.IgnoresHeight.bind`, `Reads.OverwritesHeight.bind`, `Reads.IgnoresHeight.bind_overwrites` —
  sequences of actions
* `Rule.overwritesHeight_exprWithin`, `Search.overwritesHeight_termWithin` — the readers of both grammars
* `Rule.height_of_exprWithin`, `Search.height_of_termWithin` — what they have written
-/

namespace SqlPredicates

open SqlPredicates.Parser

namespace Reads

variable {α β : Type} {x : Reads α} {f : α → Reads β}

/-- The same result, but for the height that is noted. -/
inductive SameButHeight {α : Type} : EStateM.Result SyntaxError Parser α →
    EStateM.Result SyntaxError Parser α → Prop
  | ok (a : α) (q : Parser) (height : ℕ) : SameButHeight (.ok a (q.atHeight height)) (.ok a q)
  | error (e : SyntaxError) (q : Parser) (height : ℕ) :
      SameButHeight (.error e (q.atHeight height)) (.error e q)

/-- The same result, and the same note unless it is a failure. -/
inductive SameOnSuccess {α : Type} : EStateM.Result SyntaxError Parser α →
    EStateM.Result SyntaxError Parser α → Prop
  | ok (a : α) (q : Parser) : SameOnSuccess (.ok a q) (.ok a q)
  | error (e : SyntaxError) (q : Parser) (height : ℕ) :
      SameOnSuccess (.error e (q.atHeight height)) (.error e q)

theorem SameOnSuccess.refl (r : EStateM.Result SyntaxError Parser α) : SameOnSuccess r r := by
  cases r with
  | ok a q => exact .ok a q
  | error e q => exact .error e q q.height

theorem SameOnSuccess.sameButHeight {r r' : EStateM.Result SyntaxError Parser α}
    (h : SameOnSuccess r r') : SameButHeight r r' := by
  cases h with
  | ok a q => exact .ok a q q.height
  | error e q height => exact .error e q height

/-- What the action does is the same whatever height is noted. It may leave the note as it is. -/
def IgnoresHeight (x : Reads α) : Prop :=
  ∀ p height, SameButHeight (x (p.atHeight height)) (x p)

/-- The action writes the note before it reads it: the height that is noted before does not matter for
what it does, nor for what is noted afterwards if it succeeds. -/
def OverwritesHeight (x : Reads α) : Prop :=
  ∀ p height, SameOnSuccess (x (p.atHeight height)) (x p)

theorem OverwritesHeight.ignoresHeight (hx : x.OverwritesHeight) : x.IgnoresHeight :=
  fun p height => (hx p height).sameButHeight

/-! ### Sequences -/

/-- What an action passes on is the same but for the note, so that what follows decides how the results
are related. -/
theorem IgnoresHeight.bind_related {related : EStateM.Result SyntaxError Parser β →
      EStateM.Result SyntaxError Parser β → Prop} (hx : x.IgnoresHeight)
    (hf : ∀ a q height, related (f a (q.atHeight height)) (f a q))
    (herror : ∀ e q height, related (.error e (q.atHeight height)) (.error e q)) (p : Parser)
    (height : ℕ) : related ((x >>= f) (p.atHeight height)) ((x >>= f) p) := by
  have h := hx p height
  generalize hr' : x (p.atHeight height) = r', hr : x p = r at h
  cases h with
  | ok a q height' =>
    rw [bind_of_ok hr', bind_of_ok hr]
    exact hf a q height'
  | error e q height' =>
    rw [bind_of_error hr', bind_of_error hr]
    exact herror e q height'

theorem IgnoresHeight.bind (hx : x.IgnoresHeight) (hf : ∀ a, (f a).IgnoresHeight) :
    (x >>= f).IgnoresHeight :=
  hx.bind_related hf .error

/-- Before the note is overwritten, nothing may depend on it. -/
theorem IgnoresHeight.bind_overwrites (hx : x.IgnoresHeight) (hf : ∀ a, (f a).OverwritesHeight) :
    (x >>= f).OverwritesHeight :=
  hx.bind_related hf .error

/-- Once the note has been overwritten, anything may follow. -/
theorem OverwritesHeight.bind (hx : x.OverwritesHeight) (f : α → Reads β) :
    (x >>= f).OverwritesHeight := by
  intro p height
  have h := hx p height
  generalize hr' : x (p.atHeight height) = r', hr : x p = r at h
  cases h with
  | ok a q =>
    rw [bind_of_ok hr', bind_of_ok hr]
    exact .refl (f a q)
  | error e q height' =>
    rw [bind_of_error hr', bind_of_error hr]
    exact .error e q height'

/-! ### Single actions -/

theorem overwritesHeight_setHeight (height : ℕ) : (setHeight height).OverwritesHeight :=
  fun p _ => .ok () (p.atHeight height)

theorem overwritesHeight_throw (e : SyntaxError) : (throw e : Reads α).OverwritesHeight :=
  fun p height => .error e p height

theorem overwritesHeight_unexpected (expected : Expectation) :
    (unexpected expected : Reads α).OverwritesHeight :=
  fun p height => .error (.unexpected p.current.span.start expected p.current.kind) p height

theorem overwritesHeight_tooDeep : (tooDeep : Reads α).OverwritesHeight :=
  fun p height => .error (.nestingTooDeep p.current.span.start) p.deeper height

theorem ignoresHeight_pure (a : α) : (pure a : Reads α).IgnoresHeight := fun p height => .ok a p height

theorem ignoresHeight_look : look.IgnoresHeight := fun p height => .ok p.current p height

theorem ignoresHeight_remaining : remaining.IgnoresHeight :=
  fun p height => .ok (p.rest.length + 1) p height

theorem ignoresHeight_levels : levels.IgnoresHeight :=
  fun p height => .ok (maxNesting - p.depth) p height

theorem ignoresHeight_enter : enter.IgnoresHeight := fun p height => .ok () p.deeper height

theorem ignoresHeight_advance : advance.IgnoresHeight := by
  intro p height
  cases h : advance p with
  | ok t q =>
    rw [advance_atHeight h]
    exact .ok t q height
  | error e q =>
    obtain ⟨hfirst, rfl⟩ := advance_eq_error.mp h
    have h' : advance (p.atHeight height) = .error e { p.atHeight height with rest := p.rest.tail } :=
      advance_eq_error.mpr ⟨hfirst, rfl⟩
    rw [h']
    exact .error e { p with rest := p.rest.tail } height

theorem ignoresHeight_eat? (kind : Token.Kind) : (eat? kind).IgnoresHeight := by
  refine ignoresHeight_look.bind fun token => ?_
  split
  · exact ignoresHeight_advance.bind fun _ => ignoresHeight_pure _
  · exact ignoresHeight_pure _

theorem ignoresHeight_expect (kind : Token.Kind) : (expect kind).IgnoresHeight := by
  refine (ignoresHeight_eat? kind).bind fun found => ?_
  cases found with
  | some t => exact ignoresHeight_pure _
  | none => exact (overwritesHeight_unexpected _).ignoresHeight

theorem ignoresHeight_nodeHeight (child offset : ℕ) : (nodeHeight child offset).IgnoresHeight := by
  rw [nodeHeight]
  split
  · exact ignoresHeight_pure _
  · exact (overwritesHeight_throw _).ignoresHeight

theorem ignoresHeight_rejectEmpty : rejectEmpty.IgnoresHeight := by
  refine ignoresHeight_look.bind fun token => ?_
  split
  · exact (overwritesHeight_throw _).ignoresHeight
  · exact ignoresHeight_pure _

theorem OverwritesHeight.counted (hx : x.OverwritesHeight) : (counted x).OverwritesHeight :=
  ignoresHeight_enter.bind_overwrites fun _ => hx.bind _

theorem OverwritesHeight.whole (hx : x.OverwritesHeight) : (whole x).OverwritesHeight :=
  ignoresHeight_rejectEmpty.bind_overwrites fun _ => hx.bind _

end Reads

open SqlPredicates.Reads

/-! ### Naming rules -/

namespace Rule

variable {operand : ℕ → Reads Expr} (hoperand : ∀ least, (operand least).OverwritesHeight)

theorem overwritesHeight_leaf (e : Expr) : (leaf e).OverwritesHeight :=
  ignoresHeight_advance.bind_overwrites fun _ => (overwritesHeight_setHeight 1).bind _

include hoperand

/-- Without arguments nothing is written. -/
theorem ignoresHeight_closedArguments : (closedArguments operand).IgnoresHeight := by
  refine (ignoresHeight_eat? _).bind fun found => ?_
  cases found with
  | some closing => exact ignoresHeight_pure _
  | none =>
    refine ignoresHeight_remaining.bind fun n => ?_
    cases n with
    | zero => exact (overwritesHeight_unexpected _).ignoresHeight
    | succ n => exact ((hoperand 0).bind _).ignoresHeight

/-- The list of arguments is a node of its own, which is measured also if there are none. -/
theorem overwritesHeight_argumentList : (argumentList operand).OverwritesHeight :=
  (ignoresHeight_expect _).bind_overwrites fun _ =>
    (ignoresHeight_closedArguments hoperand).bind_overwrites fun _ =>
      (ignoresHeight_nodeHeight _ _).bind_overwrites fun _ => (overwritesHeight_setHeight _).bind _

theorem overwritesHeight_reference (ident : Ident) : (reference operand ident).OverwritesHeight := by
  refine ignoresHeight_advance.bind_overwrites fun _ =>
    ignoresHeight_look.bind_overwrites fun token => ?_
  split
  · exact (overwritesHeight_argumentList hoperand).bind _
  · exact (overwritesHeight_setHeight 1).bind _

theorem overwritesHeight_parenthesised : (parenthesised operand).OverwritesHeight :=
  (ignoresHeight_expect _).bind_overwrites fun _ => (hoperand 0).bind _

theorem overwritesHeight_prefixed (op : UnaryOp) : (prefixed operand op).OverwritesHeight :=
  ignoresHeight_advance.bind_overwrites fun _ => (hoperand op.power).bind _

theorem overwritesHeight_primary : (primary operand).OverwritesHeight := by
  refine ignoresHeight_look.bind_overwrites fun ⟨kind, span⟩ => ?_
  cases kind with
  | integer | string => exact overwritesHeight_leaf _
  | identifier => exact overwritesHeight_reference hoperand _
  | symbol sign =>
    cases sign with
    | opening => exact overwritesHeight_parenthesised hoperand
    | minus | bang => exact overwritesHeight_prefixed hoperand _
    | _ => exact overwritesHeight_unexpected _
  | keyword word =>
    cases word with
    | not => exact overwritesHeight_prefixed hoperand _
    | _ => exact overwritesHeight_unexpected _
  | _ => exact overwritesHeight_unexpected _

omit hoperand

/-- **A reading of an expression writes the height before it reads it.** -/
theorem overwritesHeight_exprWithin (levels least : ℕ) :
    (exprWithin levels least).OverwritesHeight := by
  induction levels generalizing least with
  | zero => exact overwritesHeight_tooDeep
  | succ levels ih =>
    rw [exprWithin_succ]
    exact ((overwritesHeight_primary ih).bind _).counted

/-- **After the reading of an expression its height is noted.** -/
theorem height_of_exprWithin {levels least : ℕ} {p q : Parser} {e : Expr}
    (h : exprWithin levels least p = .ok e q) : q.height = e.height :=
  (sound_exprWithin levels h).2.height_eq

end Rule

/-! ### Search conditions -/

namespace Search

theorem overwritesHeight_simpleTerm : simpleTerm.OverwritesHeight := by
  refine ignoresHeight_look.bind_overwrites fun token => ?_
  split
  · exact ignoresHeight_advance.bind_overwrites fun _ => (overwritesHeight_setHeight 1).bind _
  · exact overwritesHeight_unexpected _

theorem overwritesHeight_weightedTerm : weightedTerm.OverwritesHeight := by
  refine (ignoresHeight_expect _).bind_overwrites fun _ =>
    (ignoresHeight_expect _).bind_overwrites fun _ =>
      ignoresHeight_remaining.bind_overwrites fun n => ?_
  cases n with
  | zero => exact (overwritesHeight_unexpected _).bind _
  | succ n => exact ((overwritesHeight_simpleTerm.bind _).bind _).bind _

theorem overwritesHeight_generationTerms (n : ℕ) : (generationTerms n).OverwritesHeight := by
  cases n with
  | zero => exact overwritesHeight_unexpected _
  | succ n =>
    exact (ignoresHeight_expect _).bind_overwrites fun _ => overwritesHeight_simpleTerm.bind _

theorem overwritesHeight_generationTerm : generationTerm.OverwritesHeight := by
  refine (ignoresHeight_expect _).bind_overwrites fun _ =>
    (ignoresHeight_expect _).bind_overwrites fun _ =>
      ignoresHeight_look.bind_overwrites fun token => ?_
  split
  · exact overwritesHeight_unexpected _
  · exact ignoresHeight_advance.bind_overwrites fun _ =>
      ignoresHeight_remaining.bind_overwrites fun n => (overwritesHeight_generationTerms n).bind _

variable {operand : ℕ → Reads Term} (hoperand : ∀ least, (operand least).OverwritesHeight)

include hoperand

theorem overwritesHeight_group : (group operand).OverwritesHeight :=
  ignoresHeight_advance.bind_overwrites fun _ => (hoperand 0).bind _

theorem overwritesHeight_negation : (negation operand).OverwritesHeight :=
  ignoresHeight_advance.bind_overwrites fun _ => (hoperand Connective.notPower).bind _

theorem overwritesHeight_primary : (primary operand).OverwritesHeight := by
  refine ignoresHeight_look.bind_overwrites fun token => ?_
  split
  · exact overwritesHeight_simpleTerm.bind _
  · exact overwritesHeight_simpleTerm.bind _
  · exact overwritesHeight_group hoperand
  · exact overwritesHeight_negation hoperand
  · exact overwritesHeight_negation hoperand
  · exact overwritesHeight_weightedTerm
  · exact overwritesHeight_generationTerm
  · exact overwritesHeight_unexpected _

omit hoperand

/-- **A reading of a term writes the height before it reads it.** -/
theorem overwritesHeight_termWithin (levels least : ℕ) :
    (termWithin levels least).OverwritesHeight := by
  induction levels generalizing least with
  | zero => exact overwritesHeight_tooDeep
  | succ levels ih =>
    rw [termWithin_succ]
    exact ((overwritesHeight_primary ih).bind _).counted

/-- **After the reading of a term its height is noted.** -/
theorem height_of_termWithin {levels least : ℕ} {p q : Parser} {t : Term}
    (h : termWithin levels least p = .ok t q) : q.height = t.height :=
  (sound_termWithin levels h).2.height_eq

end Search

/-! ### Trees of both grammars -/

/-- The height of the tree below a node. -/
def Node.height : Node → ℕ
  | expr e => e.height
  | arguments args _ => Expr.tallest args + 1
  | term t => t.height
  | item _ => 2

namespace Parser

theorem overwritesHeight_expr : expr.OverwritesHeight :=
  ignoresHeight_levels.bind_overwrites fun _ => Rule.overwritesHeight_exprWithin _ _

theorem overwritesHeight_term : term.OverwritesHeight :=
  ignoresHeight_levels.bind_overwrites fun _ => Search.overwritesHeight_termWithin _ _

end Parser

end SqlPredicates
