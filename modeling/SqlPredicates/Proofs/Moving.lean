import SqlPredicates.Proofs.Outcome
import SqlPredicates.Proofs.Rule.Places
import SqlPredicates.Proofs.Search.Places
import SqlPredicates.Proofs.Token.Composition

/-!
# Reading at a place that is moved

What is read from a place depends on the tokens from there on, and on where they stand only in so far
as trees and errors say where something stands. So if all tokens are moved to the right, a reading
does the same, and its result is moved, too.

`Reads.Moves n f x x'` says this of a reading `x` whose values are moved by `f`. The second reading
`x'` is `x` again, except that a reader may have been given a place or a tree, which is then moved as
well. Every reader of both grammars is moved in this way, by one lemma that follows its text.

## Main definitions

* `Parser.shift`, `Node.shift` — a place and a node moved to the right
* `Reads.Moves` — a reading that is moved with its place

## Main results

* `Reads.Moves.bind` — sequences of actions
* `Rule.moves_exprWithin`, `Search.moves_termWithin` — the readers of both grammars
-/

namespace SqlPredicates

/-- The place with all tokens moved to the right by `n` bytes. -/
def Parser.shift (n : ℕ) (p : Parser) : Parser where
  current := p.current.shift n
  rest := p.rest.map (TokenItem.move (· + n))
  length := p.length + n
  depth := p.depth
  height := p.height

/-- The node with every place moved to the right by `n` bytes. -/
def Node.shift (n : ℕ) : Node → Node
  | .expr e => .expr (e.shift n)
  | .arguments args span => .arguments (Expr.shiftAll n args) (span.shift n)
  | .term t => .term (t.shift n)
  | .item i => .item (i.shift n)

open SqlPredicates.Parser

namespace Reads

variable {α α' β β' : Type} {n : ℕ} {x : Reads α} {x' : Reads α'} {f : α → α'} {g : β → β'}

/-- A result that is moved, whose value is moved by `f`. -/
def shiftResult (n : ℕ) (f : α → α') :
    EStateM.Result SyntaxError Parser α → EStateM.Result SyntaxError Parser α'
  | .ok a p => .ok (f a) (p.shift n)
  | .error e p => .error (e.move (· + n)) (p.shift n)

/-- At a place that is moved the second action does what the first one does at the place, with a
result that is moved. -/
def Moves (n : ℕ) (f : α → α') (x : Reads α) (x' : Reads α') : Prop :=
  ∀ p : Parser, x' (p.shift n) = shiftResult n f (x p)

/-! ### Actions -/

theorem Moves.bind {k : α → Reads β} {k' : α' → Reads β'} (hx : Moves n f x x')
    (hk : ∀ a, Moves n g (k a) (k' (f a))) : Moves n g (x >>= k) (x' >>= k') := by
  intro p
  have hp := hx p
  cases h : x p with
  | ok a q =>
    rw [h] at hp
    rw [bind_of_ok h, bind_of_ok hp]
    exact hk a q
  | error e q =>
    rw [h] at hp
    rw [bind_of_error h, bind_of_error hp]
    rfl

theorem moves_pure {a : α} {a' : α'} (h : f a = a') : Moves n f (pure a) (pure a') := by
  subst h
  exact fun _ => rfl

theorem moves_throw (e : SyntaxError) : Moves n f (throw e) (throw (e.move (· + n))) := fun _ => rfl

theorem moves_look : Moves n (Token.shift n) look look := fun _ => rfl

theorem moves_remaining : Moves n id remaining remaining := fun p =>
  congrArg (fun length => EStateM.Result.ok (length + 1) (p.shift n)) (List.length_map _)

theorem moves_levels : Moves n id levels levels := fun _ => rfl

theorem moves_enter : Moves n id enter enter := fun _ => rfl

theorem moves_leave : Moves n id leave leave := fun _ => rfl

theorem moves_unexpected (expected : Expectation) :
    Moves n f (unexpected expected) (unexpected expected) := fun _ => rfl

theorem moves_tooDeep : Moves n f tooDeep tooDeep := fun _ => rfl

/-- The first of the items that are moved is the first item moved. The end of the input is moved,
too. -/
theorem firstItem_map_move (n length : ℕ) (items : List TokenItem) :
    firstItem (length + n) (items.map (TokenItem.move (· + n))) =
      (firstItem length items).move (· + n) := by
  cases items <;> rfl

theorem moves_advance : Moves n (Token.shift n) advance advance := by
  intro p
  have hfirst := firstItem_map_move n p.length p.rest
  cases h : firstItem p.length p.rest with
  | ok next =>
    rw [h] at hfirst
    have hadvance : advance p = .ok p.current { p with current := next, rest := p.rest.tail } :=
      advance_eq_ok.mpr ⟨rfl, next, h, rfl⟩
    rw [hadvance]
    refine advance_eq_ok.mpr ⟨rfl, next.shift n, hfirst, ?_⟩
    rw [shift, List.map_tail]
    rfl
  | error e =>
    rw [h] at hfirst
    rw [advance_eq_error.mpr ⟨h, rfl⟩]
    refine advance_eq_error.mpr ⟨hfirst, ?_⟩
    rw [shift, List.map_tail]
    rfl

theorem moves_eat? (kind : Token.Kind) :
    Moves n (Option.map (Token.shift n)) (eat? kind) (eat? kind) := by
  refine moves_look.bind fun token => ?_
  change Moves n _ _ (if token.kind = kind then _ else _)
  split
  · exact moves_advance.bind fun _ => moves_pure rfl
  · exact moves_pure rfl

theorem moves_expect (kind : Token.Kind) : Moves n (Token.shift n) (expect kind) (expect kind) := by
  refine (moves_eat? kind).bind fun found => ?_
  cases found with
  | some t => exact moves_pure rfl
  | none => exact moves_unexpected _

theorem moves_lastHeight : Moves n id lastHeight lastHeight := fun _ => rfl

theorem moves_setHeight (height : ℕ) : Moves n id (setHeight height) (setHeight height) :=
  fun _ => rfl

theorem moves_nodeHeight (child offset : ℕ) :
    Moves n id (nodeHeight child offset) (nodeHeight child (offset + n)) := by
  rw [nodeHeight, nodeHeight]
  split
  · exact moves_pure rfl
  · exact moves_throw (.nestingTooDeep offset)

theorem moves_wrap (offset : ℕ) : Moves n id (wrap offset) (wrap (offset + n)) :=
  moves_lastHeight.bind fun _ => (moves_nodeHeight _ offset).bind fun height =>
    moves_setHeight height

theorem moves_note (measured : α × ℕ) : Moves n f (note measured) (note (measured.map f id)) :=
  (moves_setHeight measured.2).bind fun _ => moves_pure rfl

theorem Moves.counted (hx : Moves n f x x') : Moves n f (counted x) (counted x') :=
  moves_enter.bind fun _ => hx.bind fun _ => moves_leave.bind fun _ => moves_pure rfl

theorem Moves.whole (hx : Moves n f x x') : Moves n f (whole x) (whole x') := by
  have hempty : Moves n id rejectEmpty rejectEmpty := by
    refine moves_look.bind fun token => ?_
    change Moves n _ _ (if token.kind = .endOfInput then _ else _)
    split
    · exact moves_throw .emptyInput
    · exact moves_pure rfl
  have hend : Moves n id expectEnd expectEnd := by
    refine moves_look.bind fun token => ?_
    change Moves n _ _ (if token.kind = .endOfInput then _ else _)
    split
    · exact moves_pure rfl
    · exact moves_unexpected _
  exact hempty.bind fun _ => hx.bind fun _ => hend.bind fun _ => moves_pure rfl

end Reads

open SqlPredicates.Reads

/-! ### Naming rules -/

namespace Rule

variable {n : ℕ} {operand : ℕ → Reads Expr}
  (hoperand : ∀ least, Moves n (Expr.shift n) (operand least) (operand least))

theorem moves_leaf (e : Expr) : Moves n (Expr.shift n) (leaf e) (leaf (e.shift n)) :=
  moves_advance.bind fun _ => (moves_setHeight 1).bind fun _ => moves_pure rfl

include hoperand

theorem moves_arguments (m : ℕ) :
    Moves n (Prod.map (Expr.shiftAll n) (Prod.map (Token.shift n) id)) (arguments operand m)
      (arguments operand m) := by
  induction m with
  | zero => exact moves_unexpected _
  | succ m ih =>
    refine (hoperand 0).bind fun e => moves_lastHeight.bind fun height => ?_
    refine (moves_eat? _).bind fun found => ?_
    cases found with
    | some closing => exact moves_pure rfl
    | none =>
      refine (moves_eat? _).bind fun found => ?_
      cases found with
      | some comma => exact ih.bind fun _ => moves_pure rfl
      | none => exact moves_unexpected _

theorem moves_closedArguments :
    Moves n (Prod.map (Expr.shiftAll n) (Prod.map (Token.shift n) id)) (closedArguments operand)
      (closedArguments operand) := by
  refine (moves_eat? _).bind fun found => ?_
  cases found with
  | some closing => exact moves_pure rfl
  | none => exact moves_remaining.bind fun m => moves_arguments hoperand m

theorem moves_argumentList :
    Moves n (Prod.map (Expr.shiftAll n) (Span.shift n)) (argumentList operand)
      (argumentList operand) := by
  refine (moves_expect _).bind fun opening => (moves_closedArguments hoperand).bind fun args => ?_
  refine (moves_nodeHeight args.2.2 opening.span.start).bind fun height => ?_
  refine (moves_setHeight height).bind fun _ => moves_pure ?_
  exact Prod.ext rfl (Span.cover_shift n _ _)

theorem moves_reference (ident : Ident) :
    Moves n (Expr.shift n) (reference operand ident)
      (reference operand ⟨ident.name, ident.span.shift n⟩) := by
  refine moves_advance.bind fun _ => moves_look.bind fun token => ?_
  change Moves n _ _ (if token.kind = .symbol .opening then _ else _)
  split
  · refine (moves_argumentList hoperand).bind fun args => ?_
    have hcall : (Expr.call ident args.1 args.2 (ident.span.cover args.2)).shift n =
        .call ⟨ident.name, ident.span.shift n⟩ (Expr.shiftAll n args.1) (args.2.shift n)
          ((ident.span.shift n).cover (args.2.shift n)) := by
      rw [Expr.shift, Span.cover_shift]
    exact (moves_wrap ident.span.start).bind fun _ => moves_pure hcall
  · exact (moves_setHeight 1).bind fun _ => moves_pure rfl

theorem moves_parenthesised :
    Moves n (Expr.shift n) (parenthesised operand) (parenthesised operand) := by
  refine (moves_expect _).bind fun opening => (hoperand 0).bind fun inner => ?_
  refine (moves_wrap opening.span.start).bind fun _ => ?_
  refine (moves_expect _).bind fun closing => moves_pure ?_
  rw [Expr.shift, Span.cover_shift]
  rfl

theorem moves_prefixed (op : UnaryOp) :
    Moves n (Expr.shift n) (prefixed operand op) (prefixed operand op) := by
  refine moves_advance.bind fun token => (hoperand _).bind fun inner => ?_
  have hunary : (Expr.unary op inner (token.span.cover inner.span)).shift n =
      .unary op (inner.shift n) ((token.shift n).span.cover (inner.shift n).span) := by
    rw [Expr.shift, Span.cover_shift, Expr.span_shift]
    rfl
  exact (moves_wrap token.span.start).bind fun _ => moves_pure hunary

theorem moves_primary : Moves n (Expr.shift n) (primary operand) (primary operand) := by
  refine moves_look.bind fun ⟨kind, span⟩ => ?_
  cases kind with
  | integer | string => exact moves_leaf _
  | identifier name => exact moves_reference hoperand ⟨name, span⟩
  | symbol sign =>
    cases sign with
    | opening => exact moves_parenthesised hoperand
    | minus | bang => exact moves_prefixed hoperand _
    | _ => exact moves_unexpected _
  | keyword word =>
    cases word with
    | not => exact moves_prefixed hoperand _
    | _ => exact moves_unexpected _
  | _ => exact moves_unexpected _

theorem moves_operations (least m : ℕ) (lhs : Expr) (height : ℕ) :
    Moves n (Prod.map (Expr.shift n) id) (operations operand least m lhs height)
      (operations operand least m (lhs.shift n) height) := by
  induction m generalizing lhs height with
  | zero => exact moves_pure rfl
  | succ m ih =>
    refine moves_look.bind fun ⟨kind, span⟩ => ?_
    dsimp only [Token.shift]
    cases BinaryOp.ofKind? kind with
    | none => exact moves_pure rfl
    | some op =>
      dsimp only
      split
      · exact moves_pure rfl
      · refine moves_advance.bind fun _ => (hoperand _).bind fun rhs => ?_
        have hbinary : (Expr.binary op lhs rhs (lhs.span.cover rhs.span)).shift n =
            .binary op (lhs.shift n) (rhs.shift n)
              ((lhs.shift n).span.cover (rhs.shift n).span) := by
          rw [Expr.shift, Span.cover_shift, Expr.span_shift, Expr.span_shift]
        rw [← hbinary]
        refine moves_lastHeight.bind fun last => ?_
        exact (moves_nodeHeight (max height last) span.start).bind fun _ => ih _ _

theorem moves_chain (least : ℕ) :
    Moves n (Expr.shift n) (chain operand least) (chain operand least) :=
  (moves_primary hoperand).bind fun lhs => moves_remaining.bind fun m =>
    moves_lastHeight.bind fun height => (moves_operations hoperand least m lhs height).bind
      fun measured => moves_note measured

omit hoperand

/-- **The reader of expressions moves with its place.** -/
theorem moves_exprWithin (levels least : ℕ) :
    Moves n (Expr.shift n) (exprWithin levels least) (exprWithin levels least) := by
  induction levels generalizing least with
  | zero => exact moves_tooDeep
  | succ levels ih =>
    rw [exprWithin_succ]
    exact (moves_chain ih least).counted

end Rule

/-! ### Search conditions -/

namespace Search

variable {n : ℕ}

theorem moves_simpleTerm : Moves n (SimpleTerm.shift n) simpleTerm simpleTerm := by
  refine moves_look.bind fun ⟨kind, span⟩ => ?_
  dsimp only [Token.shift]
  cases literal? kind with
  | none => exact moves_unexpected _
  | some literal =>
    exact moves_advance.bind fun _ => (moves_setHeight 1).bind fun _ => moves_pure rfl

theorem moves_weight : Moves n id weight weight := by
  refine moves_look.bind fun ⟨kind, span⟩ => ?_
  dsimp only [Token.shift]
  cases number? kind with
  | none => exact moves_unexpected _
  | some value =>
    dsimp only
    split
    · exact moves_advance.bind fun _ => moves_pure rfl
    · exact moves_throw (.weightOutOfRange span.start value)

theorem moves_weightedItem : Moves n (WeightedItem.shift n) weightedItem weightedItem := by
  refine moves_simpleTerm.bind fun t => (moves_eat? _).bind fun found => ?_
  cases found with
  | none => exact moves_pure rfl
  | some word =>
    refine (moves_expect _).bind fun _ => moves_weight.bind fun value => ?_
    refine (moves_expect _).bind fun closing => moves_pure ?_
    rw [WeightedItem.shift, Span.cover_shift]
    rfl

theorem moves_weightedItems (m : ℕ) :
    Moves n (Prod.map (List.map (WeightedItem.shift n)) (Token.shift n)) (weightedItems m)
      (weightedItems m) := by
  induction m with
  | zero => exact moves_unexpected _
  | succ m ih =>
    refine moves_weightedItem.bind fun i => (moves_eat? _).bind fun found => ?_
    cases found with
    | some closing => exact moves_pure rfl
    | none =>
      refine (moves_eat? _).bind fun found => ?_
      cases found with
      | some comma => exact ih.bind fun _ => moves_pure rfl
      | none => exact moves_unexpected _

theorem moves_weightedTerm : Moves n (Term.shift n) weightedTerm weightedTerm := by
  refine (moves_expect _).bind fun word => (moves_expect _).bind fun _ => ?_
  refine moves_remaining.bind fun m => (moves_weightedItems m).bind fun items => ?_
  refine (moves_setHeight 3).bind fun _ => moves_pure ?_
  rw [Term.shift, Span.cover_shift]
  rfl

theorem moves_generationTerms (m : ℕ) :
    Moves n (Prod.map (List.map (SimpleTerm.shift n)) (Token.shift n)) (generationTerms m)
      (generationTerms m) := by
  induction m with
  | zero => exact moves_unexpected _
  | succ m ih =>
    refine (moves_expect _).bind fun _ => moves_simpleTerm.bind fun t => ?_
    refine (moves_eat? _).bind fun found => ?_
    cases found with
    | some closing => exact moves_pure rfl
    | none => exact ih.bind fun _ => moves_pure rfl

theorem moves_generationTerm : Moves n (Term.shift n) generationTerm generationTerm := by
  refine (moves_expect _).bind fun word => (moves_expect _).bind fun _ => ?_
  refine moves_look.bind fun ⟨kind, span⟩ => ?_
  dsimp only [Token.shift]
  cases GenerationForm.ofKind? kind with
  | none => exact moves_unexpected _
  | some form =>
    refine moves_advance.bind fun _ => moves_remaining.bind fun m => ?_
    refine (moves_generationTerms m).bind fun terms => ?_
    refine (moves_setHeight 2).bind fun _ => moves_pure ?_
    rw [Term.shift, Span.cover_shift]
    rfl

variable {operand : ℕ → Reads Term}
  (hoperand : ∀ least, Moves n (Term.shift n) (operand least) (operand least))

include hoperand

theorem moves_group : Moves n (Term.shift n) (group operand) (group operand) := by
  refine moves_advance.bind fun opening => (hoperand 0).bind fun inner => ?_
  refine (moves_wrap opening.span.start).bind fun _ => ?_
  refine (moves_expect _).bind fun closing => moves_pure ?_
  rw [Term.shift, Span.cover_shift]
  rfl

theorem moves_negation : Moves n (Term.shift n) (negation operand) (negation operand) := by
  refine moves_advance.bind fun token => (hoperand _).bind fun inner => ?_
  refine (moves_wrap token.span.start).bind fun _ => moves_pure ?_
  rw [Term.shift, Span.cover_shift, Term.span_shift]
  rfl

theorem moves_primary : Moves n (Term.shift n) (primary operand) (primary operand) := by
  refine moves_look.bind fun ⟨kind, span⟩ => ?_
  cases kind with
  | string | identifier => exact moves_simpleTerm.bind fun _ => moves_pure rfl
  | symbol sign =>
    cases sign with
    | opening => exact moves_group hoperand
    | bang => exact moves_negation hoperand
    | _ => exact moves_unexpected _
  | keyword word =>
    cases word with
    | not => exact moves_negation hoperand
    | isabout => exact moves_weightedTerm
    | formsof => exact moves_generationTerm
    | _ => exact moves_unexpected _
  | _ => exact moves_unexpected _

theorem moves_connections (least m : ℕ) (lhs : Term) (height : ℕ) :
    Moves n (Prod.map (Term.shift n) id) (connections operand least m lhs height)
      (connections operand least m (lhs.shift n) height) := by
  induction m generalizing lhs height with
  | zero => exact moves_pure rfl
  | succ m ih =>
    refine moves_look.bind fun ⟨kind, span⟩ => ?_
    dsimp only [Token.shift]
    cases Connective.ofKind? kind with
    | none => exact moves_pure rfl
    | some op =>
      dsimp only
      split
      · exact moves_pure rfl
      · refine moves_advance.bind fun _ => (hoperand _).bind fun rhs => ?_
        have hjoined : (Term.joined op lhs rhs (lhs.span.cover rhs.span)).shift n =
            .joined op (lhs.shift n) (rhs.shift n)
              ((lhs.shift n).span.cover (rhs.shift n).span) := by
          rw [Term.shift, Span.cover_shift, Term.span_shift, Term.span_shift]
        rw [← hjoined]
        refine moves_lastHeight.bind fun last => ?_
        exact (moves_nodeHeight (max height last) span.start).bind fun _ => ih _ _

theorem moves_chain (least : ℕ) :
    Moves n (Term.shift n) (chain operand least) (chain operand least) :=
  (moves_primary hoperand).bind fun lhs => moves_remaining.bind fun m =>
    moves_lastHeight.bind fun height => (moves_connections hoperand least m lhs height).bind
      fun measured => moves_note measured

omit hoperand

/-- **The reader of terms moves with its place.** -/
theorem moves_termWithin (levels least : ℕ) :
    Moves n (Term.shift n) (termWithin levels least) (termWithin levels least) := by
  induction levels generalizing least with
  | zero => exact moves_tooDeep
  | succ levels ih =>
    rw [termWithin_succ]
    exact (moves_chain ih least).counted

end Search

namespace Parser

variable {n : ℕ}

theorem moves_expr : Moves n (Expr.shift n) expr expr :=
  moves_levels.bind fun levels => Rule.moves_exprWithin levels 0

theorem moves_term : Moves n (Term.shift n) term term :=
  moves_levels.bind fun levels => Search.moves_termWithin levels 0

end Parser

end SqlPredicates
