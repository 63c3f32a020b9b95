import SqlPredicates.Proofs.NodeOrder

/-!
# The shape of expressions that can be written

Parentheses are nodes of the tree, so the canonical text adds none, and not every tree is the
reading of some text: `1 + 2` under a multiplication needs a parenthesis in between.
`Expr.WellShaped` is the condition under which a tree needs none. It is a condition on every node,
on what its names and literals contain and on how its operands are grouped.

## Two forms of the grouping condition

`Expr.Grouped` states it by the levels of the operators, as it would be explained to a user. Readers
compare binding powers instead: an operand is read up to the first operator that binds less strongly
than a given power. `Expr.edge` is the least power of all the operands that end where the expression
ends, so an operator after the expression is left alone by all of them exactly if it binds less
strongly than that. `Expr.grouped_unary_iff` and `Expr.grouped_binary_iff` pass from the one form to
the other.

The two differ in one place. `NOT` binds less strongly than comparisons, but may stand in front of
any operand, as in `1 + NOT a`. It then takes over every operator after it that is at least as
strong as a comparison, which is why no `NOT` may stand at the right edge of the left operand of
such an operator.

## Main definitions

* `BinaryOp.level` — the levels of binary operators
* `Expr.Lexical`, `Expr.Grouped`, `Expr.WellShaped` — the shape
* `Expr.Holds`, `Expr.edge` — the same in terms of binding powers
-/

namespace SqlPredicates

/-- The level of a binary operator, the loosest first: `OR`, `AND`, comparisons, sums, products. -/
def BinaryOp.level : BinaryOp → ℕ
  | .or => 0
  | .and => 1
  | .equal | .notEqual | .less | .lessEqual | .greater | .greaterEqual | .like => 2
  | .add | .subtract => 3
  | .multiply | .divide | .remainder => 4

namespace Expr

/-! ### Well-shaped expressions -/

/-- The operator of a binary operation. -/
def binaryOp? : Expr → Option BinaryOp
  | binary op _ _ _ => some op
  | _ => none

/-- A `NOT` lies on the right edge, which goes from a binary operation to its right operand and from
a prefix operation to its operand. -/
def EndsInNot : Expr → Prop
  | unary .not _ _ => True
  | unary .neg operand _ => operand.EndsInNot
  | binary _ _ rhs _ => rhs.EndsInNot
  | _ => False

/-- The names and the literal of a node can be written: no name has a closing bracket, and no string
its own quote. -/
def Lexical : Expr → Prop
  | string value _ => value.quote.char ∉ value.text.toList
  | var ident => ']' ∉ ident.name.toList
  | call ident _ _ _ => ']' ∉ ident.name.toList
  | _ => True

/-- The operands of a node are grouped as they are read. The operand of `NOT` is no `AND` and no
`OR`, and that of a minus sign no binary operation. The left operand of a binary operation is not of
a looser level, and the right operand is of a tighter one; from comparisons on, no `NOT` lies on the
right edge of the left operand. -/
def Grouped : Expr → Prop
  | unary .not operand _ => operand.binaryOp? ≠ some .and ∧ operand.binaryOp? ≠ some .or
  | unary .neg operand _ => operand.binaryOp? = none
  | binary op lhs rhs _ =>
    (∀ op', lhs.binaryOp? = some op' → op.level ≤ op'.level) ∧
      (∀ op', rhs.binaryOp? = some op' → op.level < op'.level) ∧
      (BinaryOp.equal.level ≤ op.level → ¬ lhs.EndsInNot)
  | _ => True

/-- Every node of the expression can be written and is grouped as it is read. -/
def WellShaped (e : Expr) : Prop := e.Everywhere fun inner => inner.Lexical ∧ inner.Grouped

/-! ### Binding powers -/

/-- The operator at the top binds at least as strongly as `least`. -/
def Holds (least : ℕ) (e : Expr) : Prop := ∀ op, e.binaryOp? = some op → least ≤ op.leftPower

/-- The least power of the operands that end where the expression ends; more than every power if
there are none. -/
def edge : Expr → ℕ
  | unary op operand _ => min op.power operand.edge
  | binary op _ rhs _ => min op.rightPower rhs.edge
  | _ => 13

theorem holds_zero (e : Expr) : e.Holds 0 := fun _ _ => Nat.zero_le _

theorem holds_of_binaryOp?_eq_none {e : Expr} (h : e.binaryOp? = none) (least : ℕ) :
    e.Holds least := by
  intro op hop
  rw [h] at hop
  cases hop

end Expr

namespace BinaryOp

theorem leftPower_lt_rightPower_iff (op op' : BinaryOp) :
    op.leftPower < op'.rightPower ↔ op.level ≤ op'.level := by
  cases op <;> cases op' <;> decide

theorem rightPower_le_leftPower_iff (op op' : BinaryOp) :
    op.rightPower ≤ op'.leftPower ↔ op.level < op'.level := by
  cases op <;> cases op' <;> decide

theorem leftPower_lt_power_neg (op : BinaryOp) : op.leftPower < UnaryOp.neg.power := by
  cases op <;> decide

theorem leftPower_lt_power_not_iff (op : BinaryOp) :
    op.leftPower < UnaryOp.not.power ↔ op.level < equal.level := by
  cases op <;> decide

theorem power_not_le_leftPower_iff (op : BinaryOp) :
    UnaryOp.not.power ≤ op.leftPower ↔ op ≠ .and ∧ op ≠ .or := by
  cases op <;> decide

end BinaryOp

namespace Expr

/-- The operand of a prefix operator is grouped when its own operator holds against the power. -/
theorem grouped_unary_iff {op : UnaryOp} {operand : Expr} {span : Span} :
    (unary op operand span).Grouped ↔ operand.Holds op.power := by
  cases op with
  | not =>
    simp only [Grouped, Holds, BinaryOp.power_not_le_leftPower_iff]
    constructor
    · rintro ⟨hand, hor⟩ op hop
      exact ⟨fun h => hand (h ▸ hop), fun h => hor (h ▸ hop)⟩
    · intro h
      exact ⟨fun hand => (h _ hand).1 rfl, fun hor => (h _ hor).2 rfl⟩
  | neg =>
    refine ⟨fun h => holds_of_binaryOp?_eq_none h _, fun h => ?_⟩
    cases hop : operand.binaryOp? with
    | none => exact hop
    | some op => exact absurd (h op hop) (Nat.not_le.mpr op.leftPower_lt_power_neg)

theorem edge_le_of_endsInNot {e : Expr} (h : e.EndsInNot) : e.edge ≤ UnaryOp.not.power := by
  induction e using induction_on_parts with
  | _ e ih =>
    cases e with
    | unary op operand span =>
      cases op with
      | not => exact Nat.min_le_left _ _
      | neg => exact Nat.le_trans (Nat.min_le_right _ _) (ih operand (by simp [parts]) h)
    | binary op lhs rhs span =>
      exact Nat.le_trans (Nat.min_le_right _ _) (ih rhs (by simp [parts]) h)
    | _ => exact h.elim

/-- An operator after a grouped expression that binds less strongly than its topmost operator, and
than `NOT` if the expression ends in one, binds less strongly than all operands that end there. -/
theorem leftPower_lt_edge {e : Expr} (he : e.Everywhere Grouped) {op : BinaryOp}
    (htop : ∀ op', e.binaryOp? = some op' → op.leftPower < op'.rightPower)
    (hnot : e.EndsInNot → op.leftPower < UnaryOp.not.power) : op.leftPower < e.edge := by
  induction e using induction_on_parts with
  | _ e ih =>
    obtain ⟨hnode, hparts⟩ := everywhere_iff.mp he
    cases e with
    | unary uop operand span =>
      have hmem : operand ∈ (unary uop operand span).parts := List.mem_singleton_self _
      have hholds := grouped_unary_iff.mp hnode
      have hpower : op.leftPower < uop.power := by
        cases uop with
        | not => exact hnot trivial
        | neg => exact op.leftPower_lt_power_neg
      refine Nat.lt_min.mpr ⟨hpower, ih operand hmem (hparts _ hmem) ?_ ?_⟩
      · intro op' hop'
        exact Nat.lt_succ_of_lt (Nat.lt_of_lt_of_le hpower (hholds op' hop'))
      · intro hend
        cases uop with
        | not => exact hpower
        | neg => exact hnot hend
    | binary bop lhs rhs span =>
      have hmem : rhs ∈ (binary bop lhs rhs span).parts := by simp [parts]
      refine Nat.lt_min.mpr ⟨htop bop rfl, ih rhs hmem (hparts _ hmem) (fun op' hop' => ?_) hnot⟩
      have hlevel := hnode.2.1 op' hop'
      rw [BinaryOp.leftPower_lt_rightPower_iff]
      have hle := (op.leftPower_lt_rightPower_iff bop).mp (htop bop rfl)
      exact Nat.le_trans hle (Nat.le_of_lt hlevel)
    | _ => exact Nat.lt_succ_of_lt op.leftPower_lt_power_neg

/-- The operands of a binary operation are grouped when the operator is left alone by all operands
that end with the left one, and the operator of the right one holds against the power there. -/
theorem grouped_binary_iff {op : BinaryOp} {lhs rhs : Expr} {span : Span}
    (hlhs : lhs.Everywhere Grouped) :
    (binary op lhs rhs span).Grouped ↔ op.leftPower < lhs.edge ∧ rhs.Holds op.rightPower := by
  constructor
  · rintro ⟨hleft, hright, hnot⟩
    refine ⟨leftPower_lt_edge hlhs (fun op' hop' => ?_) fun hend => ?_, fun op' hop' => ?_⟩
    · exact (op.leftPower_lt_rightPower_iff op').mpr (hleft op' hop')
    · rw [BinaryOp.leftPower_lt_power_not_iff]
      exact Nat.lt_of_not_le fun hlevel => hnot hlevel hend
    · exact (op.rightPower_le_leftPower_iff op').mpr (hright op' hop')
  · rintro ⟨hedge, hright⟩
    refine ⟨fun op' hop' => ?_, fun op' hop' => ?_, fun hlevel hend => ?_⟩
    · cases lhs with
      | binary bop l r s =>
        cases hop'
        rw [← BinaryOp.leftPower_lt_rightPower_iff]
        exact Nat.lt_of_lt_of_le hedge (Nat.min_le_left _ _)
      | _ => cases hop'
    · exact (op.rightPower_le_leftPower_iff op').mp (hright op' hop')
    · have hlt := Nat.lt_of_lt_of_le hedge (edge_le_of_endsInNot hend)
      rw [BinaryOp.leftPower_lt_power_not_iff] at hlt
      exact Nat.not_le_of_lt hlt hlevel

end Expr

end SqlPredicates
