import SqlPredicates.Search.Printer
import Mathlib.Tactic.Common

/-!
# The shape of search terms that can be written

As in naming rules, groups are nodes of the tree and the canonical text adds no parentheses, so only
some trees are readings of a text. `Term.WellShaped` is the condition for that: the leaves can be
written (`Term.Writable`), and the terms are grouped as they are read (`Term.Grouped`).

`Term.Grouped` is stated by the levels of the connectives. Readers compare binding powers;
`Term.edge` is the least power of all the operands that end where the term ends, and
`Term.grouped_not_iff` and `Term.grouped_joined_iff` pass from the one form to the other. A negation
binds less strongly than `NEAR` but may stand on either side of it. On the left side it would take
over the `NEAR`, which is why no negation may stand at the right edge there.

None of this depends on the places of the nodes. `Term.erase` puts every place at the start of the
text, so two terms agree up to places exactly if they become equal.

## Main definitions

* `Term.Writable`, `Term.Grouped`, `Term.WellShaped` — the shape
* `Term.Holds`, `Term.edge` — the same in terms of binding powers
* `Term.erase` — all places put at the start of the text

## Main results

* `Term.grouped_not_iff`, `Term.grouped_joined_iff` — grouping by levels and by powers
* `Term.height_erase`, `Term.render_erase`, `Term.wellShaped_erase` — what does not depend on places
-/

namespace SqlPredicates

/-- The level of a connective, the loosest first. -/
def Connective.level : Connective → ℕ
  | .or => 0
  | .and => 1
  | .near => 2

/-- A bare word has no closing bracket, and a phrase has not its own quote. -/
def SimpleTerm.Writable (t : SimpleTerm) : Prop :=
  match t.literal with
  | .word text => ']' ∉ text.toList
  | .phrase quoted => quoted.quote.char ∉ quoted.text.toList

/-- The word or phrase can be written, and the weight, if there is one, is at most one. -/
def WeightedItem.Writable (i : WeightedItem) : Prop :=
  i.term.Writable ∧ ∀ weight ∈ i.weight, weight.le Binary64.one = true

namespace Term

/-! ### Well-shaped terms -/

/-- The connective at the top. -/
def connective? : Term → Option Connective
  | joined op _ _ _ => some op
  | _ => none

/-- A negation lies on the right edge, which goes from a joined term to its right side and from a
negation to its operand. -/
def EndsInNot : Term → Prop
  | not _ _ => True
  | joined _ _ rhs _ => rhs.EndsInNot
  | _ => False

/-- All words, phrases and weights can be written, and no list of them is empty. -/
def Writable : Term → Prop
  | simple t => t.Writable
  | weighted items _ => items ≠ [] ∧ ∀ i ∈ items, i.Writable
  | generation _ terms _ => terms ≠ [] ∧ ∀ t ∈ terms, t.Writable
  | group inner _ => inner.Writable
  | not inner _ => inner.Writable
  | joined _ lhs rhs _ => lhs.Writable ∧ rhs.Writable

/-- All terms are grouped as they are read. The operand of a negation is joined neither by `AND` nor
by `OR`. The left side of a joined term is not joined by a looser connective, and the right side
only by a tighter one; no negation lies on the right edge of the left side of a `NEAR`. -/
def Grouped : Term → Prop
  | simple _ | weighted _ _ | generation _ _ _ => True
  | group inner _ => inner.Grouped
  | not inner _ =>
    inner.Grouped ∧ inner.connective? ≠ some .and ∧ inner.connective? ≠ some .or
  | joined op lhs rhs _ =>
    lhs.Grouped ∧ rhs.Grouped ∧
      (∀ op', lhs.connective? = some op' → op.level ≤ op'.level) ∧
      (∀ op', rhs.connective? = some op' → op.level < op'.level) ∧
      (op = .near → ¬ lhs.EndsInNot)

/-- The term can be written and is grouped as it is read. -/
def WellShaped (t : Term) : Prop := t.Writable ∧ t.Grouped

/-! ### Binding powers -/

/-- The connective at the top binds at least as strongly as `least`. -/
def Holds (least : ℕ) (t : Term) : Prop := ∀ op, t.connective? = some op → least ≤ op.leftPower

/-- The least power of the operands that end where the term ends; more than every power if there are
none. -/
def edge : Term → ℕ
  | not inner _ => min Connective.notPower inner.edge
  | joined op _ rhs _ => min op.rightPower rhs.edge
  | _ => 8

theorem holds_zero (t : Term) : t.Holds 0 := fun _ _ => Nat.zero_le _

theorem holds_of_connective?_eq_none {t : Term} (h : t.connective? = none) (least : ℕ) :
    t.Holds least := by
  intro op hop
  rw [h] at hop
  cases hop

end Term

namespace Connective

theorem leftPower_lt_rightPower_iff (op op' : Connective) :
    op.leftPower < op'.rightPower ↔ op.level ≤ op'.level := by
  cases op <;> cases op' <;> decide

theorem rightPower_le_leftPower_iff (op op' : Connective) :
    op.rightPower ≤ op'.leftPower ↔ op.level < op'.level := by
  cases op <;> cases op' <;> decide

theorem leftPower_lt_notPower_iff (op : Connective) : op.leftPower < notPower ↔ op ≠ .near := by
  cases op <;> decide

theorem notPower_le_leftPower_iff (op : Connective) :
    notPower ≤ op.leftPower ↔ op ≠ .and ∧ op ≠ .or := by
  cases op <;> decide

theorem leftPower_lt_eight (op : Connective) : op.leftPower < 8 := by
  cases op <;> decide

end Connective

namespace Term

/-- The operand of a negation is grouped when its own connective holds against the power. -/
theorem grouped_not_iff {inner : Term} {span : Span} :
    (not inner span).Grouped ↔ inner.Grouped ∧ inner.Holds Connective.notPower := by
  rw [Grouped]
  refine and_congr_right fun _ => ?_
  simp only [Holds, Connective.notPower_le_leftPower_iff]
  constructor
  · rintro ⟨hand, hor⟩ op hop
    exact ⟨fun h => hand (h ▸ hop), fun h => hor (h ▸ hop)⟩
  · intro h
    exact ⟨fun hand => (h _ hand).1 rfl, fun hor => (h _ hor).2 rfl⟩

theorem edge_le_of_endsInNot {t : Term} (h : t.EndsInNot) : t.edge ≤ Connective.notPower := by
  induction t with
  | not inner span => exact Nat.min_le_left _ _
  | joined op lhs rhs span _ ih => exact Nat.le_trans (Nat.min_le_right _ _) (ih h)
  | _ => exact h.elim

/-- A connective after a grouped term that binds less strongly than its topmost connective, and than
a negation if the term ends in one, binds less strongly than all operands that end there. -/
theorem leftPower_lt_edge {t : Term} (ht : t.Grouped) {op : Connective}
    (htop : ∀ op', t.connective? = some op' → op.leftPower < op'.rightPower)
    (hnot : t.EndsInNot → op.leftPower < Connective.notPower) : op.leftPower < t.edge := by
  induction t with
  | simple | weighted | generation | group => exact op.leftPower_lt_eight
  | not inner span ih =>
    obtain ⟨hinner, hholds⟩ := grouped_not_iff.mp ht
    have hpower := hnot trivial
    refine Nat.lt_min.mpr ⟨hpower, ih hinner (fun op' hop' => ?_) fun _ => hpower⟩
    exact Nat.lt_succ_of_lt (Nat.lt_of_lt_of_le hpower (hholds op' hop'))
  | joined op' lhs rhs span _ ih =>
    obtain ⟨-, hrhs, -, hright, -⟩ := ht
    refine Nat.lt_min.mpr ⟨htop op' rfl, ih hrhs (fun op'' hop'' => ?_) hnot⟩
    have hlevel := (op.leftPower_lt_rightPower_iff op').mp (htop op' rfl)
    rw [Connective.leftPower_lt_rightPower_iff]
    exact Nat.le_trans hlevel (Nat.le_of_lt (hright op'' hop''))

/-- The sides of a joined term are grouped when the connective is left alone by all operands that
end with the left side, and the connective of the right side holds against the power there. -/
theorem grouped_joined_iff {op : Connective} {lhs rhs : Term} {span : Span} :
    (joined op lhs rhs span).Grouped ↔
      lhs.Grouped ∧ rhs.Grouped ∧ op.leftPower < lhs.edge ∧ rhs.Holds op.rightPower := by
  rw [Grouped]
  refine and_congr_right fun hlhs => and_congr_right fun _ => ?_
  constructor
  · rintro ⟨hleft, hright, hnot⟩
    refine ⟨leftPower_lt_edge hlhs (fun op' hop' => ?_) fun hend => ?_, fun op' hop' => ?_⟩
    · exact (op.leftPower_lt_rightPower_iff op').mpr (hleft op' hop')
    · exact op.leftPower_lt_notPower_iff.mpr fun hnear => hnot hnear hend
    · exact (op.rightPower_le_leftPower_iff op').mpr (hright op' hop')
  · rintro ⟨hedge, hright⟩
    refine ⟨fun op' hop' => ?_, fun op' hop' => ?_, fun hnear hend => ?_⟩
    · cases lhs with
      | joined op'' l r s =>
        cases hop'
        rw [← Connective.leftPower_lt_rightPower_iff]
        exact Nat.lt_of_lt_of_le hedge (Nat.min_le_left _ _)
      | _ => cases hop'
    · exact (op.rightPower_le_leftPower_iff op').mp (hright op' hop')
    · have hlt := Nat.lt_of_lt_of_le hedge (edge_le_of_endsInNot hend)
      exact op.leftPower_lt_notPower_iff.mp hlt hnear

end Term

/-! ### Places -/

/-- The word or phrase with its place put at the start of the text. -/
def SimpleTerm.erase (t : SimpleTerm) : SimpleTerm := { t with span := .point 0 }

/-- The alternative with its places put at the start of the text. -/
def WeightedItem.erase (i : WeightedItem) : WeightedItem :=
  { i with term := i.term.erase, span := .point 0 }

namespace Term

/-- The term with every place put at the start of the text. -/
def erase : Term → Term
  | simple t => simple t.erase
  | weighted items _ => weighted (items.map WeightedItem.erase) (.point 0)
  | generation form terms _ => generation form (terms.map SimpleTerm.erase) (.point 0)
  | group inner _ => group inner.erase (.point 0)
  | not inner _ => not inner.erase (.point 0)
  | joined op lhs rhs _ => joined op lhs.erase rhs.erase (.point 0)

theorem height_erase (t : Term) : t.erase.height = t.height := by
  induction t with
  | simple | weighted | generation => rfl
  | group inner span ih | not inner span ih => rw [erase, height, height, ih]
  | joined op lhs rhs span ihl ihr => rw [erase, height, height, ihl, ihr]

theorem render_erase (t : Term) : t.erase.render = t.render := by
  induction t with
  | simple => rfl
  | weighted items span =>
    have hitems : (items.map WeightedItem.erase).map WeightedItem.render =
        items.map WeightedItem.render := by
      rw [List.map_map]
      rfl
    rw [erase, render, render, hitems]
  | generation form terms span =>
    have hterms : (terms.map SimpleTerm.erase).map SimpleTerm.render =
        terms.map SimpleTerm.render := by
      rw [List.map_map]
      rfl
    rw [erase, render, render, hterms]
  | group inner span ih | not inner span ih => rw [erase, render, render, ih]
  | joined op lhs rhs span ihl ihr => rw [erase, render, render, ihl, ihr]

theorem connective?_erase (t : Term) : t.erase.connective? = t.connective? := by
  cases t <;> rfl

theorem endsInNot_erase (t : Term) : t.erase.EndsInNot ↔ t.EndsInNot := by
  induction t with
  | joined op lhs rhs span _ ih => exact ih
  | _ => exact Iff.rfl

theorem writable_erase (t : Term) : t.erase.Writable ↔ t.Writable := by
  induction t with
  | simple => exact Iff.rfl
  | weighted items span =>
    refine and_congr (by simp) ?_
    rw [List.forall_mem_map]
    exact Iff.rfl
  | generation form terms span =>
    refine and_congr (by simp) ?_
    rw [List.forall_mem_map]
    exact Iff.rfl
  | group inner span ih | not inner span ih => exact ih
  | joined op lhs rhs span ihl ihr => exact and_congr ihl ihr

theorem grouped_erase (t : Term) : t.erase.Grouped ↔ t.Grouped := by
  induction t with
  | simple | weighted | generation => exact Iff.rfl
  | group inner span ih => exact ih
  | not inner span ih => simp only [erase, Grouped, connective?_erase, ih]
  | joined op lhs rhs span ihl ihr =>
    simp only [erase, Grouped, connective?_erase, endsInNot_erase, ihl, ihr]

theorem wellShaped_erase (t : Term) : t.erase.WellShaped ↔ t.WellShaped :=
  and_congr t.writable_erase t.grouped_erase

end Term

end SqlPredicates
