import SqlPredicates.Proofs.NodeOrder
import Mathlib.Order.Bounds.Basic

/-!
# The height of expressions

`Expr.height` counts nodes along the longest way down, with two nodes for a call: itself and its
list of arguments. Here this is stated about `Node.children`, which is where a call and its argument
list are two nodes.

## Main definitions

* `Node.HasChain` — a number of nodes, each below the one before it

## Main results

* `Expr.isGreatest_height` — the height is the number of nodes on the longest chain
-/

namespace SqlPredicates

/-- There are `n` nodes, of which the first is `node` and each is a child of the one before it. -/
inductive Node.HasChain : Node → ℕ → Prop
  | single (node : Node) : HasChain node 1
  | cons {node child : Node} {n : ℕ} (hchild : child ∈ node.children) (h : HasChain child n) :
      HasChain node (n + 1)

namespace Expr

theorem height_pos (e : Expr) : 0 < e.height := by
  cases e <;> exact Nat.succ_pos _

theorem height_le_tallest {e : Expr} {es : List Expr} (h : e ∈ es) : e.height ≤ tallest es := by
  induction es with
  | nil => cases h
  | cons e' es ih =>
    rw [tallest]
    rcases List.mem_cons.mp h with rfl | h
    · exact Nat.le_max_left _ _
    · exact Nat.le_trans (ih h) (Nat.le_max_right _ _)

theorem exists_height_eq_tallest (e : Expr) (es : List Expr) :
    ∃ e' ∈ e :: es, e'.height = tallest (e :: es) := by
  induction es generalizing e with
  | nil => exact ⟨e, List.mem_singleton_self e, (Nat.max_zero _).symm⟩
  | cons e₂ es ih =>
    obtain ⟨e', hmem, hheight⟩ := ih e₂
    rcases Nat.le_total e.height (tallest (e₂ :: es)) with hle | hle
    · exact ⟨e', List.mem_cons_of_mem _ hmem, hheight.trans (Nat.max_eq_right hle).symm⟩
    · exact ⟨e, List.mem_cons_self, (Nat.max_eq_left hle).symm⟩

theorem hasChain_arguments {args : List Expr} (h : ∀ e ∈ args, (Node.expr e).HasChain e.height)
    (span : Span) : (Node.arguments args span).HasChain (tallest args + 1) := by
  cases args with
  | nil => exact .single _
  | cons e es =>
    obtain ⟨e', hmem, hheight⟩ := exists_height_eq_tallest e es
    rw [← hheight]
    exact .cons (List.mem_map_of_mem hmem) (h e' hmem)

theorem hasChain_height (e : Expr) : (Node.expr e).HasChain e.height := by
  induction e using induction_on_parts with
  | _ e ih =>
    cases e with
    | integer | string | var => exact .single _
    | call ident args argsSpan span =>
      exact .cons (List.mem_singleton_self _) (hasChain_arguments ih argsSpan)
    | paren inner span =>
      exact .cons (List.mem_singleton_self _) (ih inner (List.mem_singleton_self _))
    | unary op operand span =>
      exact .cons (List.mem_singleton_self _) (ih operand (List.mem_singleton_self _))
    | binary op lhs rhs span =>
      have hchild : ∀ part ∈ [lhs, rhs],
          (Node.expr (binary op lhs rhs span)).HasChain (part.height + 1) := fun part hp =>
        .cons (List.mem_map_of_mem hp) (ih part hp)
      rw [height]
      rcases Nat.le_total lhs.height rhs.height with hle | hle
      · rw [Nat.max_eq_right hle]
        exact hchild rhs (by simp)
      · rw [Nat.max_eq_left hle]
        exact hchild lhs (by simp)

theorem le_tallest_of_hasChain {args : List Expr} {span : Span} {n : ℕ}
    (hargs : ∀ e ∈ args, ∀ m, (Node.expr e).HasChain m → m ≤ e.height)
    (h : (Node.arguments args span).HasChain n) : n ≤ tallest args + 1 := by
  cases h with
  | single => exact Nat.le_add_left 1 _
  | cons hchild h =>
    obtain ⟨e, he, rfl⟩ := List.mem_map.mp hchild
    exact Nat.succ_le_succ (Nat.le_trans (hargs e he _ h) (height_le_tallest he))

theorem le_height_of_hasChain {e : Expr} {n : ℕ} (h : (Node.expr e).HasChain n) : n ≤ e.height := by
  induction e using induction_on_parts generalizing n with
  | _ e ih =>
    cases h with
    | single => exact e.height_pos
    | cons hchild h =>
      cases e with
      | integer | string | var => cases hchild
      | call ident args argsSpan span =>
        obtain rfl := List.mem_singleton.mp hchild
        exact Nat.succ_le_succ (le_tallest_of_hasChain (fun e he m hm => ih e he hm) h)
      | paren inner span =>
        obtain rfl := List.mem_singleton.mp hchild
        exact Nat.succ_le_succ (ih inner (List.mem_singleton_self _) h)
      | unary op operand span =>
        obtain rfl := List.mem_singleton.mp hchild
        exact Nat.succ_le_succ (ih operand (List.mem_singleton_self _) h)
      | binary op lhs rhs span =>
        obtain ⟨part, hp, rfl⟩ := List.mem_map.mp (show _ ∈ [lhs, rhs].map Node.expr from hchild)
        refine Nat.succ_le_succ (Nat.le_trans (ih part hp h) ?_)
        simp only [List.mem_cons, List.not_mem_nil, or_false] at hp
        rcases hp with rfl | rfl
        · exact Nat.le_max_left _ _
        · exact Nat.le_max_right _ _

/-- **The height of an expression is the number of nodes on the longest chain** down from it. -/
theorem isGreatest_height (e : Expr) : IsGreatest {n | (Node.expr e).HasChain n} e.height :=
  ⟨e.hasChain_height, fun _ h => le_height_of_hasChain h⟩

end Expr

end SqlPredicates
