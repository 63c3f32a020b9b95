import SqlPredicates.Proofs.Rule.Height
import SqlPredicates.Proofs.Search.Shape

/-!
# The height of search terms

`Term.height` says 3 of every `ISABOUT` and 2 of every `FORMSOF`, without a look at their lists. That
is the number of nodes on the longest chain as long as the lists are not empty: below an `ISABOUT`
stands an alternative, and below that its word or phrase. Terms that can be written have no empty
list, so for them the height is what it is for expressions.

## Main results

* `Term.isGreatest_height` — the height is the number of nodes on the longest chain
-/

namespace SqlPredicates

namespace Term

theorem eq_one_of_hasChain_simple {t : SimpleTerm} {n : ℕ} (h : (Node.term (.simple t)).HasChain n) :
    n = 1 := by
  cases h with
  | single => rfl
  | cons hchild _ => cases hchild

theorem le_two_of_hasChain_item {i : WeightedItem} {n : ℕ} (h : (Node.item i).HasChain n) : n ≤ 2 := by
  cases h with
  | single => exact Nat.le_succ 1
  | cons hchild h =>
    obtain rfl := List.mem_singleton.mp hchild
    rw [eq_one_of_hasChain_simple h]

theorem hasChain_height {t : Term} (h : t.Writable) : (Node.term t).HasChain t.height := by
  induction t with
  | simple => exact .single _
  | weighted items span =>
    obtain ⟨i, hi⟩ := List.exists_mem_of_ne_nil items h.1
    exact .cons (List.mem_map_of_mem hi) (.cons (List.mem_singleton_self _) (.single _))
  | generation form terms span =>
    obtain ⟨t, ht⟩ := List.exists_mem_of_ne_nil terms h.1
    exact .cons (List.mem_map_of_mem ht) (.single _)
  | group inner span ih | not inner span ih => exact .cons (List.mem_singleton_self _) (ih h)
  | joined op lhs rhs span ihl ihr =>
    rw [height]
    rcases Nat.le_total lhs.height rhs.height with hle | hle
    · rw [Nat.max_eq_right hle]
      exact .cons (by simp [Node.children]) (ihr h.2)
    · rw [Nat.max_eq_left hle]
      exact .cons (by simp [Node.children]) (ihl h.1)

theorem le_height_of_hasChain {t : Term} {n : ℕ} (h : (Node.term t).HasChain n) :
    n ≤ t.height := by
  induction t generalizing n with
  | simple => exact Nat.le_of_eq (eq_one_of_hasChain_simple h)
  | weighted items span =>
    cases h with
    | single => exact Nat.le_add_left 1 2
    | cons hchild h =>
      obtain ⟨i, -, rfl⟩ := List.mem_map.mp hchild
      exact Nat.succ_le_succ (le_two_of_hasChain_item h)
  | generation form terms span =>
    cases h with
    | single => exact Nat.le_add_left 1 1
    | cons hchild h =>
      obtain ⟨t, -, rfl⟩ := List.mem_map.mp hchild
      exact Nat.succ_le_succ (Nat.le_of_eq (eq_one_of_hasChain_simple h))
  | group inner span ih | not inner span ih =>
    cases h with
    | single => exact Nat.le_add_left 1 _
    | cons hchild h =>
      obtain rfl := List.mem_singleton.mp hchild
      exact Nat.succ_le_succ (ih h)
  | joined op lhs rhs span ihl ihr =>
    cases h with
    | single => exact Nat.le_add_left 1 _
    | cons hchild h =>
      simp only [Node.children, List.mem_cons, List.not_mem_nil, or_false] at hchild
      rcases hchild with rfl | rfl
      · exact Nat.succ_le_succ (Nat.le_trans (ihl h) (Nat.le_max_left _ _))
      · exact Nat.succ_le_succ (Nat.le_trans (ihr h) (Nat.le_max_right _ _))

/-- **The height of a term is the number of nodes on the longest chain** down from it. -/
theorem isGreatest_height {t : Term} (h : t.Writable) :
    IsGreatest {n | (Node.term t).HasChain n} t.height :=
  ⟨hasChain_height h, fun _ => le_height_of_hasChain⟩

end Term

end SqlPredicates
