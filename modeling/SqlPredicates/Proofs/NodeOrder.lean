import SqlPredicates.Node
import Mathlib.Algebra.BigOperators.Group.List.Basic
import Mathlib.Algebra.GroupWithZero.Nat
import Mathlib.Algebra.Order.BigOperators.Group.List
import Mathlib.Algebra.Order.Group.Nat
import Mathlib.Tactic.Common

/-!
# The order of nodes

`Node.descendants` takes nodes from a stack, for as many steps as the root has nodes. This file
shows that the number of steps is the right one, so that the list obeys the recursion of the tree: a
node, then what is below its children, one child after the other.

Nothing after this file looks at the stack or at the count again.

## Main results

* `Node.size_eq` — the count of a node is one more than the counts of its children
* `Node.unstack_eq_flatMap` — with enough steps the stack is worked off node by node
* `Node.descendants_eq` — the recursion of the tree
* `Node.of_mem_descendants` — what passes to children passes to all nodes below
* `Expr.within_iff` — the expressions inside an expression, by its parts
* `Expr.induction_on_parts` — induction on expressions without a second induction on argument lists
* `Expr.everywhere_iff` — properties of all expressions inside, by parts
* `Term.within_iff`, `Term.induction_on_parts` — the same for search terms
-/

namespace SqlPredicates

namespace Node

/-! ### Counting -/

theorem sum_map_size_expr (es : List Expr) :
    ((es.map expr).map size).sum = Expr.sizeAll es := by
  induction es with
  | nil => rfl
  | cons e es ih => simp only [List.map_cons, List.sum_cons, Expr.sizeAll, ih]; rfl

/-- The count of a node is one more than the counts of its children. -/
theorem size_eq (node : Node) : node.size = (node.children.map size).sum + 1 := by
  match node with
  | expr (.integer ..) | expr (.string ..) | expr (.var ..) => rfl
  | expr (.call _ args _ _) => simp [children, size, Expr.size]
  | expr (.paren ..) | expr (.unary ..) => simp [children, size, Expr.size]
  | expr (.binary ..) => simp [children, size, Expr.size]
  | arguments args _ => rw [children, sum_map_size_expr]; rfl
  | term (.simple ..) => rfl
  | term (.weighted items _) =>
    have hitem : size ∘ item = fun _ => 2 := rfl
    simp [children, size, Term.size, hitem]
    omega
  | term (.generation _ terms _) =>
    have hterm : size ∘ (fun t => term (.simple t)) = fun _ => 1 := rfl
    simp [children, size, Term.size, hterm]
  | term (.group ..) | term (.not ..) => simp [children, size, Term.size]
  | term (.joined ..) => simp [children, size, Term.size]
  | item _ => simp [children, size, Term.size]

/-! ### The stack -/

/-- With as many steps as there are nodes on the stack, each of its nodes is worked off completely
before the next one. The induction is on the number of nodes, which every step lowers by one. -/
theorem unstack_eq_flatMap {n : ℕ} {stack : List Node} (h : (stack.map size).sum ≤ n) :
    unstack n stack = stack.flatMap descendants := by
  obtain ⟨total, htotal⟩ : ∃ total, (stack.map size).sum = total := ⟨_, rfl⟩
  induction total using Nat.strongRecOn generalizing n stack with
  | _ total ih =>
    cases stack with
    | nil => cases n <;> rfl
    | cons node stack =>
      have hsize := size_eq node
      simp only [List.map_cons, List.sum_cons] at h htotal
      obtain ⟨n, rfl⟩ : ∃ m, n = m + 1 := ⟨n - 1, by omega⟩
      have hbelow : node.descendants = node :: node.children.flatMap descendants := by
        rw [descendants, hsize, unstack, List.append_nil]
        exact congrArg _ (ih _ (by omega) (Nat.le_refl _) rfl)
      have hsum : ((node.children ++ stack).map size).sum
          = (node.children.map size).sum + (stack.map size).sum := by simp
      rw [unstack, ih _ (by omega) (by omega) rfl, List.flatMap_append, List.flatMap_cons, hbelow,
        List.cons_append]

/-- A node comes first, and then what is below its children, in their order. -/
theorem descendants_eq (node : Node) :
    node.descendants = node :: node.children.flatMap descendants := by
  rw [descendants, size_eq node, unstack, List.append_nil]
  exact congrArg _ (unstack_eq_flatMap (Nat.le_refl _))

theorem size_lt_of_mem_children {node child : Node} (h : child ∈ node.children) :
    child.size < node.size := by
  have hle : child.size ≤ (node.children.map size).sum :=
    List.le_sum_of_mem (List.mem_map_of_mem h)
  rw [size_eq node]
  omega

/-- What passes from every node to its children passes to all nodes below. -/
theorem of_mem_descendants {P : Node → Prop}
    (hchildren : ∀ node child, P node → child ∈ node.children → P child) {root node : Node}
    (hroot : P root) (h : node ∈ root.descendants) : P node := by
  induction hsize : root.size using Nat.strongRecOn generalizing root with
  | _ size ih =>
    subst hsize
    rw [descendants_eq, List.mem_cons, List.mem_flatMap] at h
    rcases h with rfl | ⟨child, hchild, h⟩
    · exact hroot
    · exact ih _ (size_lt_of_mem_children hchild) (hchildren root child hroot hchild) h rfl

end Node

/-! ### Expressions inside an expression -/

/-- The expression that a node stands for. -/
def Node.expr? : Node → Option Expr
  | expr e => some e
  | _ => none

theorem Node.expr?_eq_some {node : Node} {e : Expr} : node.expr? = some e ↔ node = expr e := by
  cases node with
  | expr e' => simp [expr?]
  | _ => simp [expr?]

namespace Expr

/-- The expressions directly below an expression. For a call these are its arguments, which stand
two levels of nodes below it. -/
def parts : Expr → List Expr
  | integer .. | string .. | var .. => []
  | call _ args _ _ => args
  | paren inner _ => [inner]
  | unary _ operand _ => [operand]
  | binary _ lhs rhs _ => [lhs, rhs]

/-- `inner` is one of the nodes of `e`, possibly `e` itself. -/
def Within (inner e : Expr) : Prop := Node.expr inner ∈ (Node.expr e).descendants

theorem within_arguments_iff {inner : Expr} {args : List Expr} {span : Span} :
    Node.expr inner ∈ (Node.arguments args span).descendants ↔ ∃ e ∈ args, inner.Within e := by
  rw [Node.descendants_eq, List.mem_cons, List.mem_flatMap]
  simp [Node.children, Within]

/-- An expression inside another is that expression or inside one of its parts. -/
theorem within_iff {inner e : Expr} :
    inner.Within e ↔ inner = e ∨ ∃ part ∈ e.parts, inner.Within part := by
  rw [Within, Node.descendants_eq, List.mem_cons, List.mem_flatMap, Node.expr.injEq]
  refine or_congr_right ?_
  cases e with
  | call ident args argsSpan span => simp [Node.children, parts, within_arguments_iff]
  | _ => simp [Node.children, parts, Within]

theorem within_refl (e : Expr) : e.Within e := within_iff.mpr (.inl rfl)

theorem Within.of_part {inner part e : Expr} (h : inner.Within part) (hp : part ∈ e.parts) :
    inner.Within e :=
  within_iff.mpr (.inr ⟨part, hp, h⟩)

theorem size_le_sizeAll {e : Expr} {es : List Expr} (h : e ∈ es) : e.size ≤ sizeAll es := by
  induction es with
  | nil => cases h
  | cons e' es ih =>
    rw [sizeAll]
    rcases List.mem_cons.mp h with rfl | h
    · omega
    · exact Nat.le_trans (ih h) (Nat.le_add_left _ _)

theorem size_lt_of_mem_parts {part e : Expr} (h : part ∈ e.parts) : part.size < e.size := by
  cases e with
  | integer | string | var => cases h
  | call ident args argsSpan span =>
    have : part.size ≤ sizeAll args := size_le_sizeAll h
    simp only [size]
    omega
  | paren inner span =>
    obtain rfl := List.mem_singleton.mp h
    simp [size]
  | unary op operand span =>
    obtain rfl := List.mem_singleton.mp h
    simp [size]
  | binary op lhs rhs span =>
    simp only [parts, List.mem_cons, List.not_mem_nil, or_false] at h
    rcases h with rfl | rfl <;> simp only [size] <;> omega

/-- **Induction along the parts.** Arguments of calls are parts, so nothing else has to be said
about lists of expressions. -/
theorem induction_on_parts {P : Expr → Prop} (h : ∀ e, (∀ part ∈ e.parts, P part) → P e)
    (e : Expr) : P e := by
  obtain ⟨n, hn⟩ : ∃ n, e.size = n := ⟨_, rfl⟩
  induction n using Nat.strongRecOn generalizing e with
  | _ n ih => exact h e fun part hp => ih part.size (hn ▸ size_lt_of_mem_parts hp) part rfl

/-- Every expression inside `e` has the property. -/
def Everywhere (P : Expr → Prop) (e : Expr) : Prop := ∀ inner : Expr, inner.Within e → P inner

/-- The expressions inside are listed by the descendants, so a property can be tested everywhere. -/
instance (P : Expr → Prop) [DecidablePred P] : DecidablePred (Everywhere P) := fun e =>
  decidable_of_iff (∀ inner ∈ (Node.expr e).descendants.filterMap Node.expr?, P inner) <| by
    simp only [Everywhere, Within, List.mem_filterMap, Node.expr?_eq_some, exists_eq_right]

theorem everywhere_iff {P : Expr → Prop} {e : Expr} :
    e.Everywhere P ↔ P e ∧ ∀ part ∈ e.parts, part.Everywhere P := by
  constructor
  · intro h
    exact ⟨h e (within_refl e), fun part hp inner hinner => h inner (hinner.of_part hp)⟩
  · rintro ⟨he, hparts⟩ inner hinner
    rcases within_iff.mp hinner with rfl | ⟨part, hp, hinner⟩
    · exact he
    · exact hparts part hp inner hinner

theorem everywhere_of_parts_eq_nil {P : Expr → Prop} {e : Expr} (hparts : e.parts = []) (he : P e) :
    e.Everywhere P := by
  rw [everywhere_iff, hparts]
  exact ⟨he, fun part hp => by cases hp⟩

/-- What passes from every expression to its parts holds everywhere inside. -/
theorem everywhere_of_hereditary {P : Expr → Prop}
    (hparts : ∀ e part, P e → part ∈ e.parts → P part) {e : Expr} (he : P e) : e.Everywhere P := by
  induction e using induction_on_parts with
  | _ e ih => exact everywhere_iff.mpr ⟨he, fun part hp => ih part hp (hparts e part he hp)⟩

theorem Everywhere.of_within {P : Expr → Prop} {e inner : Expr} (h : e.Everywhere P)
    (hinner : inner.Within e) : inner.Everywhere P := by
  have heverywhere : e.Everywhere (Everywhere P) :=
    everywhere_of_hereditary (fun _ part he hp => (everywhere_iff.mp he).2 part hp) h
  exact heverywhere inner hinner

end Expr

/-! ### Terms inside a term -/

namespace Term

/-- The terms directly below a term. For an `ISABOUT` these are the words and phrases of its
alternatives, which stand two levels of nodes below it. -/
def parts : Term → List Term
  | simple _ => []
  | weighted items _ => items.map fun i => simple i.term
  | generation _ terms _ => terms.map simple
  | group inner _ => [inner]
  | not inner _ => [inner]
  | joined _ lhs rhs _ => [lhs, rhs]

/-- `inner` is one of the nodes of `t`, possibly `t` itself. -/
def Within (inner t : Term) : Prop := Node.term inner ∈ (Node.term t).descendants

theorem within_item_iff {inner : Term} {i : WeightedItem} :
    Node.term inner ∈ (Node.item i).descendants ↔ inner.Within (simple i.term) := by
  rw [Node.descendants_eq, List.mem_cons, List.mem_flatMap]
  simp [Node.children, Within]

/-- A term inside another is that term or inside one of its parts. -/
theorem within_iff {inner t : Term} :
    inner.Within t ↔ inner = t ∨ ∃ part ∈ t.parts, inner.Within part := by
  rw [Within, Node.descendants_eq, List.mem_cons, List.mem_flatMap, Node.term.injEq]
  refine or_congr_right ?_
  cases t with
  | weighted items span => simp [Node.children, parts, within_item_iff]
  | _ => simp [Node.children, parts, Within]

/-- **Induction along the parts.** The words and phrases of a list are parts, so nothing else has to
be said about lists. -/
theorem induction_on_parts {P : Term → Prop} (h : ∀ t, (∀ part ∈ t.parts, P part) → P t)
    (t : Term) : P t := by
  have hsimple : ∀ s, P (simple s) := fun s => h _ fun part hp => by cases hp
  induction t with
  | simple s => exact hsimple s
  | weighted items span =>
    refine h _ fun part hp => ?_
    obtain ⟨i, -, rfl⟩ := List.mem_map.mp hp
    exact hsimple i.term
  | generation form terms span =>
    refine h _ fun part hp => ?_
    obtain ⟨s, -, rfl⟩ := List.mem_map.mp hp
    exact hsimple s
  | group inner span ih | not inner span ih =>
    refine h _ fun part hp => ?_
    obtain rfl := List.mem_singleton.mp hp
    exact ih
  | joined op lhs rhs span ihl ihr =>
    refine h _ fun part hp => ?_
    simp only [parts, List.mem_cons, List.not_mem_nil, or_false] at hp
    rcases hp with rfl | rfl
    · exact ihl
    · exact ihr

/-- What passes from every term to its parts passes to all terms inside. -/
theorem of_within {P : Term → Prop} (hparts : ∀ t part, P t → part ∈ t.parts → P part)
    {t inner : Term} (ht : P t) (hinner : inner.Within t) : P inner := by
  induction t using induction_on_parts with
  | _ t ih =>
    rcases within_iff.mp hinner with rfl | ⟨part, hp, hinner⟩
    · exact ht
    · exact ih part hp (hparts t part ht hp) hinner

end Term

end SqlPredicates
