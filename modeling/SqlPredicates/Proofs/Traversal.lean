import SqlPredicates.Visit
import SqlPredicates.Proofs.NodeOrder

/-!
# Visits meet the nodes of the tree

A tree is described three times: `Node.children` lists the nodes directly below a node, the visits
follow the shape of expressions and terms, and `Node.descendants` works with a stack. This file shows
that the three agree on every tree, also for visits that do not go below the nodes of some kinds.

## Places in a tree

The same node can stand in a tree more than once, so a list of nodes does not say by itself which of
them it has, nor how often. Nodes are therefore identified by their place, the numbers of the children
on the way from the root. The order of the tree is the lexicographic order of places: a node comes
before what is below it, and what is below a child comes before the next child.
`Node.Lists root P nodes` says that `nodes` are the nodes at the places that `P` holds of, each place
once and in this order. There is only one such list.

## Main definitions

* `Node.at?` — the node at a place
* `Node.Lists` — the nodes at some of the places, in the order of the tree
* `Node.Open` — a place with no node of a given kind above it
* `Visitor.record` — the visitor that writes down the nodes it meets

## Main results

* `Node.lists_preorder` — the recursion along the children lists the places that are open
* `Expr.visit_eq_foldl`, `Term.visit_eq_foldl` — a visit acts on the nodes of that list
* `visits_in_order` — visits, the stack and the children agree
-/

namespace SqlPredicates

namespace Node

/-! ### Places -/

/-- The node that is reached over the children with the given numbers. -/
def at? : Node → List ℕ → Option Node
  | node, [] => some node
  | node, i :: path => node.children[i]?.bind fun child => child.at? path

/-- The nodes at the places that `P` holds of, in the order of the tree. -/
def Lists (root : Node) (P : List ℕ → Prop) (nodes : List Node) : Prop :=
  ∃ places : List (List ℕ × Node), places.map Prod.snd = nodes ∧
    places.Pairwise (fun a b => a.1 < b.1) ∧
      ∀ path node, (path, node) ∈ places ↔ root.at? path = some node ∧ P path

/-- No node above the place is of a kind in `stop`. -/
def Open (stop : List NodeKind) (root : Node) (path : List ℕ) : Prop :=
  ∀ above, above <+: path → above ≠ path → ∀ node, root.at? above = some node → node.kind ∉ stop

variable {stop : List NodeKind} {root node : Node} {i : ℕ} {path : List ℕ}

theorem at?_cons_eq_some :
    root.at? (i :: path) = some node ↔
      ∃ child, root.children[i]? = some child ∧ child.at? path = some node :=
  Option.bind_eq_some_iff

theorem open_nil (stop : List NodeKind) (root : Node) : Open stop root [] :=
  fun _ habove hne => absurd (List.prefix_nil.mp habove) hne

theorem open_cons_iff :
    Open stop root (i :: path) ↔
      root.kind ∉ stop ∧ ∀ child, root.children[i]? = some child → Open stop child path := by
  constructor
  · intro h
    refine ⟨h [] List.nil_prefix (List.cons_ne_nil i path).symm root rfl, ?_⟩
    intro child hchild above habove hne node hnode
    refine h (i :: above) (List.cons_prefix_cons.mpr ⟨rfl, habove⟩) (by simpa using hne) node ?_
    exact at?_cons_eq_some.mpr ⟨child, hchild, hnode⟩
  · rintro ⟨hroot, hchildren⟩ above habove hne node hnode
    rcases List.prefix_cons_iff.mp habove with rfl | ⟨rest, rfl, hrest⟩
    · cases hnode
      exact hroot
    · obtain ⟨child, hchild, hnode⟩ := at?_cons_eq_some.mp hnode
      exact hchildren child hchild rest hrest (by simpa using hne) node hnode

/-! ### The recursion along the children -/

/-- A node, and then what is below its children unless its kind is in `stop`. -/
def preorder (stop : List NodeKind) (node : Node) : List Node :=
  node :: if node.kind ∈ stop then [] else node.children.attach.flatMap fun child =>
    preorder stop child.1
termination_by node.size
decreasing_by exact size_lt_of_mem_children child.2

theorem preorder_eq (stop : List NodeKind) (node : Node) :
    preorder stop node =
      node :: if node.kind ∈ stop then [] else node.children.flatMap (preorder stop) := by
  rw [preorder]
  simp

theorem preorder_nil (node : Node) : preorder [] node = node.descendants := by
  induction hsize : node.size using Nat.strongRecOn generalizing node with
  | _ size ih =>
    subst hsize
    have hbelow : node.children.flatMap (preorder []) = node.children.flatMap descendants :=
      List.flatMap_congr fun child hchild => ih _ (size_lt_of_mem_children hchild) child rfl
    rw [preorder_eq, descendants_eq, if_neg (List.not_mem_nil), hbelow]

/-- What is listed below each of some children, with the number of the child in front. The children
are numbered from `k`, since the induction takes them off one by one. -/
theorem exists_places {children : List Node} {P : Node → List ℕ → Prop} {f : Node → List Node}
    (h : ∀ child ∈ children, child.Lists (P child) (f child)) (k : ℕ) :
    ∃ places : List (List ℕ × Node), places.map Prod.snd = children.flatMap f ∧
      places.Pairwise (fun a b => a.1 < b.1) ∧
        ∀ path node, (path, node) ∈ places ↔ ∃ i rest child, path = (k + i) :: rest ∧
          children[i]? = some child ∧ child.at? rest = some node ∧ P child rest := by
  induction children generalizing k with
  | nil => exact ⟨[], rfl, .nil, by simp⟩
  | cons child children ih =>
    obtain ⟨first, hfirst, hfirstOrder, hfirstMem⟩ := h child List.mem_cons_self
    obtain ⟨others, hothers, hothersOrder, hothersMem⟩ :=
      ih (fun c hc => h c (List.mem_cons_of_mem _ hc)) (k + 1)
    refine ⟨first.map (fun place => (k :: place.1, place.2)) ++ others, ?_, ?_, ?_⟩
    · rw [List.map_append, List.map_map, List.flatMap_cons, ← hfirst, ← hothers]
      rfl
    · refine List.pairwise_append.mpr ⟨?_, hothersOrder, ?_⟩
      · refine List.pairwise_map.mpr (hfirstOrder.imp fun hlt => ?_)
        exact List.cons_lt_cons_iff.mpr (.inr ⟨rfl, hlt⟩)
      · rintro a ha ⟨path, node⟩ hb
        obtain ⟨place, -, rfl⟩ := List.mem_map.mp ha
        obtain ⟨i, rest, _, rfl, -⟩ := (hothersMem path node).mp hb
        exact List.cons_lt_cons_iff.mpr (.inl (by omega))
    · intro path node
      rw [List.mem_append, hothersMem, List.mem_map]
      constructor
      · rintro (⟨⟨rest, _⟩, hmem, hplace⟩ | ⟨i, rest, c, rfl, hc, hnode⟩)
        · obtain ⟨rfl, rfl⟩ := Prod.mk.inj hplace
          exact ⟨0, rest, child, rfl, rfl, (hfirstMem rest _).mp hmem⟩
        · exact ⟨i + 1, rest, c, by rw [Nat.add_assoc, Nat.add_comm 1], hc, hnode⟩
      · rintro ⟨i, rest, c, rfl, hc, hnode⟩
        cases i with
        | zero =>
          cases hc
          exact .inl ⟨(rest, node), (hfirstMem rest node).mpr hnode, rfl⟩
        | succ i => exact .inr ⟨i, rest, c, by rw [Nat.add_assoc, Nat.add_comm 1], hc, hnode⟩

/-- **The recursion along the children** lists the places that have no node of a kind in `stop` above
them. The induction is on the number of nodes. -/
theorem lists_preorder (stop : List NodeKind) (root : Node) :
    root.Lists (Open stop root) (preorder stop root) := by
  induction hsize : root.size using Nat.strongRecOn generalizing root with
  | _ size ih =>
    subst hsize
    rw [preorder_eq]
    by_cases hstop : root.kind ∈ stop
    · refine ⟨[([], root)], by rw [if_pos hstop]; rfl, List.pairwise_singleton _ _, ?_⟩
      rintro (_ | ⟨i, path⟩) node
      · simp [at?, open_nil, eq_comm]
      · simp [open_cons_iff, hstop]
    · obtain ⟨places, hnodes, horder, hmem⟩ := exists_places (P := Open stop)
        (fun child hchild => ih _ (size_lt_of_mem_children hchild) child rfl) 0
      refine ⟨([], root) :: places, by rw [if_neg hstop, ← hnodes]; rfl, ?_, ?_⟩
      · refine List.pairwise_cons.mpr ⟨?_, horder⟩
        rintro ⟨path, node⟩ hplace
        obtain ⟨i, rest, _, rfl, -⟩ := (hmem path node).mp hplace
        exact List.nil_lt_cons _ _
      · rintro (_ | ⟨i, path⟩) node
        · simp [at?, open_nil, hmem, eq_comm]
        · simp only [List.mem_cons, Prod.mk.injEq, reduceCtorEq, false_and, false_or, hmem,
            Nat.zero_add, List.cons.injEq, at?_cons_eq_some, open_cons_iff]
          constructor
          · rintro ⟨_, _, child, ⟨rfl, rfl⟩, hchild, hnode, hopen⟩
            refine ⟨⟨child, hchild, hnode⟩, hstop, fun c hc => ?_⟩
            obtain rfl := Option.some.inj (hchild.symm.trans hc)
            exact hopen
          · rintro ⟨⟨child, hchild, hnode⟩, -, hopen⟩
            exact ⟨i, path, child, ⟨rfl, rfl⟩, hchild, hnode, hopen child hchild⟩

theorem lists_descendants (root : Node) : root.Lists (fun _ => True) root.descendants := by
  obtain ⟨places, hnodes, horder, hmem⟩ := lists_preorder [] root
  refine ⟨places, hnodes.trans (preorder_nil root), horder, fun path node => ?_⟩
  rw [hmem]
  exact and_congr_right fun _ => iff_true_intro fun _ _ _ _ _ => List.not_mem_nil

end Node

/-! ### Visits -/

variable {σ : Type} {v : Visitor σ} {stop : List NodeKind}

namespace Visitor

/-- The visitor goes below a node unless its kind is in `stop`. -/
def StopsAt (v : Visitor σ) (stop : List NodeKind) : Prop :=
  ∀ node s, (v node s).2 = decide (node.kind ∉ stop)

/-- What the visitor does at a node. -/
def act (v : Visitor σ) (s : σ) (node : Node) : σ := (v node s).1

/-- The visitor that writes down every node it meets, and does not go below those of a kind in
`stop`. -/
def record (stop : List NodeKind) : Visitor (List Node) := fun node seen =>
  (seen ++ [node], decide (node.kind ∉ stop))

theorem step_eq_foldl (hv : v.StopsAt stop) {node : Node} {below : σ → σ}
    (hbelow : ∀ s, below s = (node.children.flatMap (Node.preorder stop)).foldl v.act s) (s : σ) :
    v.step node below s = (Node.preorder stop node).foldl v.act s := by
  rw [step, hv, Node.preorder_eq, List.foldl_cons]
  by_cases h : node.kind ∈ stop
  · simp [h, act]
  · simp [h, act, hbelow]

end Visitor

namespace Expr

mutual

/-- **A visit of an expression acts on its nodes one after the other.** -/
theorem visit_eq_foldl (hv : v.StopsAt stop) : ∀ (e : Expr) (s : σ),
    e.visit v s = (Node.preorder stop (.expr e)).foldl v.act s
  | integer .., s | string .., s | var .., s => Visitor.step_eq_foldl hv (fun _ => rfl) s
  | call _ args argsSpan _, s => by
    refine Visitor.step_eq_foldl hv (fun s => ?_) s
    have harguments : ∀ s, visitAll v args s =
        ((Node.arguments args argsSpan).children.flatMap (Node.preorder stop)).foldl v.act s :=
      visitAll_eq_foldl hv args
    simpa [Node.children] using Visitor.step_eq_foldl hv harguments s
  | paren inner _, s => by
    refine Visitor.step_eq_foldl hv (fun s => ?_) s
    simpa [Node.children] using visit_eq_foldl hv inner s
  | unary _ operand _, s => by
    refine Visitor.step_eq_foldl hv (fun s => ?_) s
    simpa [Node.children] using visit_eq_foldl hv operand s
  | binary _ lhs rhs _, s => by
    refine Visitor.step_eq_foldl hv (fun s => ?_) s
    simp [Node.children, visit_eq_foldl hv lhs, visit_eq_foldl hv rhs]

theorem visitAll_eq_foldl (hv : v.StopsAt stop) : ∀ (es : List Expr) (s : σ),
    visitAll v es s = ((es.map Node.expr).flatMap (Node.preorder stop)).foldl v.act s
  | [], _ => rfl
  | e :: es, s => by
    rw [visitAll, visit_eq_foldl hv e, visitAll_eq_foldl hv es, List.map_cons, List.flatMap_cons,
      List.foldl_append]

end

end Expr

theorem SimpleTerm.visit_eq_foldl (hv : v.StopsAt stop) (t : SimpleTerm) (s : σ) :
    t.visit v s = (Node.preorder stop (.term (.simple t))).foldl v.act s :=
  Visitor.step_eq_foldl hv (fun _ => rfl) s

theorem WeightedItem.visit_eq_foldl (hv : v.StopsAt stop) (i : WeightedItem) (s : σ) :
    i.visit v s = (Node.preorder stop (.item i)).foldl v.act s := by
  refine Visitor.step_eq_foldl hv (fun s => ?_) s
  simpa [Node.children] using i.term.visit_eq_foldl hv s

/-- Nodes that are visited one after the other. -/
theorem foldl_eq_foldl_flatMap {α : Type} {visit : α → σ → σ} {node : α → Node}
    (hvisit : ∀ a s, visit a s = (Node.preorder stop (node a)).foldl v.act s) (as : List α) (s : σ) :
    as.foldl (fun s a => visit a s) s =
      ((as.map node).flatMap (Node.preorder stop)).foldl v.act s := by
  induction as generalizing s with
  | nil => rfl
  | cons a as ih =>
    rw [List.foldl_cons, ih, hvisit, List.map_cons, List.flatMap_cons, List.foldl_append]

namespace Term

/-- **A visit of a term acts on its nodes one after the other.** -/
theorem visit_eq_foldl (hv : v.StopsAt stop) (t : Term) (s : σ) :
    t.visit v s = (Node.preorder stop (.term t)).foldl v.act s := by
  induction t generalizing s with
  | simple t => exact t.visit_eq_foldl hv s
  | weighted items span =>
    exact Visitor.step_eq_foldl hv (foldl_eq_foldl_flatMap (WeightedItem.visit_eq_foldl hv) items) s
  | generation form terms span =>
    exact Visitor.step_eq_foldl hv (foldl_eq_foldl_flatMap (SimpleTerm.visit_eq_foldl hv) terms) s
  | group inner span ih | not inner span ih =>
    refine Visitor.step_eq_foldl hv (fun s => ?_) s
    simpa [Node.children] using ih s
  | joined op lhs rhs span ihl ihr =>
    refine Visitor.step_eq_foldl hv (fun s => ?_) s
    simp [Node.children, ihl, ihr]

end Term

/-! ### What visitors write down -/

theorem stopsAt_record (stop : List NodeKind) : (Visitor.record stop).StopsAt stop := fun _ _ => rfl

theorem foldl_record (nodes seen : List Node) :
    nodes.foldl (Visitor.record stop).act seen = seen ++ nodes := by
  induction nodes generalizing seen with
  | nil => simp
  | cons node nodes ih =>
    rw [List.foldl_cons, ih]
    simp [Visitor.act, Visitor.record]

theorem Expr.visit_record (stop : List NodeKind) (e : Expr) :
    e.visit (Visitor.record stop) [] = Node.preorder stop (.expr e) := by
  rw [visit_eq_foldl (stopsAt_record stop), foldl_record, List.nil_append]

theorem Term.visit_record (stop : List NodeKind) (t : Term) :
    t.visit (Visitor.record stop) [] = Node.preorder stop (.term t) := by
  rw [visit_eq_foldl (stopsAt_record stop), foldl_record, List.nil_append]

namespace Term

theorem stopsAt_collector : collector.StopsAt [] := by
  intro node found
  match node with
  | .term (.simple _) => rfl
  | .term (.weighted ..) | .term (.generation ..) | .term (.group ..) | .term (.not ..) => rfl
  | .term (.joined ..) | .expr _ | .arguments .. | .item _ => rfl

/-- The collector keeps the words and phrases among the nodes. -/
theorem foldl_collector (nodes : List Node) (found : List SimpleTerm) :
    (nodes.foldl collector.act found).map (fun t => Node.term (.simple t)) =
      found.map (fun t => Node.term (.simple t)) ++
        nodes.filter (fun node => node.kind = .simpleTerm) := by
  induction nodes generalizing found with
  | nil => simp
  | cons node nodes ih =>
    rw [List.foldl_cons, ih]
    match node with
    | .term (.simple t) => simp [Visitor.act, collector, Node.kind]
    | .term (.weighted ..) | .term (.generation ..) | .term (.group ..) | .term (.not ..) => rfl
    | .term (.joined op _ _ _) => cases op <;> rfl
    | .expr e => cases e <;> rfl
    | .arguments .. | .item _ => rfl

theorem simpleTerms_eq_filter (t : Term) :
    t.simpleTerms.map (fun s => Node.term (.simple s)) =
      (Node.term t).descendants.filter (fun node => node.kind = .simpleTerm) := by
  rw [simpleTerms, visit_eq_foldl stopsAt_collector, foldl_collector, Node.preorder_nil]
  rfl

end Term

/-- **Visits and the uniform view meet the same nodes.** The nodes below a node are, one child after
the other, the children and what is below them; they are all the nodes of the tree. A visit that
does not go below nodes of the kinds in `stop` meets the nodes that have none of these above them,
each at its place once and in the order of the tree; without such kinds it meets all nodes. The words
and phrases of a search term are its nodes of that kind. -/
theorem visits_in_order :
    (∀ node : Node, node.descendants = node :: node.children.flatMap Node.descendants ∧
        node.Lists (fun _ => True) node.descendants) ∧
      (∀ e : Expr, e.visit (Visitor.record []) [] = (Node.expr e).descendants ∧
        ∀ stop : List NodeKind, (Node.expr e).Lists (Node.Open stop (.expr e))
          (e.visit (Visitor.record stop) [])) ∧
      ∀ t : Term, t.visit (Visitor.record []) [] = (Node.term t).descendants ∧
        (∀ stop : List NodeKind, (Node.term t).Lists (Node.Open stop (.term t))
          (t.visit (Visitor.record stop) [])) ∧
        t.simpleTerms.map (fun s => Node.term (.simple s)) =
          (Node.term t).descendants.filter (fun node => node.kind = .simpleTerm) := by
  refine ⟨fun node => ⟨node.descendants_eq, node.lists_descendants⟩, fun e => ⟨?_, fun stop => ?_⟩,
    fun t => ⟨?_, fun stop => ?_, t.simpleTerms_eq_filter⟩⟩
  · rw [e.visit_record, Node.preorder_nil]
  · rw [e.visit_record]
    exact Node.lists_preorder stop _
  · rw [t.visit_record, Node.preorder_nil]
  · rw [t.visit_record]
    exact Node.lists_preorder stop _

end SqlPredicates
