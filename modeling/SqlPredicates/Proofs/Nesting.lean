import SqlPredicates.Proofs.Rule.Places
import SqlPredicates.Proofs.Search.Places

/-!
# Spans are nested and in order

Every node records the bytes that it was read from. This file shows that these places fit together
as the nodes do. The span of a node is not empty, begins where a token begins and ends where a token
ends; the spans of its children lie inside it, one after the other and without an overlap; and the
span of the root goes from the first token of the text to the last one.

The argument is about tokens, not about offsets. What spells a node holds what spells its children,
one child after the other, with other tokens in front of them, between them and behind them
(`Node.Spells.children`). This is the only place where the kinds of nodes are told apart. Tokens
follow each other in the text and the span of a node goes from its first to its last token, so the
order of the spans is read off from the order of the tokens.

## Main definitions

* `Node.Spells`, `Node.SpellEach` — tokens that spell a node, and nodes one after the other
* `Node.PlacedAmong` — what is shown of the span of a node

## Main results

* `Node.Spells.children` — the tokens of the children of a node
* `Node.SpellEach.inOrder` — the order of nodes that are spelled one after the other
* `Node.placedAmong_of_spells` — all nodes of a tree
* `spans_nested` — both grammars
-/

namespace SqlPredicates

namespace Node

/-! ### Tokens of a node and of its children -/

/-- Tokens that spell a node. Those of an argument list include its parentheses. -/
inductive Spells : List Token → Node → Prop
  | expr {ts : List Token} {e : Expr} (h : e.Spells ts) : Spells ts (.expr e)
  | arguments {ts : List Token} {args : List Expr} (opening closing : Span)
      (h : Expr.SpellArgs ts args) :
      Spells (⟨.symbol .opening, opening⟩ :: (ts ++ [⟨.symbol .closing, closing⟩]))
        (.arguments args (opening.cover closing))
  | term {ts : List Token} {t : Term} (h : t.Spells ts) : Spells ts (.term t)
  | item {ts : List Token} {i : WeightedItem} (h : i.Spells ts) : Spells ts (.item i)

theorem Spells.ne_nil {ts : List Token} {node : Node} (h : node.Spells ts) : ts ≠ [] := by
  cases h with
  | expr h => exact List.ne_nil_of_length_pos h.length_pos
  | arguments => exact List.cons_ne_nil _ _
  | term h => exact List.ne_nil_of_length_pos h.length_pos
  | item h => exact List.ne_nil_of_length_pos h.length_pos

/-- Tokens that spell nodes one after the other, with any other tokens around them. -/
inductive SpellEach : List Token → List Node → Prop
  | nil (ts : List Token) : SpellEach ts []
  | cons {ts us : List Token} {node : Node} {nodes : List Node} (before : List Token)
      (h : node.Spells ts) (hs : SpellEach us nodes) :
      SpellEach (before ++ (ts ++ us)) (node :: nodes)

namespace SpellEach

variable {ts : List Token} {node : Node} {nodes : List Node}

theorem last (before : List Token) (h : node.Spells ts) : SpellEach (before ++ ts) [node] := by
  have hcons := SpellEach.cons before h (.nil [])
  rwa [List.append_nil] at hcons

/-- Tokens in front of the nodes do not matter, and neither do tokens behind them. -/
theorem behind (before : List Token) (h : SpellEach ts nodes) : SpellEach (before ++ ts) nodes := by
  cases h with
  | nil => exact .nil _
  | cons before' h hs =>
    rw [← List.append_assoc]
    exact .cons _ h hs

theorem inFrontOf (after : List Token) (h : SpellEach ts nodes) :
    SpellEach (ts ++ after) nodes := by
  induction h with
  | nil => exact .nil _
  | cons before h _ ih =>
    rw [List.append_assoc, List.append_assoc]
    exact .cons before h ih

/-- The tokens of one of the nodes stand together. -/
theorem exists_of_mem (h : SpellEach ts nodes) (hnode : node ∈ nodes) :
    ∃ us, us <:+: ts ∧ node.Spells us := by
  induction h with
  | nil => cases hnode
  | @cons ts us _ _ before h _ ih =>
    rcases List.mem_cons.mp hnode with rfl | hnode
    · exact ⟨ts, List.infix_append' before ts us, h⟩
    · obtain ⟨vs, hvs, hspells⟩ := ih hnode
      refine ⟨vs, hvs.trans ?_, hspells⟩
      rw [← List.append_assoc]
      exact (List.suffix_append _ us).isInfix

end SpellEach

theorem spellEach_arguments {ts : List Token} {args : List Expr} (h : Expr.SpellArgs ts args) :
    SpellEach ts (args.map expr) := by
  induction args generalizing ts with
  | nil => exact .nil ts
  | cons e es ih =>
    cases h with
    | last h => exact .last [] (.expr h)
    | more comma h hs => exact .cons [] (.expr h) ((ih hs).behind [⟨.symbol .comma, comma⟩])

theorem spellEach_items {ts : List Token} {items : List WeightedItem}
    (h : Search.SpellItems ts items) : SpellEach ts (items.map item) := by
  induction h with
  | last h => exact .last [] (.item h)
  | more comma h _ ih => exact .cons [] (.item h) (ih.behind [⟨.symbol .comma, comma⟩])

theorem spellEach_terms {ts : List Token} {terms : List SimpleTerm}
    (h : Search.SpellTerms ts terms) :
    SpellEach ts (terms.map fun t => term (.simple t)) := by
  induction h with
  | last comma t => exact .last [⟨.symbol .comma, comma⟩] (.term (.simple t))
  | more comma t _ ih => exact .cons [⟨.symbol .comma, comma⟩] (.term (.simple t)) ih

/-- **The tokens of the children** stand one after the other among the tokens of the node. -/
theorem Spells.children {ts : List Token} {node : Node} (h : node.Spells ts) :
    SpellEach ts node.children := by
  cases h with
  | expr h =>
    cases h with
    | integer | string | var => exact .nil _
    | call name span opening closing h =>
      exact .last [⟨.identifier name, span⟩] (.arguments opening closing h)
    | paren opening closing h => exact .cons [⟨.symbol .opening, opening⟩] (.expr h) (.nil _)
    | @unary t _ _ _ _ h => exact .last [t] (.expr h)
    | @binary t _ _ _ _ _ _ hl hr => exact .cons [] (.expr hl) (.last [t] (.expr hr))
  | arguments opening closing h =>
    exact ((spellEach_arguments h).inFrontOf _).behind [⟨.symbol .opening, opening⟩]
  | term h =>
    cases h with
    | simple => exact .nil _
    | weighted word opening closing h =>
      exact ((spellEach_items h).inFrontOf _).behind
        [⟨.keyword .isabout, word⟩, ⟨.symbol .opening, opening⟩]
    | @generation _ _ word opening closing name _ _ h =>
      exact ((spellEach_terms h).inFrontOf _).behind
        [⟨.keyword .formsof, word⟩, ⟨.symbol .opening, opening⟩, name]
    | group opening closing h => exact .cons [⟨.symbol .opening, opening⟩] (.term h) (.nil _)
    | @not t _ _ _ h => exact .last [t] (.term h)
    | @joined t _ _ _ _ _ _ hl hr => exact .cons [] (.term hl) (.last [t] (.term hr))
  | item h =>
    cases h with
    | plain t => exact .last [] (.term (.simple t))
    | weighted t => exact .cons [] (.term (.simple t)) (.nil _)

/-! ### From tokens to spans -/

/-- The span of a node is that of its tokens, from the first to the last one. -/
theorem Spells.spans {ts : List Token} {node : Node} (h : node.Spells ts) (hts : Ordered ts) :
    Spans ts node.span := by
  cases h with
  | expr h => exact h.spans hts
  | arguments opening closing h =>
    exact (spans_singleton _ opening).cover _ (spans_singleton _ closing) hts
  | term h => exact h.spans hts
  | item h =>
    cases h with
    | plain t => exact spans_singleton _ t.span
    | @weighted t word opening closing number _ _ _ =>
      exact (spans_singleton t.literal.kind t.span).cover
        [⟨.keyword .weight, word⟩, ⟨.symbol .opening, opening⟩, number]
        (spans_singleton _ closing) hts

/-- **The order of nodes that are spelled one after the other.** The induction is on the nodes; the
tokens that are left begin behind the node that has been passed. -/
theorem SpellEach.inOrder {ts : List Token} {nodes : List Node} (h : SpellEach ts nodes)
    (hts : Ordered ts) {start stop : ℕ} (hle : start ≤ stop)
    (hbounds : ∀ t ∈ ts, start ≤ t.span.start ∧ t.span.stop ≤ stop) :
    Span.InOrder start (nodes.map Node.span) stop := by
  induction h generalizing start with
  | nil => exact hle
  | @cons ts us node nodes before h _ ih =>
    have hnode : Ordered ts := hts.of_part (List.infix_append' before ts us)
    have hrest : Ordered (ts ++ us) := hts.of_part (List.suffix_append before _).isInfix
    have hspans := h.spans hnode
    obtain ⟨t, _, hfirst, hstart⟩ := hspans.first
    obtain ⟨_, u, hlast, hstop⟩ := hspans.last
    have ht : t ∈ ts := by simp [hfirst]
    have hu : u ∈ ts := by simp [hlast]
    have hbehind := (List.pairwise_append.mp hrest.pairwise).2.2 u hu
    rw [hstop] at hbehind
    refine ⟨?_, hspans.start_lt hnode, ih (hrest.of_part (List.suffix_append ts us).isInfix) ?_ ?_⟩
    · rw [← hstart]
      exact (hbounds t (by simp [ht])).1
    · rw [← hstop]
      exact (hbounds u (by simp [hu])).2
    · exact fun v hv => ⟨hbehind v hv, (hbounds v (by simp [hv])).2⟩

/-! ### Trees -/

/-- The span of a node among the tokens of a text: it is not empty, begins and ends with a token, and
has the spans of the children in it, one after the other. -/
structure PlacedAmong (ts : List Token) (node : Node) : Prop where
  start_lt : node.span.start < node.span.stop
  starts : ∃ t ∈ ts, t.span.start = node.span.start
  stops : ∃ t ∈ ts, t.span.stop = node.span.stop
  children : Span.InOrder node.span.start (node.children.map Node.span) node.span.stop

theorem Spells.placedAmong {ts us : List Token} {node : Node} (h : node.Spells us)
    (hts : Ordered ts) (hus : us <:+: ts) : node.PlacedAmong ts := by
  have hordered := hts.of_part hus
  have hspans := h.spans hordered
  have hlt := hspans.start_lt hordered
  obtain ⟨t, _, hfirst, hstart⟩ := hspans.first
  obtain ⟨_, u, hlast, hstop⟩ := hspans.last
  exact
    { start_lt := hlt
      starts := ⟨t, hus.subset (by simp [hfirst]), hstart⟩
      stops := ⟨u, hus.subset (by simp [hlast]), hstop⟩
      children := h.children.inOrder hordered (Nat.le_of_lt hlt) fun v hv =>
        hspans.le_of_mem hordered hv }

/-- Every node of a tree that is spelled by tokens has its place among them. -/
theorem placedAmong_of_spells {ts : List Token} {root node : Node} (h : root.Spells ts)
    (hts : Ordered ts) (hnode : node ∈ root.descendants) : node.PlacedAmong ts := by
  have hspelled : ∃ us, us <:+: ts ∧ node.Spells us := by
    refine of_mem_descendants (P := fun node => ∃ us, us <:+: ts ∧ node.Spells us) ?_
      ⟨ts, List.infix_rfl, h⟩ hnode
    rintro node child ⟨us, hus, hspells⟩ hchild
    obtain ⟨vs, hvs, hspells⟩ := hspells.children.exists_of_mem hchild
    exact ⟨vs, hvs.trans hus, hspells⟩
  obtain ⟨us, hus, hspells⟩ := hspelled
  exact hspells.placedAmong hts hus

end Node

/-- **Spans are nested and in order.** A text that is read as a naming rule consists of tokens. The
span of the rule goes from the first of them to the last one. The span of every node of the rule is
not empty, begins where a token begins and ends where one ends, and the spans of its children lie
inside it, each behind the one before. The same holds of search conditions. -/
theorem spans_nested :
    (∀ (text : String) (e : Expr), parseRule text = .ok e →
      ∃ ts : List Token, tokenize text = ts.map .ok ∧ Spans ts e.span ∧
        ∀ node ∈ (Node.expr e).descendants, node.PlacedAmong ts) ∧
      ∀ (text : String) (t : Term), parseCondition text = .ok t →
        ∃ ts : List Token, tokenize text = ts.map .ok ∧ Spans ts t.span ∧
          ∀ node ∈ (Node.term t).descendants, node.PlacedAmong ts := by
  constructor
  · intro text e h
    obtain ⟨ts, htokens, hspells, -⟩ := exists_tokens_of_parseRule h
    have hts := ordered_of_tokenize htokens
    exact ⟨ts, htokens, hspells.spans hts, fun node => Node.placedAmong_of_spells (.expr hspells) hts⟩
  · intro text t h
    obtain ⟨ts, htokens, hspells, -⟩ := exists_tokens_of_parseCondition h
    have hts := ordered_of_tokenize htokens
    exact ⟨ts, htokens, hspells.spans hts, fun node => Node.placedAmong_of_spells (.term hspells) hts⟩

/-- The arguments of a call. -/
def spacedArguments : List Expr :=
  [.var ⟨"a", ⟨5, 6⟩⟩, .unary .neg (.integer 1 ⟨9, 10⟩) ⟨8, 10⟩]

/-- A comparison of a call with a name in parentheses, with blanks around its tokens. -/
def spacedRule : Expr :=
  .binary .notEqual (.call ⟨"f", ⟨1, 2⟩⟩ spacedArguments ⟨3, 12⟩ ⟨1, 12⟩)
    (.paren (.var ⟨"b", ⟨17, 18⟩⟩) ⟨16, 19⟩) ⟨1, 19⟩

/-- An alternative whose weight belongs to its span. -/
def spacedItem : WeightedItem := ⟨⟨.word "a", ⟨10, 11⟩⟩, some .one, ⟨10, 24⟩⟩

/-- A condition with the alternative in an `ISABOUT`. -/
def spacedCondition : Term :=
  .joined .and (.weighted [spacedItem, ⟨⟨.word "b", ⟨26, 27⟩⟩, none, ⟨26, 27⟩⟩] ⟨0, 29⟩)
    (.simple ⟨.word "c", ⟨32, 33⟩⟩) ⟨0, 33⟩

theorem spans_nested_spacedRule :
    (parseRule " f ( a, -1 ) <> (b) -- c" = .ok spacedRule ∧
        ∃ ts : List Token, tokenize " f ( a, -1 ) <> (b) -- c" = ts.map .ok ∧ Spans ts ⟨1, 19⟩ ∧
          (Node.arguments spacedArguments ⟨3, 12⟩).PlacedAmong ts) ∧
      parseCondition "isabout ( a weight ( 1 ), b ) & c" = .ok spacedCondition ∧
        ∃ ts : List Token, tokenize "isabout ( a weight ( 1 ), b ) & c" = ts.map .ok ∧
          Spans ts ⟨0, 33⟩ ∧ (Node.item spacedItem).PlacedAmong ts := by
  have hrule : parseRule " f ( a, -1 ) <> (b) -- c" = .ok spacedRule := by decide +kernel
  have hcondition : parseCondition "isabout ( a weight ( 1 ), b ) & c" = .ok spacedCondition := by
    decide +kernel
  have harguments : Node.arguments spacedArguments ⟨3, 12⟩ ∈ (Node.expr spacedRule).descendants := by
    decide +kernel
  have hitem : Node.item spacedItem ∈ (Node.term spacedCondition).descendants := by decide +kernel
  obtain ⟨ts, htokens, hroot, hnodes⟩ := spans_nested.1 _ _ hrule
  obtain ⟨us, htokens', hroot', hnodes'⟩ := spans_nested.2 _ _ hcondition
  exact ⟨⟨hrule, ts, htokens, hroot, hnodes _ harguments⟩, hcondition, us, htokens', hroot',
    hnodes' _ hitem⟩

end SqlPredicates
