import SqlPredicates.Rule.Printer
import SqlPredicates.Search.Printer

/-!
# A uniform view of trees

The trees of both grammars can be looked at as trees of nodes, where a node has a kind, a place and a
list of children in the order of the text. The argument list of a call and the alternatives of an
`ISABOUT` are nodes of their own.

## Main definitions

* `Node`, `NodeKind` — the nodes and their kinds
* `Node.children` — the nodes directly below a node
* `Node.descendants` — a node and all nodes below it, parents before children
* `Node.outline` — the structure of a node as nested lists
-/

namespace SqlPredicates

/-- A node of a tree of either grammar. -/
inductive Node where
  | expr (e : Expr)
  | arguments (args : List Expr) (span : Span)
  | term (t : Term)
  | item (i : WeightedItem)
  deriving DecidableEq

/-- The kinds of nodes. -/
inductive NodeKind where
  | integerLiteral
  | stringLiteral
  | reference
  | argumentList
  | parenthesised
  | unary
  | binary
  | simpleTerm
  | weightedTerm
  | weightedItem
  | generationTerm
  | group
  | negation
  | booleanTerm
  | proximityTerm
  deriving DecidableEq, Repr

namespace Node

/-- The kind of a node. -/
def kind : Node → NodeKind
  | expr (.integer ..) => .integerLiteral
  | expr (.string ..) => .stringLiteral
  | expr (.var ..) => .reference
  | expr (.call ..) => .reference
  | expr (.paren ..) => .parenthesised
  | expr (.unary ..) => .unary
  | expr (.binary ..) => .binary
  | arguments .. => .argumentList
  | term (.simple ..) => .simpleTerm
  | term (.weighted ..) => .weightedTerm
  | term (.generation ..) => .generationTerm
  | term (.group ..) => .group
  | term (.not ..) => .negation
  | term (.joined .near ..) => .proximityTerm
  | term (.joined ..) => .booleanTerm
  | item _ => .weightedItem

/-- The bytes that a node was read from. -/
def span : Node → Span
  | expr e => e.span
  | arguments _ span => span
  | term t => t.span
  | item i => i.span

/-- The nodes directly below a node, in the order of the text. -/
def children : Node → List Node
  | expr (.integer ..) => []
  | expr (.string ..) => []
  | expr (.var ..) => []
  | expr (.call _ args argsSpan _) => [arguments args argsSpan]
  | expr (.paren inner _) => [expr inner]
  | expr (.unary _ operand _) => [expr operand]
  | expr (.binary _ lhs rhs _) => [expr lhs, expr rhs]
  | arguments args _ => args.map expr
  | term (.simple _) => []
  | term (.weighted items _) => items.map item
  | term (.generation _ terms _) => terms.map fun t => term (.simple t)
  | term (.group inner _) => [term inner]
  | term (.not inner _) => [term inner]
  | term (.joined _ lhs rhs _) => [term lhs, term rhs]
  | item i => [term (.simple i.term)]

/-- The structure of a node, without places. -/
def outline : Node → String
  | expr e => e.outline
  | arguments args _ => "(args" ++ Expr.outlineArgs args ++ ")"
  | term t => t.outline
  | item i => i.outline

end Node

/-! ### Counting and listing nodes -/

mutual

/-- The number of nodes of an expression. -/
def Expr.size : Expr → Nat
  | .integer .. => 1
  | .string .. => 1
  | .var .. => 1
  | .call _ args _ _ => Expr.sizeAll args + 2
  | .paren inner _ => inner.size + 1
  | .unary _ operand _ => operand.size + 1
  | .binary _ lhs rhs _ => lhs.size + rhs.size + 1

/-- The number of nodes of several expressions. -/
def Expr.sizeAll : List Expr → Nat
  | [] => 0
  | e :: es => e.size + Expr.sizeAll es

end

/-- The number of nodes of a term. -/
def Term.size : Term → Nat
  | .simple _ => 1
  | .weighted items _ => 2 * items.length + 1
  | .generation _ terms _ => terms.length + 1
  | .group inner _ => inner.size + 1
  | .not inner _ => inner.size + 1
  | .joined _ lhs rhs _ => lhs.size + rhs.size + 1

namespace Node

/-- The number of nodes from a node downwards. -/
def size : Node → Nat
  | expr e => e.size
  | arguments args _ => Expr.sizeAll args + 1
  | term t => t.size
  | item _ => 2

/-- Takes nodes from a stack, at most `n` of them; the children of a node are put back in its
place. -/
def unstack : Nat → List Node → List Node
  | _, [] => []
  | 0, _ :: _ => []
  | n + 1, node :: stack => node :: unstack n (node.children ++ stack)

/-- The node and all nodes below it, parents before children and in the order of the text. -/
def descendants (node : Node) : List Node := unstack node.size [node]

end Node

end SqlPredicates
