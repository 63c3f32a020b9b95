import SqlPredicates.Node

/-!
# Visiting trees

A visit walks a tree from the root in the order of the text. On each node an action is taken, which
also decides whether the walk goes below that node. The walks follow the shape of expressions and
terms; they do not go through `Node.children`.

## Main definitions

* `Visitor` — what is done at a node
* `Expr.visit`, `Term.visit` — the walks
* `Term.simpleTerms` — the words and phrases of a term
* `Node.headline` — one line on a node
* `Visitor.trace`, `Visitor.leaves`, `Visitor.shallow` — visitors that write down what they see
-/

namespace SqlPredicates

/-- What is done at a node: the new state, and whether to go below it. -/
abbrev Visitor (σ : Type) := Node → σ → σ × Bool

variable {σ : Type}

namespace Visitor

/-- Takes the action on a node and, if that says so, goes on below it. -/
def step (v : Visitor σ) (node : Node) (below : σ → σ) (s : σ) : σ :=
  let r := v node s
  if r.2 then below r.1 else r.1

end Visitor

namespace Expr

mutual

/-- Visits an expression. -/
def visit (v : Visitor σ) : Expr → σ → σ
  | integer value span => v.step (.expr (integer value span)) id
  | string value span => v.step (.expr (string value span)) id
  | var ident => v.step (.expr (var ident)) id
  | call ident args argsSpan span =>
    v.step (.expr (call ident args argsSpan span))
      (v.step (.arguments args argsSpan) (visitAll v args))
  | paren inner span => v.step (.expr (paren inner span)) (visit v inner)
  | unary op operand span => v.step (.expr (unary op operand span)) (visit v operand)
  | binary op lhs rhs span =>
    v.step (.expr (binary op lhs rhs span)) fun s => visit v rhs (visit v lhs s)

/-- Visits several expressions, one after the other. -/
def visitAll (v : Visitor σ) : List Expr → σ → σ
  | [], s => s
  | e :: es, s => visitAll v es (visit v e s)

end

end Expr

/-- Visits a word or phrase. -/
def SimpleTerm.visit (v : Visitor σ) (t : SimpleTerm) : σ → σ := v.step (.term (.simple t)) id

/-- Visits an alternative of `ISABOUT`. -/
def WeightedItem.visit (v : Visitor σ) (i : WeightedItem) : σ → σ := v.step (.item i) (i.term.visit v)

namespace Term

/-- Visits a term. -/
def visit (v : Visitor σ) : Term → σ → σ
  | simple term => term.visit v
  | weighted items span =>
    v.step (.term (weighted items span)) fun s => items.foldl (fun s i => i.visit v s) s
  | generation form terms span =>
    v.step (.term (generation form terms span)) fun s => terms.foldl (fun s t => t.visit v s) s
  | group inner span => v.step (.term (group inner span)) (visit v inner)
  | not inner span => v.step (.term (not inner span)) (visit v inner)
  | joined op lhs rhs span =>
    v.step (.term (joined op lhs rhs span)) fun s => visit v rhs (visit v lhs s)

/-- The visitor that collects words and phrases. -/
def collector : Visitor (List SimpleTerm)
  | .term (.simple t), found => (found ++ [t], true)
  | _, found => (found, true)

/-- The words and phrases of a term, in the order of the text. -/
def simpleTerms (t : Term) : List SimpleTerm := t.visit collector []

end Term

/-! ### Visitors that write down what they see -/

/-- The name of a kind in a trace. -/
def NodeKind.label : NodeKind → String
  | .integerLiteral => "integer_literal"
  | .stringLiteral => "string_literal"
  | .reference => "reference"
  | .argumentList => "arg_list"
  | .parenthesised => "paren"
  | .unary => "unary"
  | .binary => "binary"
  | .simpleTerm => "simple"
  | .weightedTerm => "weighted"
  | .weightedItem => "weighted_item"
  | .generationTerm => "generation"
  | .group => "group"
  | .negation => "not"
  | .booleanTerm => "boolean"
  | .proximityTerm => "proximity"

namespace Node

/-- What a trace says about a node besides its kind. -/
def detail : Node → String
  | expr (.integer value _) => toString value.toNat
  | expr (.string value _) => value.text
  | expr (.var ident) => "variable " ++ ident.name ++ " " ++ ident.span.render
  | expr (.call ident _ _ _) => "call " ++ ident.name ++ " " ++ ident.span.render
  | expr (.paren _ span) => span.render
  | expr (.unary op _ _) => op.text
  | expr (.binary op _ _ _) => op.text
  | arguments args _ => toString args.length ++ " (" ++ Expr.renderArgs args ++ ")"
  | term (.simple t) => t.render
  | term (.weighted items _) => toString items.length
  | term (.generation form _ _) => form.text
  | term (.group _ span) => span.render
  | term (.not _ span) => span.render
  | term (.joined .near _ _ span) => span.render
  | term (.joined op _ _ _) => op.text
  | item i =>
    (match i.weight with
      | some weight => weight.text
      | none => "none") ++ " " ++ i.span.render

/-- The line of a node in a trace. -/
def headline (node : Node) : String := node.kind.label ++ " " ++ node.detail

end Node

namespace Visitor

/-- Writes a line on every node it meets, and does not go below nodes of the kinds in `stop`. -/
def trace (stop : List String) : Visitor (List String) := fun node lines =>
  (lines ++ [node.headline], !stop.contains node.kind.label)

/-- Writes down integer literals, words and phrases. -/
def leaves : Visitor (List String)
  | .expr (.integer value _), lines => (lines ++ [toString value.toNat], true)
  | .term (.simple t), lines => (lines ++ [t.text], true)
  | _, lines => (lines, true)

/-- Writes down references and alternatives, and does not go below them. -/
def shallow : Visitor (List String)
  | .expr (.var ident), lines => (lines ++ [ident.name], false)
  | .expr (.call ident _ _ _), lines => (lines ++ [ident.name], false)
  | .item i, lines => (lines ++ [i.term.render], false)
  | _, lines => (lines, true)

end Visitor

end SqlPredicates
