import SqlPredicates.Rule.Operator
import SqlPredicates.Span

/-!
# Expressions of naming rules

A naming rule is an expression over the name, the kind and the schema of an object. Parentheses are
kept in the tree, so that a tree determines its canonical text up to layout, and every node records
the bytes it was read from.

## Main definitions

* `Ident` — a name and its place
* `Expr` — the expressions
* `Expr.span` — the place of an expression
* `Expr.height` — the number of nodes on the longest path from the root to a leaf, where a call counts
  for itself and for its argument list
-/

namespace SqlPredicates

/-- A name with its place. -/
structure Ident where
  name : String
  span : Span
  deriving DecidableEq, Repr

/-- An expression of a naming rule. -/
inductive Expr where
  /-- An integer literal. -/
  | integer (value : UInt64) (span : Span)
  /-- A string literal. -/
  | string (value : Quoted) (span : Span)
  /-- A name that stands for a property of the object. -/
  | var (ident : Ident)
  /-- A function call; `argsSpan` covers the parentheses and what is between them. -/
  | call (ident : Ident) (args : List Expr) (argsSpan span : Span)
  /-- An expression in parentheses. -/
  | paren (inner : Expr) (span : Span)
  /-- An operator in front of its operand. -/
  | unary (op : UnaryOp) (operand : Expr) (span : Span)
  /-- An operator between its operands. -/
  | binary (op : BinaryOp) (lhs rhs : Expr) (span : Span)
  deriving Repr

namespace Expr

/-- The bytes that the expression was read from. -/
def span : Expr → Span
  | integer _ span => span
  | string _ span => span
  | var ident => ident.span
  | call _ _ _ span => span
  | paren _ span => span
  | unary _ _ span => span
  | binary _ _ _ span => span

mutual

/-- The number of nodes on the longest path down from the root. -/
def height : Expr → Nat
  | integer _ _ => 1
  | string _ _ => 1
  | var _ => 1
  | call _ args _ _ => tallest args + 2
  | paren inner _ => inner.height + 1
  | unary _ operand _ => operand.height + 1
  | binary _ lhs rhs _ => max lhs.height rhs.height + 1

/-- The greatest height among the expressions, `0` if there are none. -/
def tallest : List Expr → Nat
  | [] => 0
  | e :: es => max e.height (tallest es)

end

/-! ### Decidable equality -/

mutual

/-- Whether two expressions are equal, spans included. -/
def same : Expr → Expr → Bool
  | integer v s, integer v' s' => v == v' && s == s'
  | string v s, string v' s' => v == v' && s == s'
  | var i, var i' => i == i'
  | call i as p s, call i' as' p' s' => i == i' && sameAll as as' && p == p' && s == s'
  | paren e s, paren e' s' => same e e' && s == s'
  | unary o e s, unary o' e' s' => o == o' && same e e' && s == s'
  | binary o l r s, binary o' l' r' s' => o == o' && same l l' && same r r' && s == s'
  | _, _ => false

/-- Whether two lists of expressions are equal, spans included. -/
def sameAll : List Expr → List Expr → Bool
  | [], [] => true
  | e :: es, e' :: es' => same e e' && sameAll es es'
  | _, _ => false

end

mutual

theorem same_iff : ∀ a b : Expr, same a b = true ↔ a = b
  | integer .., b => by cases b <;> simp [same]
  | string .., b => by cases b <;> simp [same]
  | var .., b => by cases b <;> simp [same]
  | call _ as _ _, b => by cases b <;> simp [same, sameAll_iff as, and_assoc]
  | paren e _, b => by cases b <;> simp [same, same_iff e]
  | unary _ e _, b => by cases b <;> simp [same, same_iff e, and_assoc]
  | binary _ l r _, b => by cases b <;> simp [same, same_iff l, same_iff r, and_assoc]

theorem sameAll_iff : ∀ as bs : List Expr, sameAll as bs = true ↔ as = bs
  | [], bs => by cases bs <;> simp [sameAll]
  | a :: as, bs => by cases bs <;> simp [sameAll, same_iff a, sameAll_iff as]

end

instance : DecidableEq Expr := fun a b => decidable_of_iff _ (same_iff a b)

end Expr

end SqlPredicates
