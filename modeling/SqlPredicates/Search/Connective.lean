import SqlPredicates.Token

/-!
# Connectives of search conditions

Search terms are joined by `OR`, `AND` and `NEAR`, each with a symbol as its second spelling. As with
the operators of naming rules, binding powers order them into levels, and those of one level group to
the left. Negation binds more strongly than `AND` and less strongly than `NEAR`.

## Main definitions

* `Connective` — the connectives
* `Connective.ofKind?` — the connective that a token spells
* `Connective.leftPower`, `Connective.rightPower`, `Connective.notPower` — the binding powers
-/

namespace SqlPredicates

/-- What joins two search terms. -/
inductive Connective where
  | or
  | and
  | near
  deriving DecidableEq, Repr

namespace Connective

/-- The canonical spelling. -/
def text : Connective → String
  | .or => "OR"
  | .and => "AND"
  | .near => "NEAR"

/-- The connective that a token spells. -/
def ofKind? : Token.Kind → Option Connective
  | .keyword .or | .symbol .bar => some .or
  | .keyword .and | .symbol .amp => some .and
  | .keyword .near | .symbol .tilde => some .near
  | _ => none

/-- How strongly the connective holds its left side. -/
def leftPower : Connective → Nat
  | .or => 1
  | .and => 3
  | .near => 6

/-- How strongly the connective holds its right side. -/
def rightPower (op : Connective) : Nat := op.leftPower + 1

/-- How strongly a negation holds its operand. -/
def notPower : Nat := 5

end Connective

end SqlPredicates
