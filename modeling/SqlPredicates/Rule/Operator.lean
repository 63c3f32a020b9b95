import SqlPredicates.Token

/-!
# Operators of naming rules

Each operator has one canonical spelling and may have others. Its binding powers order the
operators into levels: an operand of an operator extends as far as operators bind at least as
strongly as the power on that side. Every binary operator has a right power one above its left power,
so operators of one level group to the left.

## Main definitions

* `UnaryOp`, `BinaryOp` — the operators
* `BinaryOp.ofKind?`, `UnaryOp.ofKind?` — the operator that a token spells
* `BinaryOp.leftPower`, `BinaryOp.rightPower`, `UnaryOp.power` — the binding powers
-/

namespace SqlPredicates

/-- The operators in front of an operand. -/
inductive UnaryOp where
  | not
  | neg
  deriving DecidableEq, Repr

/-- The operators between two operands. -/
inductive BinaryOp where
  | or
  | and
  | equal
  | notEqual
  | less
  | lessEqual
  | greater
  | greaterEqual
  | like
  | add
  | subtract
  | multiply
  | divide
  | remainder
  deriving DecidableEq, Repr

namespace UnaryOp

/-- The canonical spelling. -/
def text : UnaryOp → String
  | .not => "NOT"
  | .neg => "-"

/-- How strongly the operator holds its operand: `NOT` reaches over comparisons, the minus sign over
nothing. -/
def power : UnaryOp → Nat
  | .not => 5
  | .neg => 12

/-- The operator that a token spells in front of an operand. -/
def ofKind? : Token.Kind → Option UnaryOp
  | .keyword .not => some .not
  | .symbol .bang => some .not
  | .symbol .minus => some .neg
  | _ => none

end UnaryOp

namespace BinaryOp

/-- The canonical spelling. -/
def text : BinaryOp → String
  | .or => "OR"
  | .and => "AND"
  | .equal => "="
  | .notEqual => "<>"
  | .less => "<"
  | .lessEqual => "<="
  | .greater => ">"
  | .greaterEqual => ">="
  | .like => "LIKE"
  | .add => "+"
  | .subtract => "-"
  | .multiply => "*"
  | .divide => "/"
  | .remainder => "%"

/-- The operator that a token spells between two operands. -/
def ofKind? : Token.Kind → Option BinaryOp
  | .keyword .or | .symbol .doubleBar => some .or
  | .keyword .and | .symbol .doubleAmp => some .and
  | .symbol .equal | .symbol .doubleEqual => some .equal
  | .symbol .bangEqual | .symbol .angles => some .notEqual
  | .symbol .less => some .less
  | .symbol .lessEqual => some .lessEqual
  | .symbol .greater => some .greater
  | .symbol .greaterEqual => some .greaterEqual
  | .keyword .like => some .like
  | .symbol .plus => some .add
  | .symbol .minus => some .subtract
  | .symbol .star => some .multiply
  | .symbol .slash => some .divide
  | .symbol .percent => some .remainder
  | _ => none

/-- How strongly the operator holds its left operand. -/
def leftPower : BinaryOp → Nat
  | .or => 1
  | .and => 3
  | .equal | .notEqual | .less | .lessEqual | .greater | .greaterEqual | .like => 6
  | .add | .subtract => 8
  | .multiply | .divide | .remainder => 10

/-- How strongly the operator holds its right operand. -/
def rightPower (op : BinaryOp) : Nat := op.leftPower + 1

end BinaryOp

end SqlPredicates
