import SqlPredicates.Rule.Operator

/-!
# Types of expressions

Expressions are integers, strings or booleans. Every operator applies to certain types only.

## Main definitions

* `Ty` — the types
* `Ty.unary?`, `Ty.binary?` — the type of an operation, if the operator applies
* `Operation` — an operator with the types of its operands, as messages name it
-/

namespace SqlPredicates

/-- The type of an expression. -/
inductive Ty where
  | integer
  | string
  | boolean
  deriving DecidableEq, Repr

namespace Ty

/-- The name of a type in messages. -/
def name : Ty → String
  | .integer => "integer"
  | .string => "string"
  | .boolean => "boolean"

/-- Every type. -/
def all : List Ty := [integer, string, boolean]

/-- The type of a prefix operation. -/
def unary? : UnaryOp → Ty → Option Ty
  | .not, .boolean => some .boolean
  | .neg, .integer => some .integer
  | _, _ => none

/-- The type of a binary operation. -/
def binary? : BinaryOp → Ty → Ty → Option Ty
  | .and, .boolean, .boolean | .or, .boolean, .boolean => some .boolean
  | .equal, lhs, rhs | .notEqual, lhs, rhs => if lhs = rhs then some .boolean else none
  | .less, .integer, .integer | .lessEqual, .integer, .integer => some .boolean
  | .greater, .integer, .integer | .greaterEqual, .integer, .integer => some .boolean
  | .less, .string, .string | .lessEqual, .string, .string => some .boolean
  | .greater, .string, .string | .greaterEqual, .string, .string => some .boolean
  | .like, .string, .string => some .boolean
  | .add, .string, .string => some .string
  | .add, .integer, .integer | .subtract, .integer, .integer => some .integer
  | .multiply, .integer, .integer | .divide, .integer, .integer => some .integer
  | .remainder, .integer, .integer => some .integer
  | _, _, _ => none

end Ty

/-- An operator and the types it is applied to. -/
inductive Operation where
  | unary (op : UnaryOp) (operand : Ty)
  | binary (op : BinaryOp) (lhs rhs : Ty)
  deriving DecidableEq, Repr

/-- The complaint that an operator does not apply. -/
def Operation.message : Operation → String
  | .unary op operand => "operator `" ++ op.text ++ "` cannot be applied to " ++ operand.name
  | .binary op lhs rhs =>
    "operator `" ++ op.text ++ "` cannot be applied to " ++ lhs.name ++ " and " ++ rhs.name

end SqlPredicates
