import SqlPredicates.Rule.Ty

/-!
# Values of expressions

Integers are signed 64-bit integers. Arithmetic is done on the unbounded integers, and a result
outside of the range is no value.

## Main definitions

* `Value`, `Value.ty` — the values and their types
* `Value.ofInt?` — an integer in range as a value
* `Variable`, `ObjectName` — the properties of an object that a rule can refer to
-/

namespace SqlPredicates

/-- The value of an expression. -/
inductive Value where
  | integer (value : Int64)
  | string (value : String)
  | boolean (value : Bool)
  deriving DecidableEq

namespace Value

/-- The type of a value. -/
def ty : Value → Ty
  | integer _ => .integer
  | string _ => .string
  | boolean _ => .boolean

/-- The text of a value; strings stand in single quotes, as they are. -/
def render : Value → String
  | integer value => toString value.toInt
  | string value => "'" ++ value ++ "'"
  | boolean true => "true"
  | boolean false => "false"

/-- The value of an integer that fits into 64 bits. -/
def ofInt? (n : Int) : Option Value :=
  if -0x8000000000000000 ≤ n ∧ n < 0x8000000000000000 then some (integer (Int64.ofInt n)) else none

end Value

/-- The names that a rule can refer to. -/
inductive Variable where
  | name
  | kind
  | schema
  deriving DecidableEq, Repr

/-- The variable that an identifier spells, in either case. -/
def Variable.ofName? (ident : String) : Option Variable :=
  if Text.sameAscii ident "name" then some .name
  else if Text.sameAscii ident "kind" then some .kind
  else if Text.sameAscii ident "schema" then some .schema
  else none

/-- The name of a database object, its kind (a table, an index, …) and its schema. -/
structure ObjectName where
  name : String
  kind : String
  schema : String
  deriving DecidableEq, Repr

/-- The property that a variable stands for. -/
def ObjectName.get (o : ObjectName) : Variable → String
  | .name => o.name
  | .kind => o.kind
  | .schema => o.schema

end SqlPredicates
