import SqlPredicates.Rule.Function
import SqlPredicates.Text.Alphabetic
import SqlPredicates.Text.Blank
import SqlPredicates.Text.Case

/-!
# The standard functions

Positions in strings count characters from one. Comparisons of strings ignore case.

## Main definitions

* `StandardFunctions.substring`, `left`, `right`, … — the functions on strings
* `Registry.standard` — the functions that every rule can call
-/

namespace SqlPredicates

namespace StandardFunctions

/-! ### Characters -/

/-- The characters of `s` without the blanks at its end. -/
def dropLastBlanks (s : List Char) : List Char := (s.reverse.dropWhile (· = ' ')).reverse

/-- The number of characters, blanks at the end apart. -/
def len (s : String) : Nat := (dropLastBlanks s.toList).length

/-- The text without white space at its ends. -/
def trim (s : String) : String :=
  String.ofList (((s.toList.dropWhile Text.isBlank).reverse.dropWhile Text.isBlank).reverse)

/-- The first `n` characters. -/
def left (s : String) (n : Nat) : String := String.ofList (s.toList.take n)

/-- The last `n` characters. -/
def right (s : String) (n : Nat) : String := String.ofList (s.toList.drop (s.toList.length - n))

/-- The nearest integer of 64 bits. -/
def clamp (n : Int) : Int := max (-0x8000000000000000) (min n 0x7fffffffffffffff)

/-- The `length` characters from position `start` on. Positions before the first character use up
length as well. -/
def substring (s : String) (start : Int) (length : Nat) : String :=
  let stop := clamp (start + length)
  let first := max start 1
  String.ofList ((s.toList.drop (first - 1).toNat).take (clamp (stop - first)).toNat)

/-- Whether one text begins with another, ignoring case. -/
def startsWith (s t : String) : Bool :=
  (Text.lowercase t).toList.isPrefixOf (Text.lowercase s).toList

/-- Whether one text ends with another, ignoring case. -/
def endsWith (s t : String) : Bool :=
  (Text.lowercase t).toList.isSuffixOf (Text.lowercase s).toList

/-- Whether `t` occurs in `s`. -/
def occursIn (t : List Char) : List Char → Bool
  | [] => t.isEmpty
  | c :: cs => t.isPrefixOf (c :: cs) || occursIn t cs

/-- Whether one text contains another, ignoring case. -/
def contains (s t : String) : Bool := occursIn (Text.lowercase t).toList (Text.lowercase s).toList

/-- Whether a text has a letter and no lowercase character. -/
def isUpper (s : String) : Bool :=
  s.toList.any Text.isAlphabetic && !s.toList.any Text.isLowercase

/-- Whether a text has a letter and no uppercase character. -/
def isLower (s : String) : Bool :=
  s.toList.any Text.isAlphabetic && !s.toList.any Text.isUppercase

/-! ### Functions on values -/

/-- A count given as argument number `index`. -/
def count (index : Nat) (n : Int64) : Except CallError Nat :=
  if n.toInt < 0 then .error (.negativeLength index) else .ok n.toInt.toNat

/-- The complaint about a list of arguments that is too short. -/
def missing (args : List Value) : Except CallError Value := .error (.missingArgument (args.length + 1))

/-- A body that takes one string. -/
def onString (f : String → Value) : List Value → Except CallError Value
  | .string s :: _ => .ok (f s)
  | args => missing args

/-- A body that takes two strings. -/
def onStrings (f : String → String → Value) : List Value → Except CallError Value
  | .string s :: .string t :: _ => .ok (f s t)
  | args => missing args

/-- A body that takes a string and a count. -/
def onCount (f : String → Nat → Value) : List Value → Except CallError Value
  | .string s :: .integer n :: _ => do
    let n ← count 2 n
    return f s n
  | args => missing args

/-- The body of `substring`. -/
def substringBody : List Value → Except CallError Value
  | .string s :: .integer start :: .integer length :: _ => do
    let length ← count 3 length
    return .string (substring s start.toInt length)
  | args => missing args

/-- The functions that every rule can call. -/
def all : List Function :=
  [⟨"len", [.string], .integer, onString fun s => .integer (Int64.ofNat (len s))⟩,
   ⟨"upper", [.string], .string, onString fun s => .string (Text.uppercase s)⟩,
   ⟨"lower", [.string], .string, onString fun s => .string (Text.lowercase s)⟩,
   ⟨"trim", [.string], .string, onString fun s => .string (trim s)⟩,
   ⟨"left", [.string, .integer], .string, onCount fun s n => .string (left s n)⟩,
   ⟨"right", [.string, .integer], .string, onCount fun s n => .string (right s n)⟩,
   ⟨"substring", [.string, .integer, .integer], .string, substringBody⟩,
   ⟨"starts_with", [.string, .string], .boolean, onStrings fun s t => .boolean (startsWith s t)⟩,
   ⟨"ends_with", [.string, .string], .boolean, onStrings fun s t => .boolean (endsWith s t)⟩,
   ⟨"contains", [.string, .string], .boolean, onStrings fun s t => .boolean (contains s t)⟩,
   ⟨"is_upper", [.string], .boolean, onString fun s => .boolean (isUpper s)⟩,
   ⟨"is_lower", [.string], .boolean, onString fun s => .boolean (isLower s)⟩]

end StandardFunctions

/-- The registry of the standard functions. -/
def Registry.standard : Registry := ⟨StandardFunctions.all, by decide⟩

/-- A registry that offers standard functions under given names: each pair is a new name and the name
of a standard function. A later name replaces an earlier one that it equals; a pair without a standard
function is passed over. -/
def Registry.ofAliases (aliases : List (String × String)) : Registry :=
  aliases.foldl
    (fun r a =>
      match Registry.standard.get? a.2 with
      | some f => r.add { f with ident := a.1 }
      | none => r)
    Registry.empty

end SqlPredicates
