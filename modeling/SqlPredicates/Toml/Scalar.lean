import SqlPredicates.Binary64.Decimal
import SqlPredicates.Toml.Value

/-!
# Numbers, dates and truth values of TOML

A scalar without quotes is a run of letters, digits and signs. Each kind of scalar is a test on the
whole run. Integers have 64 bits, dates must exist in the calendar, and a positive number beyond all
finite ones is refused.

## Main definitions

* `Toml.integer?`, `Toml.isFloat`, `Toml.isDateTime` — the kinds of scalars
* `Toml.scalar?` — the value of a run
-/

namespace SqlPredicates

namespace Toml

/-- Whether a character can belong to a scalar without quotes. -/
def isScalarChar (c : Char) : Bool :=
  c.isAlphanum || c == '+' || c == '-' || c == '_' || c == '.' || c == ':'

/-! ### Integers -/

/-- Digits, where single underscores may stand between two of them. -/
def isGrouped (isDigit : Char → Bool) : List Char → Bool
  | [] => false
  | [c] => isDigit c
  | c :: '_' :: cs => isDigit c && isGrouped isDigit cs
  | c :: cs => isDigit c && isGrouped isDigit cs

/-- Splits off a sign; `true` stands for a minus sign. -/
def splitSign : List Char → Bool × List Char
  | '+' :: cs => (false, cs)
  | '-' :: cs => (true, cs)
  | cs => (false, cs)

/-- Decimal digits without needless zeros in front. -/
def isDecimal (cs : List Char) : Bool :=
  match cs with
  | ['0'] => true
  | '0' :: _ => false
  | _ => isGrouped Char.isDigit cs

/-- Whether a character is a hexadecimal digit. -/
def isHexDigit (c : Char) : Bool :=
  c.isDigit || ('a' ≤ c && c ≤ 'f') || ('A' ≤ c && c ≤ 'F')

/-- The value of a hexadecimal digit. -/
def hexDigitValue (c : Char) : Nat :=
  if c.isDigit then c.toNat - '0'.toNat
  else if 'a' ≤ c then c.toNat - 'a'.toNat + 10
  else c.toNat - 'A'.toNat + 10

/-- The number that digits spell in a base, underscores left out. -/
def digitsIn (base : Nat) (cs : List Char) : Nat :=
  (cs.filter (· ≠ '_')).foldl (fun n c => base * n + hexDigitValue c) 0

/-- An integer that fits into 64 bits. -/
def inRange? (n : Int) : Option Int :=
  if -0x8000000000000000 ≤ n ∧ n < 0x8000000000000000 then some n else none

/-- The integer that a run spells, in one of four bases. -/
def integer? (cs : List Char) : Option Int :=
  match cs with
  | '0' :: 'x' :: ds => if isGrouped isHexDigit ds then inRange? (digitsIn 16 ds) else none
  | '0' :: 'o' :: ds =>
    if isGrouped (fun c => '0' ≤ c && c ≤ '7') ds then inRange? (digitsIn 8 ds) else none
  | '0' :: 'b' :: ds =>
    if isGrouped (fun c => c == '0' || c == '1') ds then inRange? (digitsIn 2 ds) else none
  | _ =>
    let (negative, ds) := splitSign cs
    if isDecimal ds then inRange? (if negative then -(digitsIn 10 ds : Int) else digitsIn 10 ds)
    else none

/-! ### Numbers with a fraction or an exponent -/

/-- Whether `digits * 10 ^ exponent` is beyond all finite numbers. -/
def isTooLarge (digits : List Char) (exponent : Int) : Bool :=
  let n := digitsIn 10 digits
  if n = 0 || exponent < -(digits.length : Int) then false
  else if exponent > 400 then true
  else Binary64.ofDecimal n exponent = Binary64.infinity

/-- An exponent: its sign, and digits. -/
def exponent? (cs : List Char) : Option Int :=
  let (negative, ds) := splitSign cs
  if isGrouped Char.isDigit ds then
    some (if negative then -(digitsIn 10 ds : Int) else digitsIn 10 ds)
  else none

/-- The parts of a number around its exponent mark. -/
def splitExponent (cs : List Char) : List Char × Option (List Char) :=
  let isMark (c : Char) : Bool := c == 'e' || c == 'E'
  match cs.dropWhile (!isMark ·) with
  | [] => (cs, none)
  | _ :: exponent => (cs.takeWhile (!isMark ·), some exponent)

/-- Whether a run is a number with a fraction, an exponent or both. -/
def isFloat (cs : List Char) : Bool :=
  let (negative, unsigned) := splitSign cs
  if unsigned = ['i', 'n', 'f'] || unsigned = ['n', 'a', 'n'] then true
  else
    let (mantissa, exponentText) := splitExponent unsigned
    let whole := mantissa.takeWhile (· ≠ '.')
    let fraction := mantissa.dropWhile (· ≠ '.')
    let exponent := match exponentText with
      | none => some 0
      | some text => exponent? text
    match exponent with
    | none => false
    | some e =>
      let wellFormed := isDecimal whole && match fraction with
        | [] => exponentText.isSome
        | _ :: digits => isGrouped Char.isDigit digits
      let places := (fraction.filter Char.isDigit).length
      wellFormed && (negative || !isTooLarge (whole ++ fraction.filter Char.isDigit) (e - places))

/-! ### Dates and times -/

/-- The number of two digits, if it lies between two bounds. -/
def inBounds (low high : Nat) (a b : Char) : Bool :=
  let n := Binary64.digitsValue [a, b]
  a.isDigit && b.isDigit && low ≤ n && n ≤ high

/-- The number of days of a month. -/
def daysOfMonth (year month : Nat) : Nat :=
  if month = 2 then
    if year % 4 = 0 && (year % 100 ≠ 0 || year % 400 = 0) then 29 else 28
  else if month = 4 || month = 6 || month = 9 || month = 11 then 30
  else 31

/-- A day of the calendar, `YYYY-MM-DD`. -/
def isDate : List Char → Bool
  | [y₁, y₂, y₃, y₄, '-', m₁, m₂, '-', d₁, d₂] =>
    [y₁, y₂, y₃, y₄].all Char.isDigit && inBounds 1 12 m₁ m₂ &&
      inBounds 1 (daysOfMonth (Binary64.digitsValue [y₁, y₂, y₃, y₄]) (Binary64.digitsValue [m₁, m₂]))
        d₁ d₂
  | _ => false

/-- A time zone: `Z` or a signed number of hours and minutes. Nothing stands for local time. -/
def isOffset : List Char → Bool
  | [] => true
  | ['Z'] => true
  | ['z'] => true
  | [sign, h₁, h₂, ':', m₁, m₂] =>
    (sign == '+' || sign == '-') && inBounds 0 23 h₁ h₂ && inBounds 0 59 m₁ m₂
  | _ => false

/-- The part of a time after its seconds: a fraction, and a time zone where `zoned` allows one. -/
def isTimeEnd (zoned : Bool) (cs : List Char) : Bool :=
  let zone := match cs with
    | '.' :: digits =>
      if (digits.takeWhile Char.isDigit).isEmpty then none else some (digits.dropWhile Char.isDigit)
    | _ => some cs
  match zone with
  | none => false
  | some rest => if zoned then isOffset rest else rest.isEmpty

/-- A time of the day, `HH:MM:SS` with more. -/
def isTime (zoned : Bool) : List Char → Bool
  | h₁ :: h₂ :: ':' :: m₁ :: m₂ :: ':' :: s₁ :: s₂ :: rest =>
    inBounds 0 23 h₁ h₂ && inBounds 0 59 m₁ m₂ && inBounds 0 60 s₁ s₂ && isTimeEnd zoned rest
  | _ => false

/-- A day, a time, or both with a `T` between them. -/
def isDateTime (cs : List Char) : Bool :=
  isTime false cs ||
    isDate (cs.take 10) && match cs.drop 10 with
      | [] => true
      | mark :: time => (mark == 'T' || mark == 't') && isTime true time

/-! ### Scalars -/

/-- The value of a run of scalar characters. -/
def scalar? (cs : List Char) : Option Toml :=
  if cs = "true".toList then some (.boolean true)
  else if cs = "false".toList then some (.boolean false)
  else if isDateTime cs then some (.dateTime (String.ofList cs))
  else if isFloat cs then some (.float (String.ofList cs))
  else (integer? cs).map .integer

/-- Reads a scalar without quotes. A day and a time may also be separated by a blank. -/
def readScalar (cs : List Char) : Option (Toml × List Char) :=
  let run := cs.takeWhile isScalarChar
  let rest := cs.dropWhile isScalarChar
  match rest with
  | ' ' :: more =>
    let time := more.takeWhile isScalarChar
    if isDate run && isTime true time then
      some (.dateTime (String.ofList (run ++ ' ' :: time)), more.dropWhile isScalarChar)
    else (scalar? run).map fun v => (v, rest)
  | _ => (scalar? run).map fun v => (v, rest)

end Toml

end SqlPredicates
