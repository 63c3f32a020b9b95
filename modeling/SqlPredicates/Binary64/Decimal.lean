import SqlPredicates.Binary64.Basic

/-!
# Decimal text of binary floating-point numbers

A number is printed with the fewest significant digits that read back as the same number, always
in positional notation and without a fraction when it is whole. Among texts of that length the one
closest to the number is chosen, and of two equally close ones the larger.

## Main definitions

* `Binary64.ofNumeral` — reads `digits` or `digits.digits`
* `Binary64.Decimal` — digits and a power of ten
* `Binary64.shortest` — the shortest decimal that reads back
* `Binary64.text` — the printed number
-/

namespace SqlPredicates

namespace Binary64

/-- The natural number that a list of decimal digits denotes. -/
def digitsValue (ds : List Char) : Nat := ds.foldl (fun n c => 10 * n + (c.toNat - '0'.toNat)) 0

/-- Reads the digits before and after a decimal point. -/
def ofNumeral (whole fraction : List Char) : Binary64 :=
  ofRatio (digitsValue (whole ++ fraction)) (Nat.pow 10 fraction.length)

/-- The decimal `digits * 10 ^ exponent`. -/
structure Decimal where
  digits : Nat
  exponent : Int
  deriving DecidableEq, Repr

/-- Whether a decimal is rounded to `x` when it is read. -/
def Decimal.readsAs (d : Decimal) (x : Binary64) : Bool := ofDecimal d.digits d.exponent = x

/-- A power of ten as a quotient of natural numbers. -/
def powerOfTen : Int → Nat × Nat
  | .ofNat k => (Nat.pow 10 k, 1)
  | .negSucc k => (1, Nat.pow 10 (k + 1))

/-- The multiple of `10 ^ exponent` that stands for `x`: of its two neighbours on that grid the ones
that read back, and of these the closer one, the upper one in a tie. -/
def onGrid (x : Binary64) (exponent : Int) : Option Decimal :=
  let (p, q) := powerOfTen exponent
  let num := x.units * q
  let den := p * Nat.pow 2 1074
  let below : Decimal := ⟨num / den, exponent⟩
  let above : Decimal := ⟨num / den + 1, exponent⟩
  if below.readsAs x then
    if above.readsAs x && den ≤ 2 * (num % den) then some above else some below
  else if above.readsAs x then some above
  else none

/-- The number of decimal digits of a natural number. -/
def digitCount (n : Nat) : Nat := (Nat.toDigits 10 n).length

/-- The shortest decimal that reads back as `x`: the grids are tried from the coarsest one on. On the
grid of `10 ^ -1074` every finite number lies exactly. -/
def shortest (x : Binary64) : Decimal :=
  let top := digitCount (x.units / Nat.pow 2 1074)
  let grids := (List.range (top + 1075)).map fun i : Nat => (top : Int) - i
  (grids.findSome? x.onGrid).getD ⟨0, 0⟩

/-- A decimal in positional notation. -/
def Decimal.text (d : Decimal) : String :=
  let ds := Nat.toDigits 10 d.digits
  match d.exponent with
  | .ofNat k => String.ofList (ds ++ List.replicate k '0')
  | .negSucc k =>
    let places := k + 1
    let padded := List.replicate (places + 1 - ds.length) '0' ++ ds
    let split := padded.length - places
    String.ofList (padded.take split ++ '.' :: padded.drop split)

/-- The printed number: its shortest decimal, or `inf`. -/
def text (x : Binary64) : String :=
  if x.bits = 0 then "0"
  else if x = infinity then "inf"
  else x.shortest.text

end Binary64

end SqlPredicates
