/-!
# Binary floating-point numbers

Weights and decimal literals are non-negative numbers of the IEEE 754 format binary64. Only reading,
comparing and printing is ever done with them, so they are kept as exact data and not as machine
floats: a number *is* its bit pattern. Bit patterns of non-negative numbers are ordered as the
numbers are, and the greatest of them is infinity.

With the unit `2 ^ -1074` every finite number is a natural number of units, `m * 2 ^ s`, where
`m < 2 ^ 53`.

## Main definitions

* `Binary64` — a non-negative number or infinity
* `Binary64.significand`, `Binary64.scale` — the parts `m` and `s`
* `Binary64.ofRatio` — the nearest number to a quotient, ties to the even bit pattern
-/

namespace SqlPredicates

/-- A non-negative binary64 number, as its bit pattern. -/
structure Binary64 where
  bits : Nat
  bits_le : bits ≤ 0x7ff0000000000000
  deriving DecidableEq, Repr

namespace Binary64

/-- The greatest bit pattern, infinity. -/
def infinityBits : Nat := 0x7ff0000000000000

/-- The number beyond all finite numbers. -/
def infinity : Binary64 := ⟨infinityBits, by decide⟩

/-- The number zero. -/
def zero : Binary64 := ⟨0, by decide⟩

/-- The number one. -/
def one : Binary64 := ⟨0x3ff0000000000000, by decide⟩

/-- Numbers are ordered as their bit patterns. -/
def le (a b : Binary64) : Bool := a.bits ≤ b.bits

/-- The integral significand `m` of a finite number. -/
def significand (x : Binary64) : Nat :=
  if x.bits < Nat.pow 2 52 then x.bits else Nat.pow 2 52 + x.bits % Nat.pow 2 52

/-- The scale `s` of a finite number: it is `significand * 2 ^ scale` units of `2 ^ -1074`. -/
def scale (x : Binary64) : Nat := x.bits / Nat.pow 2 52 - 1

/-- A finite number counted in units of `2 ^ -1074`. -/
def units (x : Binary64) : Nat := x.significand * Nat.pow 2 x.scale

/-- The natural number closest to `n / d`, a tie going to the even one. -/
def roundDiv (n d : Nat) : Nat :=
  let q := n / d
  let r := n % d
  if 2 * r < d then q
  else if d < 2 * r then q + 1
  else if q % 2 = 0 then q else q + 1

/-- The bit pattern of a number of so many units, before it is cut off at infinity: the count is
rounded to 53 binary digits, and a carry out of them moves on to the next exponent by itself. -/
def roundedBits (n d : Nat) : Nat :=
  let whole := n / d
  let s := if whole < Nat.pow 2 53 then 0 else whole.log2 - 52
  s * Nat.pow 2 52 + roundDiv n (d * Nat.pow 2 s)

/-- The number nearest to `num / den`; a tie goes to the even bit pattern, and what is too large
becomes infinity. -/
def ofRatio (num den : Nat) : Binary64 :=
  let bits := roundedBits (num * Nat.pow 2 1074) den
  if h : bits ≤ 0x7ff0000000000000 then ⟨bits, h⟩ else infinity

/-- The number nearest to a natural number. -/
def ofNat (n : Nat) : Binary64 := ofRatio n 1

/-- The number nearest to `digits * 10 ^ exponent`. -/
def ofDecimal (digits : Nat) (exponent : Int) : Binary64 :=
  match exponent with
  | .ofNat k => ofRatio (digits * Nat.pow 10 k) 1
  | .negSucc k => ofRatio digits (Nat.pow 10 (k + 1))

end Binary64

end SqlPredicates
