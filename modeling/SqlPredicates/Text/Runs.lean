/-!
# Runs of code points

The Unicode properties and case mappings are kept as sorted lists of runs. A run is an arithmetic
progression of code points: stride `1` for a block of neighbours, stride `2` for the many alphabets
in which capitals and small letters alternate.

## Main definitions

* `Run`, `covers` — a progression of code points, and membership in a sorted list of them
* `Shift`, `mapped` — a run whose members all move by one distance, and the mapping that a list of
  shifts and a list of expansions define
-/

namespace SqlPredicates

namespace Text

/-- The code points `first`, `first + stride`, … up to `last`. -/
structure Run where
  first : Nat
  last : Nat
  stride : Nat
  deriving DecidableEq, Repr

/-- Whether a code point is in the progression. -/
def Run.holds (r : Run) (n : Nat) : Bool :=
  r.first ≤ n && n ≤ r.last && (n - r.first) % r.stride == 0

/-- Whether a code point is in one of the runs of a sorted list: the search ends at the first run that
begins after the code point. -/
def covers : List Run → Nat → Bool
  | [], _ => false
  | r :: rs, n => if n < r.first then false else r.holds n || covers rs n

/-- A run whose members are all mapped to the code point at the same distance. -/
structure Shift where
  run : Run
  distance : Int
  deriving DecidableEq, Repr

/-- The image of a code point under the first shift of a sorted list that holds it: the search ends at
the first run that begins after the code point. -/
def shifted : List Shift → Nat → Option Nat
  | [], _ => none
  | s :: ss, n =>
    if n < s.run.first then none
    else if s.run.holds n then some (n + s.distance).toNat
    else shifted ss n

/-- The image of a character under a mapping given by expansions and shifts; what neither of them
mentions is kept. -/
def mapped (expansions : List (Nat × List Nat)) (shifts : List Shift) (c : Char) : List Char :=
  match shifted shifts c.toNat with
  | some n => [Char.ofNat n]
  | none =>
    match expansions.lookup c.toNat with
    | some ns => ns.map Char.ofNat
    | none => [c]

end Text

end SqlPredicates
