import SqlPredicates.Text.Runs

/-!
# Blank characters

The Unicode property `White_Space`.

## Main definitions

* `blankRuns` — the runs of code points
* `isBlank` — the test on a character
-/

namespace SqlPredicates

namespace Text

/-- The code points with the Unicode property `White_Space`. -/
def blankRuns : List Run :=
  [⟨0x9, 0xd, 1⟩, ⟨0x20, 0x20, 1⟩, ⟨0x85, 0x85, 1⟩, ⟨0xa0, 0xa0, 1⟩, ⟨0x1680, 0x1680, 1⟩,
   ⟨0x2000, 0x200a, 1⟩, ⟨0x2028, 0x2029, 1⟩, ⟨0x202f, 0x202f, 1⟩, ⟨0x205f, 0x205f, 1⟩,
   ⟨0x3000, 0x3000, 1⟩]

/-- Whether a character is white space, in the sense of the Unicode property `White_Space`. -/
def isBlank (c : Char) : Bool := covers blankRuns c.toNat

end Text

end SqlPredicates
