import SqlPredicates.Text.Runs

/-!
# Titlecase characters

The Unicode general category `Lt`: digraphs whose first part is a capital.

## Main definitions

* `titlecaseRuns` — the runs of code points
* `isTitlecase` — the test on a character
-/

namespace SqlPredicates

namespace Text

/-- The code points of the Unicode category `Lt`. -/
def titlecaseRuns : List Run :=
  [⟨0x1c5, 0x1c5, 1⟩, ⟨0x1c8, 0x1c8, 1⟩, ⟨0x1cb, 0x1cb, 1⟩, ⟨0x1f2, 0x1f2, 1⟩,
   ⟨0x1f88, 0x1f8f, 1⟩, ⟨0x1f98, 0x1f9f, 1⟩, ⟨0x1fa8, 0x1faf, 1⟩, ⟨0x1fbc, 0x1fbc, 1⟩,
   ⟨0x1fcc, 0x1fcc, 1⟩, ⟨0x1ffc, 0x1ffc, 1⟩]

/-- Whether a character is a titlecase digraph, in the sense of the Unicode category `Lt`. -/
def isTitlecase (c : Char) : Bool := covers titlecaseRuns c.toNat

end Text

end SqlPredicates
