/-!
# Comparison that ignores ASCII case

Keywords, variable names and function names are compared without regard to the case of the letters
`A` to `Z`; every other character must agree exactly.

## Main definitions

* `Text.foldAscii` — a text with `A` to `Z` replaced by `a` to `z`
* `Text.sameAscii` — equality of texts up to that replacement
-/

namespace SqlPredicates

namespace Text

/-- The text with the letters `A` to `Z` replaced by `a` to `z`. -/
def foldAscii (s : String) : String := String.ofList (s.toList.map Char.toLower)

/-- Whether two texts agree up to the case of ASCII letters. -/
def sameAscii (s t : String) : Bool := foldAscii s == foldAscii t

theorem sameAscii_iff {s t : String} : sameAscii s t = true ↔ foldAscii s = foldAscii t := by
  simp [sameAscii]

end Text

end SqlPredicates
