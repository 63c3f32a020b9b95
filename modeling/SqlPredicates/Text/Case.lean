import SqlPredicates.Text.CaseIgnorable
import SqlPredicates.Text.Lower
import SqlPredicates.Text.Lowercase
import SqlPredicates.Text.Titlecase
import SqlPredicates.Text.Upper
import SqlPredicates.Text.Uppercase

/-!
# Case mapping of texts

A text is mapped character by character through the full mappings, with one rule that looks at the
neighbours: a capital sigma at the end of a word becomes the final small sigma.

## Main definitions

* `Text.isCased` — lowercase, uppercase or titlecase
* `Text.endsWord` — whether a sigma between two lists of neighbours ends a word
* `Text.lowercase`, `Text.uppercase` — the mapped texts
-/

namespace SqlPredicates

namespace Text

/-- Whether a character takes part in case distinctions. -/
def isCased (c : Char) : Bool := isLowercase c || isUppercase c || isTitlecase c

/-- Whether the nearest neighbour that case rules do not skip is a cased character. -/
def nextIsCased (neighbours : List Char) : Bool :=
  match neighbours.dropWhile isCaseIgnorable with
  | [] => false
  | c :: _ => isCased c

/-- Whether a letter with these neighbours ends a word: a cased character stands before it and none
stands after it. The list `before` is read outwards, so its head is the closest neighbour. -/
def endsWord (before after : List Char) : Bool := nextIsCased before && !nextIsCased after

/-- The lowercase characters of a text, given the characters before it in reverse. -/
def lowerFrom (before : List Char) : List Char → List Char
  | [] => []
  | c :: after =>
    (if c = 'Σ' then [if endsWord before after then 'ς' else 'σ'] else lowerChar c)
      ++ lowerFrom (c :: before) after

/-- The lowercase form of a text. -/
def lowercase (s : String) : String := String.ofList (lowerFrom [] s.toList)

/-- The uppercase form of a text. -/
def uppercase (s : String) : String := String.ofList (s.toList.flatMap upperChar)

end Text

end SqlPredicates
