import SqlPredicates.Text.Alphabetic
import SqlPredicates.Text.Case
import SqlPredicates.Text.Numeric

/-!
# Words of a text

A word is a longest run of word characters: letters, numbers of every script, and the underscore.
Words are compared in lowercase.

## Main definitions

* `Text.isWordChar` — the characters that words are made of
* `Text.pieces` — the non-empty runs of word characters
* `Text.words` — those runs in lowercase
-/

namespace SqlPredicates

namespace Text

/-- Whether a character belongs to a word. -/
def isWordChar (c : Char) : Bool := isAlphabetic c || isNumeric c || c == '_'

/-- Adds a character to the run at the front, or closes that run. The front run is the one being
read; it may be empty. -/
def addToPieces (c : Char) (pieces : List (List Char)) : List (List Char) :=
  if isWordChar c then
    match pieces with
    | [] => [[c]]
    | p :: ps => (c :: p) :: ps
  else [] :: pieces

/-- The non-empty runs of word characters, in order. -/
def pieces (cs : List Char) : List (List Char) :=
  (cs.foldr addToPieces []).filter (!·.isEmpty)

/-- The words of a text, in order and in lowercase. -/
def words (s : String) : List String :=
  (pieces s.toList).map fun p => lowercase (String.ofList p)

end Text

end SqlPredicates
