import SqlPredicates.Text.Bytes

/-!
# Named texts and reports

A diagnostic is an offset and a message. To show it, the offset is turned into a line and a column of
a named text, and the line is printed with a caret under the column.

Lines are separated by newlines. Lines and columns count from one, and columns count characters. An
offset inside a character stands for the start of that character, one past the end for the end.

## Main definitions

* `Source` — a text with a display name
* `Source.lineCol`, `Source.lineText` — the position of an offset and the line around it
* `Source.report` — the printed diagnostic
-/

namespace SqlPredicates

/-- A line and a column, both counted from one. -/
structure LineCol where
  line : Nat
  col : Nat
  deriving DecidableEq, Repr

/-- A text with the name it is reported under. -/
structure Source where
  name : String
  content : String

namespace Source

/-- A text that was given directly. -/
def input (content : String) : Source := ⟨"<input>", content⟩

/-- The part of the current line that stands at the end of `cs`. -/
def lastLine (cs : List Char) : List Char := (cs.reverse.takeWhile (· ≠ '\n')).reverse

/-- The characters before an offset. -/
def before (s : Source) (offset : Nat) : List Char := Text.takeBytes offset s.content.toList

/-- The characters from an offset on. -/
def after (s : Source) (offset : Nat) : List Char := Text.dropBytes offset s.content.toList

/-- The line and column of a byte offset. -/
def lineCol (s : Source) (offset : Nat) : LineCol where
  line := (s.before offset).count '\n' + 1
  col := (lastLine (s.before offset)).length + 1

/-- The line that holds a byte offset, up to the newline. -/
def lineChars (s : Source) (offset : Nat) : List Char :=
  lastLine (s.before offset) ++ (s.after offset).takeWhile (· ≠ '\n')

/-- The line that holds a byte offset, without the newline and without carriage returns before it. -/
def lineText (s : Source) (offset : Nat) : String :=
  String.ofList ((s.lineChars offset).reverse.dropWhile (· = '\r')).reverse

/-- So many blanks. -/
def blanks (n : Nat) : String := String.ofList (List.replicate n ' ')

/-- The message, the place, and the line with a caret under the column. -/
def report (s : Source) (message : String) (offset : Nat) : String :=
  let place := s.lineCol offset
  let line := toString place.line
  let gutter := blanks line.length
  "error: " ++ message ++ "\n"
    ++ " --> " ++ s.name ++ ":" ++ line ++ ":" ++ toString place.col ++ "\n"
    ++ gutter ++ " |\n"
    ++ line ++ " | " ++ s.lineText offset ++ "\n"
    ++ gutter ++ " | " ++ blanks (place.col - 1) ++ "^"

end Source

end SqlPredicates
