import SqlPredicates.Toml.Scalar

/-!
# Strings of TOML

There are four kinds of strings. Double quotes allow escapes, single quotes do not; three quotes in a
row allow the text to go over several lines. Control characters are refused in all of them, except the
tab and, in texts of several lines, the ends of lines. A line ends with a newline, or with a carriage
return and a newline, and reads as a newline in both cases.

## Main definitions

* `Toml.readEscape` — what follows a backslash
* `Toml.readLine` — a string on one line
* `Toml.readBlock` — a string over several lines
* `Toml.readString` — a string of any kind
-/

namespace SqlPredicates

namespace Toml

/-- Whether a character may stand in a string or a comment as it is. -/
def isPrintable (c : Char) : Bool := c == '\t' || (' ' ≤ c && c ≠ '\x7f')

/-- Reads the end of a line. -/
def readNewline : List Char → Option (List Char)
  | '\n' :: cs => some cs
  | '\r' :: '\n' :: cs => some cs
  | _ => none

/-- Whether a character is a blank within a line. -/
def isSpace (c : Char) : Bool := c == ' ' || c == '\t'

/-- Passes over blanks within a line. -/
def skipSpaces (cs : List Char) : List Char := cs.dropWhile isSpace

/-- The character with a code point, if there is one. -/
def charOf? (n : Nat) : Option Char := if n.isValidChar then some (Char.ofNat n) else none

/-- Reads a character given by so many hexadecimal digits. -/
def readCodePoint (count : Nat) (cs : List Char) : Option (Char × List Char) :=
  let digits := cs.take count
  if digits.length = count && digits.all isHexDigit then
    (charOf? (digitsIn 16 digits)).map fun c => (c, cs.drop count)
  else none

/-- Reads what follows a backslash. -/
def readEscape : List Char → Option (Char × List Char)
  | 'b' :: cs => some ('\x08', cs)
  | 't' :: cs => some ('\t', cs)
  | 'n' :: cs => some ('\n', cs)
  | 'f' :: cs => some ('\x0c', cs)
  | 'r' :: cs => some ('\r', cs)
  | '"' :: cs => some ('"', cs)
  | '\\' :: cs => some ('\\', cs)
  | 'u' :: cs => readCodePoint 4 cs
  | 'U' :: cs => readCodePoint 8 cs
  | _ => none

/-- Reads the rest of a string on one line, up to the closing quote. -/
def readLine (quote : Char) : Nat → List Char → Option (List Char × List Char)
  | 0, _ => none
  | n + 1, cs =>
    match cs with
    | [] => none
    | c :: rest =>
      if c = quote then some ([], rest)
      else if c = '\\' && quote = '"' then do
        let (x, rest) ← readEscape rest
        let (text, rest) ← readLine quote n rest
        return (x :: text, rest)
      else if isPrintable c then do
        let (text, rest) ← readLine quote n rest
        return (c :: text, rest)
      else none

/-- Passes over blanks and ends of lines. -/
def skipLines : Nat → List Char → List Char
  | 0, cs => cs
  | n + 1, cs =>
    let cs := skipSpaces cs
    match readNewline cs with
    | some rest => skipLines n rest
    | none => cs

/-- Reads a backslash at the end of a line, with the blanks and lines that it joins. -/
def readJoin (cs : List Char) : Option (List Char) := do
  let rest ← readNewline (skipSpaces cs)
  return skipLines (rest.length + 1) rest

/-- Reads the rest of a string over several lines, up to three closing quotes. One or two quotes more
before them belong to the text. -/
def readBlock (quote : Char) : Nat → List Char → Option (List Char × List Char)
  | 0, _ => none
  | n + 1, cs =>
    match cs with
    | [] => none
    | c :: rest =>
      if c = quote then
        let quotes := cs.takeWhile (· = quote)
        let after := cs.dropWhile (· = quote)
        if quotes.length < 3 then do
          let (text, rest) ← readBlock quote n after
          return (quotes ++ text, rest)
        else if quotes.length ≤ 5 then some (quotes.drop 3, after)
        else none
      else if c = '\\' && quote = '"' then
        match readJoin rest with
        | some rest => readBlock quote n rest
        | none => do
          let (x, rest) ← readEscape rest
          let (text, rest) ← readBlock quote n rest
          return (x :: text, rest)
      else
        match readNewline cs with
        | some rest => do
          let (text, rest) ← readBlock quote n rest
          return ('\n' :: text, rest)
        | none =>
          if isPrintable c then do
            let (text, rest) ← readBlock quote n rest
            return (c :: text, rest)
          else none

/-- Reads a string on one line, from its opening quote on. -/
def readLineString (cs : List Char) : Option (String × List Char) :=
  match cs with
  | quote :: rest =>
    if quote = '"' || quote = '\'' then do
      let (text, rest) ← readLine quote (rest.length + 1) rest
      return (String.ofList text, rest)
    else none
  | [] => none

/-- Reads a string of any kind. A line end right after three opening quotes is left out. -/
def readString (cs : List Char) : Option (String × List Char) :=
  match cs with
  | a :: b :: c :: rest =>
    if (a = '"' || a = '\'') && a = b && b = c then do
      let body := (readNewline rest).getD rest
      let (text, rest) ← readBlock a (body.length + 1) body
      return (String.ofList text, rest)
    else readLineString cs
  | _ => readLineString cs

end Toml

end SqlPredicates
