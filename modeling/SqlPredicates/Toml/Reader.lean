import SqlPredicates.Toml.Quoted

/-!
# Reading TOML

A document is a sequence of lines: blank lines, comments, headers, and keys with their values. Only
whether a text is a document, and which one, matters here; a text that is none has no further
explanation.

## Main definitions

* `Toml.readKey` — a key, which may be dotted
* `Toml.valueWithin` — a value within a number of nested brackets
* `Toml.parse` — the document that a text spells
-/

namespace SqlPredicates

namespace Toml

/-- The number of nested brackets, and of parts of a key, that is one too many. -/
def nestingLimit : Nat := 80

/-! ### Layout -/

/-- Passes over a comment, if there is one. -/
def skipComment : List Char → List Char
  | '#' :: cs => cs.dropWhile isPrintable
  | cs => cs

/-- Reads the end of a line, or of the text. -/
def readLineEnd : List Char → Option (List Char)
  | [] => some []
  | cs => readNewline cs

/-- Reads what may follow on a line: blanks, a comment, the end of the line. -/
def readTrailing (cs : List Char) : Option (List Char) := readLineEnd (skipComment (skipSpaces cs))

/-- Passes over blanks, comments and ends of lines. -/
def skipLayout : Nat → List Char → List Char
  | 0, cs => cs
  | n + 1, cs =>
    let cs := skipSpaces cs
    match readNewline (skipComment cs) with
    | some rest => skipLayout n rest
    | none => cs

/-! ### Keys -/

/-- Whether a character may stand in a key without quotes. -/
def isBareKeyChar (c : Char) : Bool := c.isAlphanum || c == '-' || c == '_'

/-- Reads one part of a key. -/
def readKeyPart (cs : List Char) : Option (String × List Char) :=
  match cs with
  | '"' :: _ => readLineString cs
  | '\'' :: _ => readLineString cs
  | _ =>
    let name := cs.takeWhile isBareKeyChar
    if name.isEmpty then none else some (String.ofList name, cs.dropWhile isBareKeyChar)

/-- Reads the parts of a key, with blanks around them. -/
def readKeyParts : Nat → List Char → Option (List String × List Char)
  | 0, _ => none
  | n + 1, cs => do
    let (part, rest) ← readKeyPart (skipSpaces cs)
    match skipSpaces rest with
    | '.' :: rest =>
      let (parts, rest) ← readKeyParts n rest
      return (part :: parts, rest)
    | rest => return ([part], rest)

/-- Reads a key: the parts before the last one, and the last one. -/
def readKey (cs : List Char) : Option (List String × String × List Char) := do
  let (parts, rest) ← readKeyParts cs.length cs
  let last ← parts.getLast?
  if parts.length < nestingLimit then return (parts.dropLast, last, rest) else none

/-! ### Values -/

/-- Reads the given character. -/
def readChar (c : Char) : List Char → Option (List Char)
  | x :: cs => if x = c then some cs else none
  | [] => none

variable (value : List Char → Option (Toml × List Char))

/-- Reads the items of an array and the closing bracket. A comma may stand after the last item. -/
def readItems : Nat → List Char → Option (List Toml × List Char)
  | 0, _ => none
  | n + 1, cs =>
    match skipLayout (cs.length + 1) cs with
    | ']' :: rest => some ([], rest)
    | cs => do
      let (item, rest) ← value cs
      match skipLayout (rest.length + 1) rest with
      | ',' :: rest =>
        let (items, rest) ← readItems n rest
        return (item :: items, rest)
      | ']' :: rest => return ([item], rest)
      | _ => none

/-- Reads a key, an equals sign and a value. -/
def readPair (cs : List Char) : Option (List String × String × Toml × List Char) := do
  let (path, key, rest) ← readKey cs
  let rest ← readChar '=' rest
  let (v, rest) ← value (skipSpaces rest)
  return (path, key, v, rest)

/-- Reads the pairs of a table in braces and the closing brace, adding them to a table. -/
def readPairs : Nat → Entries → List Char → Option (Entries × List Char)
  | 0, _, _ => none
  | n + 1, entries, cs => do
    let (path, key, v, rest) ← readPair value cs
    let entries ← entries.insert? path key v
    match skipSpaces rest with
    | ',' :: rest => readPairs n entries rest
    | '}' :: rest => return (entries, rest)
    | _ => none

/-- Reads a table in braces, after the opening brace. It stands on one line. -/
def readInlineTable (cs : List Char) : Option (Toml × List Char) :=
  match skipSpaces cs with
  | '}' :: rest => some (.table .inline [], rest)
  | cs => do
    let (entries, rest) ← readPairs value (cs.length + 1) [] cs
    return (.table .inline entries, rest)

/-- Reads a value that holds no more than so many nested brackets. -/
def valueWithin : Nat → List Char → Option (Toml × List Char)
  | levels, cs =>
    match cs with
    | '"' :: _ => (readString cs).map fun r => (.string r.1, r.2)
    | '\'' :: _ => (readString cs).map fun r => (.string r.1, r.2)
    | '[' :: rest =>
      match levels with
      | 0 => none
      | levels + 1 =>
        (readItems (valueWithin levels) (rest.length + 1) rest).map fun r => (.array r.1, r.2)
    | '{' :: rest =>
      match levels with
      | 0 => none
      | levels + 1 => readInlineTable (valueWithin levels) rest
    | _ => readScalar cs

/-- Reads a value. -/
def readValue (cs : List Char) : Option (Toml × List Char) := valueWithin (nestingLimit - 1) cs

/-! ### Documents -/

/-- What has been read of a document: its entries, and the header that is in force. -/
structure State where
  entries : Entries
  header : List String

/-- Reads a header in single or double brackets, from the first bracket on. -/
def readHeader (s : State) (cs : List Char) : Option (State × List Char) :=
  match cs with
  | '[' :: '[' :: rest => do
    let (path, key, rest) ← readKey rest
    let rest ← readChar ']' rest
    let rest ← readChar ']' rest
    let rest ← readTrailing rest
    let entries ← s.entries.openTables? path key
    return (⟨entries, path ++ [key]⟩, rest)
  | _ => do
    let rest ← readChar '[' cs
    let (path, key, rest) ← readKey rest
    let rest ← readChar ']' rest
    let rest ← readTrailing rest
    let entries ← s.entries.openTable? path key
    return (⟨entries, path ++ [key]⟩, rest)

/-- Reads a key with its value, up to the end of the line. -/
def readEntry (s : State) (cs : List Char) : Option (State × List Char) := do
  let (path, key, v, rest) ← readPair readValue cs
  let rest ← readTrailing rest
  let entries ← s.entries.insertUnder? s.header path key v
  return ({ s with entries }, rest)

/-- Reads the lines of a document. -/
def readLines : Nat → State → List Char → Option Entries
  | 0, _, _ => none
  | n + 1, s, cs =>
    match skipSpaces cs with
    | [] => some s.entries
    | c :: rest =>
      let cs := c :: rest
      if c = '#' || c = '\n' || c = '\r' then do
        let rest ← readTrailing cs
        readLines n s rest
      else if c = '[' then do
        let (s, rest) ← readHeader s cs
        readLines n s rest
      else do
        let (s, rest) ← readEntry s cs
        readLines n s rest

/-- The document that a text spells. A byte order mark at its front is passed over. -/
def parse (text : String) : Option Entries :=
  let cs := match text.toList with
    | '\ufeff' :: cs => cs
    | cs => cs
  readLines (cs.length + 1) ⟨[], []⟩ cs

end Toml

end SqlPredicates
