import SqlPredicates.SyntaxError
import SqlPredicates.Text.Bytes

/-!
# Cutting a text into tokens

A text is read from left to right. Layout (blanks and `--` comments) is passed over, then the
longest token at the front is taken. The first failure ends the reading, so a text gives a list of
tokens that may end with one error.

Each reader returns the characters of the lexeme and the characters after it, whose concatenation is
what was given to it; spans are the byte lengths of these parts.

## Main definitions

* `Lexeme.read` — the longest token at the front of a text
* `Cursor`, `Cursor.next?` — a place in a text, and the step to the next token
* `tokenize` — all tokens of a text
-/

namespace SqlPredicates

/-! ### Layout -/

/-- The blank characters between tokens. -/
def isLayoutChar (c : Char) : Bool :=
  c == ' ' || c == '\t' || c == '\n' || c == '\r' || c == '\x0c'

/-- Splits off the layout at the front of a text. The flag says whether the text continues a comment,
which runs up to the end of its line. -/
def splitLayout : Bool → List Char → List Char × List Char
  | _, [] => ([], [])
  | true, c :: cs =>
    let parts := splitLayout (c ≠ '\n') cs
    (c :: parts.1, parts.2)
  | false, '-' :: '-' :: cs =>
    let parts := splitLayout true cs
    ('-' :: '-' :: parts.1, parts.2)
  | false, c :: cs =>
    if isLayoutChar c then
      let parts := splitLayout false cs
      (c :: parts.1, parts.2)
    else ([], c :: cs)

/-! ### Lexemes -/

/-- Why no token can be read at the front of a text. -/
inductive LexicalFault where
  | unexpectedCharacter (found : Char)
  | unterminatedString
  | integerOverflow (digits : List Char)
  deriving DecidableEq, Repr

/-- The fault as a syntax error at an offset. -/
def LexicalFault.toError (offset : Nat) : LexicalFault → SyntaxError
  | .unexpectedCharacter found => .unexpectedCharacter offset found
  | .unterminatedString => .unterminatedString offset
  | .integerOverflow digits => .integerOverflow offset (String.ofList digits)

/-- A token at the front of a text: what it is, its characters, and the characters after it. -/
structure Lexeme where
  kind : Token.Kind
  chars : List Char
  rest : List Char

namespace Lexeme

/-- An integer literal must fit into 64 bits. -/
def integer (digits rest : List Char) : Except LexicalFault Lexeme :=
  let value := Binary64.digitsValue digits
  if value < UInt64.size then .ok ⟨.integer (UInt64.ofNat value), digits, rest⟩
  else .error (.integerOverflow digits)

/-- Digits, or digits with a point and at least one digit after it. A point without digits after it is
not part of the number. -/
def numeral (cs : List Char) : Except LexicalFault Lexeme :=
  let whole := cs.takeWhile Char.isDigit
  let rest := cs.dropWhile Char.isDigit
  match rest with
  | '.' :: tail =>
    let fraction := tail.takeWhile Char.isDigit
    if !fraction.isEmpty then
      .ok ⟨.decimal (Binary64.ofNumeral whole fraction), whole ++ '.' :: fraction,
        tail.dropWhile Char.isDigit⟩
    else if whole.isEmpty then .error (.unexpectedCharacter '.')
    else integer whole rest
  | _ => integer whole rest

/-- A string literal, whose opening quote has been read, ends at the next quote of its kind. -/
def quoted (quote : Quote) (cs : List Char) : Except LexicalFault Lexeme :=
  let body := cs.takeWhile (· ≠ quote.char)
  match cs.dropWhile (· ≠ quote.char) with
  | [] => .error .unterminatedString
  | q :: rest => .ok ⟨.string ⟨String.ofList body, quote⟩, quote.char :: body ++ [q], rest⟩

/-- An identifier in brackets, whose opening bracket has been read. -/
def bracketed (cs : List Char) : Except LexicalFault Lexeme :=
  let body := cs.takeWhile (· ≠ ']')
  match cs.dropWhile (· ≠ ']') with
  | [] => .error (.unexpectedCharacter '[')
  | b :: rest => .ok ⟨.identifier (String.ofList body), '[' :: body ++ [b], rest⟩

/-- A word is a keyword, in either case, or an identifier. -/
def wordKind (name : String) : Token.Kind :=
  match Keyword.ofWord? name with
  | some keyword => .keyword keyword
  | none => .identifier name

/-- The word at the front of a text. -/
def word (cs : List Char) : Lexeme :=
  let chars := cs.takeWhile isIdentPart
  ⟨wordKind (String.ofList chars), chars, cs.dropWhile isIdentPart⟩

/-- A symbol of one character. -/
def shortSymbol (c : Char) (cs : List Char) : Except LexicalFault Lexeme :=
  match Symbol.single? c with
  | some sign => .ok ⟨.symbol sign, [c], cs⟩
  | none => .error (.unexpectedCharacter c)

/-- A symbol of two characters where there is one, else of one. -/
def symbol (c : Char) : List Char → Except LexicalFault Lexeme
  | [] => shortSymbol c []
  | d :: cs =>
    match Symbol.pair? c d with
    | some sign => .ok ⟨.symbol sign, [c, d], cs⟩
    | none => shortSymbol c (d :: cs)

/-- The longest token at the front of the text `c :: cs`. -/
def read (c : Char) (cs : List Char) : Except LexicalFault Lexeme :=
  if c.isDigit || c == '.' then numeral (c :: cs)
  else if c == '\'' then quoted .single cs
  else if c == '"' then quoted .double cs
  else if c == '[' then bracketed cs
  else if isIdentStart c then .ok (word (c :: cs))
  else symbol c cs

end Lexeme

/-! ### The token list -/

/-- A place in a text: the characters from there on, and the byte offset of the first of them. -/
structure Cursor where
  rest : List Char
  offset : Nat

/-- A token, or the error that ends the list of tokens. -/
abbrev TokenItem := Except SyntaxError Token

namespace Cursor

/-- The start of a text. -/
def ofText (text : String) : Cursor := ⟨text.toList, 0⟩

/-- The next token and the place after it; nothing at the end of the text. After an error nothing
follows. -/
def next? (c : Cursor) : Option (TokenItem × Cursor) :=
  let parts := splitLayout false c.rest
  let start := c.offset + Text.bytes parts.1
  match parts.2 with
  | [] => none
  | first :: rest =>
    match Lexeme.read first rest with
    | .error fault => some (.error (fault.toError start), ⟨[], start⟩)
    | .ok lexeme =>
      let stop := start + Text.bytes lexeme.chars
      some (.ok ⟨lexeme.kind, ⟨start, stop⟩⟩, ⟨lexeme.rest, stop⟩)

/-- At most `n` items from a place on. -/
def itemsWithin : Nat → Cursor → List TokenItem
  | 0, _ => []
  | n + 1, c =>
    match c.next? with
    | none => []
    | some (item, c') => item :: itemsWithin n c'

/-- All items from a place on. Each of them takes at least one character. -/
def items (c : Cursor) : List TokenItem := c.itemsWithin c.rest.length

end Cursor

/-- The tokens of a text, ended by an error if some part of the text is no token. -/
def tokenize (text : String) : List TokenItem := (Cursor.ofText text).items

end SqlPredicates
