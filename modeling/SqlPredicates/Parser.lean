import SqlPredicates.Token.Lexer

/-!
# Reading token by token

A parser holds the token it looks at and the tokens after it. It is a plain value, and the actions on
it return the new parser also when they fail: what a failed call leaves behind can be read on.

Two limits keep trees small. The *depth* counts the operand readings under way and may not pass
`maxNesting`; a reading that fails does not lower it again. The *height* of every finished node may
not pass `maxNesting` either. A node is measured while it is read: the parser notes the height of the
node it has read last, and the node above takes the height of its children from there. Nothing clears
that note, so what it says before the first node and after a failure is of no use.

## Main definitions

* `Parser`, `Parser.ofText` — a place in a list of tokens, and the start of a text
* `Reads` — actions that read from a parser
* `Parser.advance`, `Parser.eat?`, `Parser.expect` — reading one token
* `Parser.lastHeight`, `Parser.setHeight` — the height of the node read last
* `Parser.nodeHeight`, `Parser.wrap` — the height of a node from its children, and its limit
-/

namespace SqlPredicates

/-- The greatest number of operand readings under way at once, and the greatest height of a tree. -/
def maxNesting : Nat := 256

/-- A place in a list of tokens. -/
structure Parser where
  /-- The token that is looked at. -/
  current : Token
  /-- What follows it. -/
  rest : List TokenItem
  /-- The number of bytes of the text, where the end of the input stands. -/
  length : Nat
  /-- The number of operand readings under way. -/
  depth : Nat
  /-- The height of the node that has been read last. -/
  height : Nat

/-- An action that reads from a parser. -/
abbrev Reads (α : Type) := EStateM SyntaxError Parser α

namespace Parser

/-- The first of the remaining items, or the end of the input. -/
def firstItem (length : Nat) : List TokenItem → TokenItem
  | [] => .ok ⟨.endOfInput, Span.point length⟩
  | item :: _ => item

/-- A parser at the first token of a text. -/
def ofText (text : String) : Except SyntaxError Parser :=
  let items := tokenize text
  let length := Text.bytes text.toList
  match firstItem length items with
  | .ok token => .ok ⟨token, items.tail, length, 0, 0⟩
  | .error e => .error e

/-- Moves on by one token and returns the token passed over. If the next token is an error, the
current token stays, and the list of tokens has ended. -/
def advance : Reads Token := fun p =>
  match firstItem p.length p.rest with
  | .ok token => .ok p.current { p with current := token, rest := p.rest.tail }
  | .error e => .error e { p with rest := p.rest.tail }

/-- The token that is looked at. -/
def look : Reads Token := fun p => .ok p.current p

/-- A bound on the number of tokens from the current one on. -/
def remaining : Reads Nat := fun p => .ok (p.rest.length + 1) p

/-- Fails because the current token does not fit. -/
def unexpected {α : Type} (expected : Expectation) : Reads α := fun p =>
  .error (.unexpected p.current.span.start expected p.current.kind) p

/-- Reads a token of the given kind, if the current token is one. -/
def eat? (kind : Token.Kind) : Reads (Option Token) := do
  let token ← look
  if token.kind = kind then
    let token ← advance
    return some token
  else return none

/-- Reads a token of the given kind. -/
def expect (kind : Token.Kind) : Reads Token := do
  match ← eat? kind with
  | some token => return token
  | none => unexpected (.token kind)

/-- Fails unless all tokens have been read. -/
def expectEnd : Reads Unit := do
  let token ← look
  if token.kind = .endOfInput then return () else unexpected (.token .endOfInput)

/-- Fails if there is no token to read. -/
def rejectEmpty : Reads Unit := do
  let token ← look
  if token.kind = .endOfInput then throw .emptyInput else return ()

/-- Counts one more operand reading under way. -/
def enter : Reads Unit := fun p => .ok () { p with depth := p.depth + 1 }

/-- Counts one operand reading less. -/
def leave : Reads Unit := fun p => .ok () { p with depth := p.depth - 1 }

/-- Counts the operand reading that is one too many, and fails. -/
def tooDeep {α : Type} : Reads α := do
  enter
  let token ← look
  throw (.nestingTooDeep token.span.start)

/-- The number of operand readings that may still begin. -/
def levels : Reads Nat := fun p => .ok (maxNesting - p.depth) p

/-- The height of the node that has been read last. -/
def lastHeight : Reads Nat := fun p => .ok p.height p

/-- Notes the height of a node that has been read. -/
def setHeight (height : Nat) : Reads Unit := fun p => .ok () { p with height }

/-- The height of a node whose highest child has the given one. Fails if the node is too high. -/
def nodeHeight (child offset : Nat) : Reads Nat :=
  if child + 1 ≤ maxNesting then return child + 1 else throw (.nestingTooDeep offset)

/-- Notes the height of a node around the one that has been read last. -/
def wrap (offset : Nat) : Reads Unit := do
  setHeight (← nodeHeight (← lastHeight) offset)

/-- Returns a node, and notes the height that goes along with it. -/
def note {α : Type} (measured : α × Nat) : Reads α := do
  setHeight measured.2
  return measured.1

/-- Reads a whole text: something, and then nothing more. -/
def whole {α : Type} (reads : Reads α) : Reads α := do
  rejectEmpty
  let result ← reads
  expectEnd
  return result

/-- The result of an action on a text from its start. -/
def run {α : Type} (reads : Reads α) (text : String) : Except SyntaxError α :=
  match ofText text with
  | .error e => .error e
  | .ok p =>
    match reads p with
    | .ok a _ => .ok a
    | .error e _ => .error e

end Parser

end SqlPredicates
