import SqlPredicates.Source
import SqlPredicates.Token

/-!
# Syntax errors

Reading a text stops at the first thing that does not fit, so a failed reading has exactly one syntax
error. An error is the cause of the failure together with the byte offset where it was found; its
wording is derived from that.

## Main definitions

* `Expectation` — what would have fitted where an unsuitable token stands
* `SyntaxError` — the causes
* `SyntaxError.offset`, `SyntaxError.message` — the place and the wording
-/

namespace SqlPredicates

/-- What a reader was looking for. -/
inductive Expectation where
  | token (kind : Token.Kind)
  | expression
  | searchTerm
  | wordOrPhrase
  | weight
  | generationForm
  | commaOrClosing
  deriving DecidableEq, Repr

/-- The wording of an expectation. -/
def Expectation.describe : Expectation → String
  | .token kind => kind.describe
  | .expression => "expression"
  | .searchTerm => "search term"
  | .wordOrPhrase => "word or phrase"
  | .weight => "weight"
  | .generationForm => "`INFLECTIONAL` or `THESAURUS`"
  | .commaOrClosing => "`,` or `)`"

/-- Why a text could not be read. -/
inductive SyntaxError where
  | unexpectedCharacter (offset : Nat) (found : Char)
  | unterminatedString (offset : Nat)
  | integerOverflow (offset : Nat) (digits : String)
  | unexpected (offset : Nat) (expected : Expectation) (found : Token.Kind)
  | weightOutOfRange (offset : Nat) (value : Binary64)
  | nestingTooDeep (offset : Nat)
  | emptyInput
  deriving DecidableEq, Repr

namespace SyntaxError

/-- The byte offset where the error was found. -/
def offset : SyntaxError → Nat
  | .unexpectedCharacter offset _ => offset
  | .unterminatedString offset => offset
  | .integerOverflow offset _ => offset
  | .unexpected offset _ _ => offset
  | .weightOutOfRange offset _ => offset
  | .nestingTooDeep offset => offset
  | .emptyInput => 0

/-- The wording of the error. -/
def message : SyntaxError → String
  | .unexpectedCharacter _ found => "unexpected character `" ++ found.toString ++ "`"
  | .unterminatedString _ => "unterminated string literal"
  | .integerOverflow _ digits => "integer literal `" ++ digits ++ "` is out of range"
  | .unexpected _ expected found => "expected " ++ expected.describe ++ ", found " ++ found.describe
  | .weightOutOfRange _ value => "weight " ++ value.text ++ " is outside of the range 0.0..=1.0"
  | .nestingTooDeep _ => "expression is nested too deeply"
  | .emptyInput => "empty input"

/-- The error as a report on the text that it was found in. -/
def report (e : SyntaxError) (source : Source) : String := source.report e.message e.offset

end SyntaxError

end SqlPredicates
