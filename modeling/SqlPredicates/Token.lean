import SqlPredicates.Binary64.Decimal
import SqlPredicates.Span
import SqlPredicates.Text.Ascii

/-!
# Tokens

Naming rules and search conditions are written with one set of tokens: literals, identifiers,
keywords and symbols. Several symbols are second spellings of a keyword or of another symbol; which
of them a grammar accepts is decided where its operators are defined, not here.

## Main definitions

* `Quoted` — the text of a string literal with the quote around it
* `Keyword`, `Symbol` — the reserved words and the operator signs
* `renderName` — how an identifier is written
* `Token.Kind`, `Token` — what a token is, and where it stands
* `Token.Kind.describe` — the wording of a token in a message
-/

namespace SqlPredicates

/-- The two quotes that a string literal can stand in. -/
inductive Quote where
  | single
  | double
  deriving DecidableEq, Repr

/-- The quote as a character. -/
def Quote.char : Quote → Char
  | .single => '\''
  | .double => '"'

/-- The text of a string literal and the quote around it. -/
structure Quoted where
  text : String
  quote : Quote
  deriving DecidableEq, Repr

/-- The text between its quotes. -/
def Quoted.render (q : Quoted) : String :=
  q.quote.char.toString ++ q.text ++ q.quote.char.toString

/-- The reserved words. -/
inductive Keyword where
  | and
  | or
  | not
  | like
  | near
  | isabout
  | weight
  | formsof
  deriving DecidableEq, Repr

namespace Keyword

/-- The word in capitals. -/
def text : Keyword → String
  | .and => "AND"
  | .or => "OR"
  | .not => "NOT"
  | .like => "LIKE"
  | .near => "NEAR"
  | .isabout => "ISABOUT"
  | .weight => "WEIGHT"
  | .formsof => "FORMSOF"

/-- Every reserved word. -/
def all : List Keyword := [and, or, not, like, near, isabout, weight, formsof]

/-- The reserved word that a word spells, in either case. -/
def ofWord? (word : String) : Option Keyword := all.find? fun k => Text.sameAscii k.text word

end Keyword

/-- The operator signs and the punctuation. -/
inductive Symbol where
  | plus
  | minus
  | star
  | slash
  | percent
  | equal
  | doubleEqual
  | bangEqual
  | angles
  | less
  | lessEqual
  | greater
  | greaterEqual
  | doubleAmp
  | doubleBar
  | amp
  | bar
  | bang
  | tilde
  | opening
  | closing
  | comma
  deriving DecidableEq, Repr

namespace Symbol

/-- The characters of a symbol. -/
def text : Symbol → String
  | .plus => "+"
  | .minus => "-"
  | .star => "*"
  | .slash => "/"
  | .percent => "%"
  | .equal => "="
  | .doubleEqual => "=="
  | .bangEqual => "!="
  | .angles => "<>"
  | .less => "<"
  | .lessEqual => "<="
  | .greater => ">"
  | .greaterEqual => ">="
  | .doubleAmp => "&&"
  | .doubleBar => "||"
  | .amp => "&"
  | .bar => "|"
  | .bang => "!"
  | .tilde => "~"
  | .opening => "("
  | .closing => ")"
  | .comma => ","

/-- The symbols of two characters. -/
def pair? : Char → Char → Option Symbol
  | '=', '=' => some .doubleEqual
  | '!', '=' => some .bangEqual
  | '<', '>' => some .angles
  | '<', '=' => some .lessEqual
  | '>', '=' => some .greaterEqual
  | '&', '&' => some .doubleAmp
  | '|', '|' => some .doubleBar
  | _, _ => none

/-- The symbols of one character. -/
def single? : Char → Option Symbol
  | '+' => some .plus
  | '-' => some .minus
  | '*' => some .star
  | '/' => some .slash
  | '%' => some .percent
  | '=' => some .equal
  | '<' => some .less
  | '>' => some .greater
  | '&' => some .amp
  | '|' => some .bar
  | '!' => some .bang
  | '~' => some .tilde
  | '(' => some .opening
  | ')' => some .closing
  | ',' => some .comma
  | _ => none

end Symbol

/-! ### Identifiers -/

/-- Whether an identifier can begin with a character. -/
def isIdentStart (c : Char) : Bool := c.isAlpha || c == '_' || c == '#' || c == '@'

/-- Whether an identifier can go on with a character. -/
def isIdentPart (c : Char) : Bool := isIdentStart c || c.isDigit || c == '$'

/-- Whether a name can be written without brackets: it has the form of an identifier and is no
keyword. -/
def isPlainName (name : String) : Bool :=
  (match name.toList with
    | [] => false
    | c :: cs => isIdentStart c && cs.all isIdentPart)
  && (Keyword.ofWord? name).isNone

/-- A name as it is written in a rule, in brackets where it needs them. -/
def renderName (name : String) : String := if isPlainName name then name else "[" ++ name ++ "]"

/-! ### Tokens -/

/-- What a token is. The end of the input counts as a token, which stands after all others. -/
inductive Token.Kind where
  | integer (value : UInt64)
  | decimal (value : Binary64)
  | string (value : Quoted)
  | identifier (name : String)
  | keyword (word : Keyword)
  | symbol (sign : Symbol)
  | endOfInput
  deriving DecidableEq, Repr

/-- The wording of a token in a message. -/
def Token.Kind.describe : Token.Kind → String
  | .integer value => "integer `" ++ toString value.toNat ++ "`"
  | .decimal value => "number `" ++ value.text ++ "`"
  | .string value => "string " ++ value.render
  | .identifier name => "identifier `" ++ name ++ "`"
  | .keyword word => "`" ++ word.text ++ "`"
  | .symbol sign => "`" ++ sign.text ++ "`"
  | .endOfInput => "end of input"

/-- A token and the bytes that it takes. -/
structure Token where
  kind : Token.Kind
  span : Span
  deriving DecidableEq, Repr

end SqlPredicates
