import SqlPredicates.Search.Connective
import SqlPredicates.Text.Blank
import SqlPredicates.Text.Words

/-!
# Search terms

A search condition is a tree of terms. At its leaves stand words and phrases; a phrase that ends with
an asterisk looks for words that begin with those of the phrase. Groups keep their parentheses in the
tree, and every node records the bytes it was read from.

## Main definitions

* `SimpleTerm` — a word or a phrase
* `SimpleTerm.words`, `SimpleTerm.isPrefixTerm` — what it looks for, and how
* `WeightedItem`, `GenerationForm` — the parts of `ISABOUT` and `FORMSOF`
* `Term` — the search terms
* `Term.height` — the number of nodes on the longest path from the root to a leaf
-/

namespace SqlPredicates

/-- A bare word, or a phrase in quotes. -/
inductive WordOrPhrase where
  | word (text : String)
  | phrase (quoted : Quoted)
  deriving DecidableEq, Repr

/-- A word or a phrase with its place. -/
structure SimpleTerm where
  literal : WordOrPhrase
  span : Span
  deriving DecidableEq, Repr

namespace SimpleTerm

/-- The text without quotes. -/
def text (t : SimpleTerm) : String :=
  match t.literal with
  | .word text => text
  | .phrase quoted => quoted.text

/-- Whether the last character of a text, blanks apart, is an asterisk. -/
def endsWithStar (text : String) : Bool :=
  (text.toList.reverse.dropWhile Text.isBlank).head? == some '*'

/-- Whether the term looks for beginnings of words: a phrase that ends with an asterisk. -/
def isPrefixTerm (t : SimpleTerm) : Bool :=
  match t.literal with
  | .word _ => false
  | .phrase quoted => endsWithStar quoted.text

/-- The words of the term. An asterisk belongs to no word. -/
def words (t : SimpleTerm) : List String := Text.words t.text

/-- The canonical text. -/
def render (t : SimpleTerm) : String :=
  match t.literal with
  | .word text => renderName text
  | .phrase quoted => quoted.render

end SimpleTerm

/-- An alternative of `ISABOUT`, with its weight if it has one. -/
structure WeightedItem where
  term : SimpleTerm
  weight : Option Binary64
  span : Span
  deriving DecidableEq, Repr

/-- How `FORMSOF` derives words. -/
inductive GenerationForm where
  | inflectional
  | thesaurus
  deriving DecidableEq, Repr

namespace GenerationForm

/-- The canonical spelling. -/
def text : GenerationForm → String
  | .inflectional => "INFLECTIONAL"
  | .thesaurus => "THESAURUS"

/-- The form that a name spells, in either case. -/
def ofName? (name : String) : Option GenerationForm :=
  if Text.sameAscii name "inflectional" then some .inflectional
  else if Text.sameAscii name "thesaurus" then some .thesaurus
  else none

/-- The form that a token spells. -/
def ofKind? : Token.Kind → Option GenerationForm
  | .identifier name => ofName? name
  | _ => none

end GenerationForm

/-- A search term. -/
inductive Term where
  /-- A word or a phrase. -/
  | simple (term : SimpleTerm)
  /-- `ISABOUT` with its alternatives. -/
  | weighted (items : List WeightedItem) (span : Span)
  /-- `FORMSOF` with its words and phrases. -/
  | generation (form : GenerationForm) (terms : List SimpleTerm) (span : Span)
  /-- A term in parentheses. -/
  | group (inner : Term) (span : Span)
  /-- A negated term. -/
  | not (inner : Term) (span : Span)
  /-- Two terms joined by a connective. -/
  | joined (op : Connective) (lhs rhs : Term) (span : Span)
  deriving DecidableEq, Repr

namespace Term

/-- The bytes that the term was read from. -/
def span : Term → Span
  | simple term => term.span
  | weighted _ span => span
  | generation _ _ span => span
  | group _ span => span
  | not _ span => span
  | joined _ _ _ span => span

/-- The number of nodes on the longest path down from the root. An `ISABOUT` has items, which hold
simple terms; a `FORMSOF` holds simple terms. Both have at least one. -/
def height : Term → Nat
  | simple _ => 1
  | weighted _ _ => 3
  | generation _ _ _ => 2
  | group inner _ => inner.height + 1
  | not inner _ => inner.height + 1
  | joined _ lhs rhs _ => max lhs.height rhs.height + 1

end Term

end SqlPredicates
