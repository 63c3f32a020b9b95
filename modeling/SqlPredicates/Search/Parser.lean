import SqlPredicates.Parser
import SqlPredicates.Search.Term

/-!
# Reading search conditions

Search conditions are read by binding powers, in the same way as naming rules: `termWithin` counts the
nested readings still allowed, and all other readers take the reader of terms as an argument.

## Main definitions

* `Search.termWithin` — a term within a number of levels
* `Parser.term`, `Parser.condition` — a term, and a term that takes up the whole text
* `parseCondition` — the tree of a text
-/

namespace SqlPredicates

namespace Search

open SqlPredicates.Parser

/-- The word or phrase that a token spells. -/
def literal? : Token.Kind → Option WordOrPhrase
  | .string quoted => some (.phrase quoted)
  | .identifier name => some (.word name)
  | _ => none

/-- The number that a token spells. -/
def number? : Token.Kind → Option Binary64
  | .decimal value => some value
  | .integer value => some (Binary64.ofNat value.toNat)
  | _ => none

/-- Reads a word or a phrase. -/
def simpleTerm : Reads SimpleTerm := do
  let token ← look
  match literal? token.kind with
  | some literal =>
    let _ ← advance
    setHeight 1
    return ⟨literal, token.span⟩
  | none => unexpected .wordOrPhrase

/-- Reads a number between zero and one. -/
def weight : Reads Binary64 := do
  let token ← look
  match number? token.kind with
  | none => unexpected .weight
  | some value =>
    if value.le Binary64.one then
      let _ ← advance
      return value
    else throw (.weightOutOfRange token.span.start value)

/-- Reads an alternative of `ISABOUT`. -/
def weightedItem : Reads WeightedItem := do
  let term ← simpleTerm
  match ← eat? (.keyword .weight) with
  | none => return ⟨term, none, term.span⟩
  | some _ =>
    let _ ← expect (.symbol .opening)
    let value ← weight
    let closing ← expect (.symbol .closing)
    return ⟨term, some value, term.span.cover closing.span⟩

/-- Reads the alternatives of `ISABOUT` from the first one on, and the closing parenthesis. -/
def weightedItems : Nat → Reads (List WeightedItem × Token)
  | 0 => unexpected .commaOrClosing
  | n + 1 => do
    let item ← weightedItem
    match ← eat? (.symbol .closing) with
    | some closing => return ([item], closing)
    | none =>
      match ← eat? (.symbol .comma) with
      | some _ =>
        let (items, closing) ← weightedItems n
        return (item :: items, closing)
      | none => unexpected .commaOrClosing

/-- Reads `ISABOUT` and its alternatives. -/
def weightedTerm : Reads Term := do
  let word ← expect (.keyword .isabout)
  let _ ← expect (.symbol .opening)
  let (items, closing) ← weightedItems (← remaining)
  setHeight 3
  return .weighted items (word.span.cover closing.span)

/-- Reads the words and phrases of `FORMSOF`, each with the comma before it, and the closing
parenthesis. -/
def generationTerms : Nat → Reads (List SimpleTerm × Token)
  | 0 => unexpected (.token (.symbol .comma))
  | n + 1 => do
    let _ ← expect (.symbol .comma)
    let term ← simpleTerm
    match ← eat? (.symbol .closing) with
    | some closing => return ([term], closing)
    | none =>
      let (terms, closing) ← generationTerms n
      return (term :: terms, closing)

/-- Reads `FORMSOF`, the form, and the words and phrases. -/
def generationTerm : Reads Term := do
  let word ← expect (.keyword .formsof)
  let _ ← expect (.symbol .opening)
  let token ← look
  match GenerationForm.ofKind? token.kind with
  | none => unexpected .generationForm
  | some form =>
    let _ ← advance
    let (terms, closing) ← generationTerms (← remaining)
    setHeight 2
    return .generation form terms (word.span.cover closing.span)

variable (operand : Nat → Reads Term)

/-- Reads a term in parentheses. -/
def group : Reads Term := do
  let opening ← advance
  let inner ← operand 0
  wrap opening.span.start
  let closing ← expect (.symbol .closing)
  return .group inner (opening.span.cover closing.span)

/-- Reads a negation and the term after it. -/
def negation : Reads Term := do
  let token ← advance
  let inner ← operand Connective.notPower
  wrap token.span.start
  return .not inner (token.span.cover inner.span)

/-- Reads a term that no connective joins. -/
def primary : Reads Term := do
  let token ← look
  match token.kind with
  | .string _ | .identifier _ => return .simple (← simpleTerm)
  | .symbol .opening => group operand
  | .keyword .not | .symbol .bang => negation operand
  | .keyword .isabout => weightedTerm
  | .keyword .formsof => generationTerm
  | _ => unexpected .searchTerm

/-- Reads the connectives, with their right sides, that follow a term and bind at least as strongly as
`least`. The height of the term goes along with it. -/
def connections (least : Nat) : Nat → Term → Nat → Reads (Term × Nat)
  | 0, lhs, height => return (lhs, height)
  | n + 1, lhs, height => do
    let token ← look
    match Connective.ofKind? token.kind with
    | none => return (lhs, height)
    | some op =>
      if op.leftPower < least then return (lhs, height)
      else
        let _ ← advance
        let rhs ← operand op.rightPower
        let height ← nodeHeight (max height (← lastHeight)) token.span.start
        connections least n (.joined op lhs rhs (lhs.span.cover rhs.span)) height

/-- Reads a term, and the connectives after it that bind at least as strongly as `least`. -/
def chain (least : Nat) : Reads Term := do
  let lhs ← primary operand
  let measured ← connections operand least (← remaining) lhs (← lastHeight)
  note measured

/-- Reads a term whose connectives bind at least as strongly as `least`. -/
def termWithin : Nat → Nat → Reads Term
  | 0, _ => tooDeep
  | levels + 1, least => do
    enter
    let t ← chain (termWithin levels) least
    leave
    return t

end Search

namespace Parser

/-- Reads a search term. -/
def term : Reads Term := do
  Search.termWithin (← levels) 0

/-- Reads a search term that takes up the whole text. -/
def condition : Reads Term := whole term

end Parser

/-- The search term that a text spells. -/
def parseCondition (text : String) : Except SyntaxError Term := Parser.run Parser.condition text

end SqlPredicates
