import SqlPredicates.Search.Term

/-!
# Searching documents

A document is the list of its words. A simple term is found at every position where its words stand in
a row; the other terms combine the positions of their parts. A negated term can match without having
positions.

## Main definitions

* `Document` — the words of a text
* `Document.positions` — where a word or phrase is found
* `Hits`, `Document.search` — the result of a search, and the search for a term
* `Document.fulfils` — whether a document satisfies a search condition
-/

namespace SqlPredicates

/-- The greatest distance of the sides of a `NEAR`, if no other is given. -/
def defaultNearDistance : Nat := 50

/-- A text as a list of words. -/
structure Document where
  words : List String

/-- Whether a term matches, and the positions where it was found. A negated term matches without a
position. -/
structure Hits where
  matched : Bool
  positions : List Nat
  deriving DecidableEq, Repr

namespace Hits

/-- No match. -/
def none : Hits := ⟨false, []⟩

/-- The matches at given positions. -/
def ofPositions (positions : List Nat) : Hits := ⟨!positions.isEmpty, positions⟩

/-- Puts a position into an increasing list, unless it is there. -/
def insertPosition (p : Nat) : List Nat → List Nat
  | [] => [p]
  | q :: qs =>
    if p < q then p :: q :: qs
    else if p = q then q :: qs
    else q :: insertPosition p qs

/-- The increasing list of the given positions. -/
def ordered (positions : List Nat) : List Nat := positions.foldr insertPosition []

/-- The matches of either side. -/
def union (a b : Hits) : Hits := ⟨a.matched || b.matched, ordered (a.positions ++ b.positions)⟩

end Hits

namespace Document

/-- The words of a text. -/
def ofText (text : String) : Document := ⟨Text.words text⟩

/-- Whether a word of a document is the wanted one, or begins with it. -/
def wordFits (isBeginning : Bool) (word wanted : String) : Bool :=
  if isBeginning then wanted.toList.isPrefixOf word.toList else word == wanted

/-- Whether the wanted words stand at the front of a list of words. -/
def standsAtFront (isBeginning : Bool) : List String → List String → Bool
  | [], _ => true
  | _ :: _, [] => false
  | wanted :: wanteds, word :: words =>
    wordFits isBeginning word wanted && standsAtFront isBeginning wanteds words

/-- The positions, counted from `p`, where the wanted words stand in a list of words. -/
def positionsFrom (isBeginning : Bool) (wanted : List String) : Nat → List String → List Nat
  | _, [] => []
  | p, word :: words =>
    let rest := positionsFrom isBeginning wanted (p + 1) words
    if standsAtFront isBeginning wanted (word :: words) then p :: rest else rest

/-- The positions where a word or phrase is found. A term without words is found nowhere. -/
def positions (d : Document) (t : SimpleTerm) : List Nat :=
  if t.words.isEmpty then [] else positionsFrom t.isPrefixTerm t.words 0 d.words

/-- The matches of one of several words and phrases. -/
def searchAny (d : Document) (terms : List SimpleTerm) : Hits :=
  terms.foldl (fun hits t => hits.union (Hits.ofPositions (d.positions t))) Hits.none

/-- The distance of two positions. -/
def distance (p q : Nat) : Nat := max p q - min p q

/-- The positions on either side that have one on the other side at most `near` away. -/
def nearPositions (near : Nat) (lhs rhs : List Nat) : List Nat :=
  Hits.ordered (lhs.flatMap fun l => rhs.flatMap fun r => if distance l r ≤ near then [l, r] else [])

/-- The result of searching a document for a term. -/
def search (d : Document) (near : Nat) : Term → Hits
  | .simple t => Hits.ofPositions (d.positions t)
  | .weighted items _ => d.searchAny (items.map WeightedItem.term)
  | .generation _ terms _ => d.searchAny terms
  | .group inner _ => d.search near inner
  | .not inner _ => ⟨!(d.search near inner).matched, []⟩
  | .joined op lhs rhs _ =>
    let l := d.search near lhs
    let r := d.search near rhs
    match op with
    | .and => if l.matched && r.matched then l.union r else Hits.none
    | .or => l.union r
    | .near => Hits.ofPositions (nearPositions near l.positions r.positions)

/-- Whether a document satisfies a search condition. -/
def fulfils (d : Document) (near : Nat) (t : Term) : Bool := (d.search near t).matched

end Document

end SqlPredicates
