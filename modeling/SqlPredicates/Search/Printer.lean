import SqlPredicates.Search.Term

/-!
# Text of search terms

The canonical text of a term spells every connective as a word and separates tokens by single blanks.
The outline of a term is its structure as nested lists, with the connective in front.

## Main definitions

* `Term.render` — the canonical text
* `Term.outline` — the nested lists
-/

namespace SqlPredicates

/-- The canonical text of an alternative of `ISABOUT`. -/
def WeightedItem.render (i : WeightedItem) : String :=
  match i.weight with
  | none => i.term.render
  | some weight => i.term.render ++ " WEIGHT(" ++ weight.text ++ ")"

/-- The structure of an alternative of `ISABOUT`. -/
def WeightedItem.outline (i : WeightedItem) : String :=
  match i.weight with
  | none => i.term.render
  | some weight => "(WEIGHT " ++ i.term.render ++ " " ++ weight.text ++ ")"

namespace Term

/-- The canonical text. -/
def render : Term → String
  | simple term => term.render
  | weighted items _ => "ISABOUT(" ++ ", ".intercalate (items.map WeightedItem.render) ++ ")"
  | generation form terms _ =>
    "FORMSOF(" ++ ", ".intercalate (form.text :: terms.map SimpleTerm.render) ++ ")"
  | group inner _ => "(" ++ inner.render ++ ")"
  | not inner _ => "NOT " ++ inner.render
  | joined op lhs rhs _ => lhs.render ++ " " ++ op.text ++ " " ++ rhs.render

/-- The structure of a term, without places. -/
def outline : Term → String
  | simple term => term.render
  | weighted items _ => "(" ++ " ".intercalate ("ISABOUT" :: items.map WeightedItem.outline) ++ ")"
  | generation form terms _ =>
    "(" ++ " ".intercalate ("FORMSOF" :: form.text :: terms.map SimpleTerm.render) ++ ")"
  | group inner _ => "(group " ++ inner.outline ++ ")"
  | not inner _ => "(NOT " ++ inner.outline ++ ")"
  | joined op lhs rhs _ => "(" ++ op.text ++ " " ++ lhs.outline ++ " " ++ rhs.outline ++ ")"

end Term

end SqlPredicates
