import SqlPredicates.Proofs.Rule.Places
import SqlPredicates.Proofs.Search.Places

/-!
# Every node has exactly its source

A diagnostic points at a node by its span, so the span should be the text that the node was read
from, from the first character to the last. For the nodes that are rules or conditions of their own
this can be tested by reading the part of the text at the span alone. The reading succeeds and gives
the node again, with places that count from the start of the part.

What the node stood in has no influence: neither the operators around it, which decide where it ends,
nor the number of readings that were under way when it was read.

## Main results

* `parse_slice` — reading the part of a text at the span of a node
-/

namespace SqlPredicates

/-- **Every node has exactly its source.** In a text that is read as a naming rule, the span of each
expression of the rule is on boundaries of characters, and the part of the text there is read as that
expression, of which all places are moved to the right by the start of the span. The same holds of
search conditions and their terms, words and phrases in lists included. -/
theorem parse_slice :
    (∀ (text : String) (e inner : Expr), parseRule text = .ok e → inner.Within e →
      Text.OnBoundaries inner.span text.toList ∧
        ∃ e' : Expr, parseRule (String.ofList (Text.slice inner.span text.toList)) = .ok e' ∧
          e'.shift inner.span.start = inner) ∧
      ∀ (text : String) (t inner : Term), parseCondition text = .ok t → inner.Within t →
        Text.OnBoundaries inner.span text.toList ∧
          ∃ t' : Term, parseCondition (String.ofList (Text.slice inner.span text.toList)) = .ok t' ∧
            t'.shift inner.span.start = inner :=
  ⟨fun _ _ _ h hinner => parseRule_slice h hinner,
    fun _ _ _ h hinner => parseCondition_slice h hinner⟩

/-- A negated sum, with a comment after the `NOT`. -/
def negatedSum : Expr :=
  .unary .not
    (.binary .add
      (.call ⟨"f", ⟨18, 19⟩⟩ [.integer 1 ⟨20, 21⟩, .var ⟨"b", ⟨22, 23⟩⟩] ⟨19, 24⟩ ⟨18, 24⟩)
      (.integer 2 ⟨25, 26⟩) ⟨18, 26⟩)
    ⟨10, 26⟩

/-- A rule that ends with the negated sum; before it stands a character of two bytes. -/
def alternativeRule : Expr :=
  .binary .or
    (.binary .equal (.string ⟨"é", .single⟩ ⟨0, 4⟩) (.var ⟨"a", ⟨5, 6⟩⟩) ⟨0, 6⟩) negatedSum ⟨0, 26⟩

/-- A word in the list of an `ISABOUT`. -/
def listedWord : Term := .simple ⟨.word "b", ⟨34, 35⟩⟩

/-- A condition in which the word is below a conjunction, a negation and a `NEAR`. -/
def listedWordCondition : Term :=
  .joined .and (.simple ⟨.word "c", ⟨0, 1⟩⟩)
    (.not
      (.joined .near (.simple ⟨.word "a", ⟨7, 8⟩⟩)
        (.weighted
          [⟨⟨.phrase ⟨"é", .single⟩, ⟨19, 23⟩⟩, some .one, ⟨19, 33⟩⟩,
            ⟨⟨.word "b", ⟨34, 35⟩⟩, none, ⟨34, 35⟩⟩]
          ⟨11, 36⟩)
        ⟨7, 36⟩)
      ⟨6, 36⟩)
    ⟨0, 36⟩

theorem parse_slice_alternativeRule :
    (parseRule "'é'=a OR NOT --x\nf(1,b)+2" = .ok alternativeRule ∧
        negatedSum.Within alternativeRule ∧
        ∃ e' : Expr, parseRule "NOT --x\nf(1,b)+2" = .ok e' ∧ e'.shift 10 = negatedSum) ∧
      parseCondition "c AND !a ~ isabout('é' weight(1),b)" = .ok listedWordCondition ∧
        listedWord.Within listedWordCondition ∧
        ∃ t' : Term, parseCondition "b" = .ok t' ∧ t'.shift 34 = listedWord := by
  have hrule : parseRule "'é'=a OR NOT --x\nf(1,b)+2" = .ok alternativeRule := by decide +kernel
  have hcondition : parseCondition "c AND !a ~ isabout('é' weight(1),b)" =
      .ok listedWordCondition := by
    decide +kernel
  have hsum : negatedSum.Within alternativeRule :=
    show Node.expr _ ∈ Node.descendants _ by decide +kernel
  have hword : listedWord.Within listedWordCondition :=
    show Node.term _ ∈ Node.descendants _ by decide +kernel
  have hslice : String.ofList
      (Text.slice negatedSum.span "'é'=a OR NOT --x\nf(1,b)+2".toList) = "NOT --x\nf(1,b)+2" := by
    decide +kernel
  have hslice' : String.ofList
      (Text.slice listedWord.span "c AND !a ~ isabout('é' weight(1),b)".toList) = "b" := by
    decide +kernel
  obtain ⟨-, e', he', hshift⟩ := parse_slice.1 _ _ _ hrule hsum
  obtain ⟨-, t', ht', hshift'⟩ := parse_slice.2 _ _ _ hcondition hword
  rw [hslice] at he'
  rw [hslice'] at ht'
  exact ⟨⟨hrule, hsum, e', he', hshift⟩, hcondition, hword, t', ht', hshift'⟩

end SqlPredicates
