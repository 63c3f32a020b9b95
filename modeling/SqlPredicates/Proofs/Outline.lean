import SqlPredicates.Proofs.Rule.Grammar
import SqlPredicates.Proofs.Rule.Outline
import SqlPredicates.Proofs.Search.Grammar
import SqlPredicates.Proofs.Search.Outline

/-!
# Outlines are faithful

An outline is what a tree is compared by where its places do not matter. That is sound because it
says everything else about the tree: whatever has been read from some text can be told from its
outline, names and strings that look like outlines themselves included.

Weights need no assumption about the printing of numbers. All weights that can be read are at most
one, and the decimal that such a weight is printed as is read as the same weight.

## Main results

* `outline_faithful` — equal outlines mean equal trees up to places
-/

namespace SqlPredicates

/-- **Outlines are faithful.** Two expressions that were read as naming rules have the same outline
exactly if they are equal up to the places of their nodes, and so have two terms that were read as
search conditions. -/
theorem outline_faithful :
    (∀ (text text' : String) (e e' : Expr), parseRule text = .ok e → parseRule text' = .ok e' →
      (e.outline = e'.outline ↔ e.erase = e'.erase)) ∧
      ∀ (text text' : String) (t t' : Term), parseCondition text = .ok t →
        parseCondition text' = .ok t' → (t.outline = t'.outline ↔ t.erase = t'.erase) := by
  constructor
  · intro text text' e e' h h'
    obtain ⟨hshape, -⟩ := of_parseRule h
    obtain ⟨hshape', -⟩ := of_parseRule h'
    exact Expr.outline_eq_iff (fun inner hinner => (hshape inner hinner).1)
      fun inner hinner => (hshape' inner hinner).1
  · intro text text' t t' h h'
    obtain ⟨⟨hwritable, -⟩, -⟩ := of_parseCondition h
    obtain ⟨⟨hwritable', -⟩, -⟩ := of_parseCondition h'
    exact Term.outline_eq_iff hwritable hwritable'

/-- A rule with a name that looks like a part of an outline, in two spellings, and two conditions
that differ in a weight. -/
theorem outline_faithful_bracketedName :
    (∃ e e' : Expr, parseRule "f([g) (NOT a]) && 'x'" = .ok e ∧
        parseRule "[f] ( [g) (NOT a] ) AND 'x'" = .ok e' ∧
        e.outline = "(AND (call f [g) (NOT a]) 'x')" ∧
        (e.outline = e'.outline ↔ e.erase = e'.erase)) ∧
      ∃ t t' : Term, parseCondition "isabout(a weight(.5), b)" = .ok t ∧
        parseCondition "isabout(a weight(0.25), b)" = .ok t' ∧
        t.outline = "(ISABOUT (WEIGHT a 0.5) b)" ∧
        (t.outline = t'.outline ↔ t.erase = t'.erase) := by
  obtain ⟨hrule, hcondition⟩ := outline_faithful
  constructor
  · have he : parseRule "f([g) (NOT a]) && 'x'" =
        .ok (.binary .and
          (.call ⟨"f", ⟨0, 1⟩⟩ [.var ⟨"g) (NOT a", ⟨2, 13⟩⟩] ⟨1, 14⟩ ⟨0, 14⟩)
          (.string ⟨"x", .single⟩ ⟨18, 21⟩) ⟨0, 21⟩) := by
      decide +kernel
    have he' : parseRule "[f] ( [g) (NOT a] ) AND 'x'" =
        .ok (.binary .and
          (.call ⟨"f", ⟨0, 3⟩⟩ [.var ⟨"g) (NOT a", ⟨6, 17⟩⟩] ⟨4, 19⟩ ⟨0, 19⟩)
          (.string ⟨"x", .single⟩ ⟨24, 27⟩) ⟨0, 27⟩) := by
      decide +kernel
    exact ⟨_, _, he, he', by decide +kernel, hrule _ _ _ _ he he'⟩
  · have ht : parseCondition "isabout(a weight(.5), b)" =
        .ok (.weighted
          [⟨⟨.word "a", ⟨8, 9⟩⟩, some (.ofNumeral [] ['5']), ⟨8, 20⟩⟩,
            ⟨⟨.word "b", ⟨22, 23⟩⟩, none, ⟨22, 23⟩⟩] ⟨0, 24⟩) := by
      decide +kernel
    have ht' : parseCondition "isabout(a weight(0.25), b)" =
        .ok (.weighted
          [⟨⟨.word "a", ⟨8, 9⟩⟩, some (.ofNumeral ['0'] ['2', '5']), ⟨8, 22⟩⟩,
            ⟨⟨.word "b", ⟨24, 25⟩⟩, none, ⟨24, 25⟩⟩] ⟨0, 26⟩) := by
      decide +kernel
    exact ⟨_, _, ht, ht', by decide +kernel, hcondition _ _ _ _ ht ht'⟩

end SqlPredicates
