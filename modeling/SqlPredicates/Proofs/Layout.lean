import SqlPredicates.Proofs.Rule.Comparison
import SqlPredicates.Proofs.Search.Comparison
import SqlPredicates.Proofs.Token.Items

/-!
# Layout and spelling do not matter

Two texts that are cut into the same tokens are read alike, whatever stands between the tokens and
however their operators are spelled. Both readings succeed, with trees that agree up to places, or
both fail, with one fault at tokens that have the same index. The end of a text counts as the token
after its last one, so that its index is the same in both texts.

The tokens with the same index are those that belong together in the comparison of the two readings,
and the texts are compared up to their ends. Nothing can be read beyond the end of a text.

## Main definitions

* `SameTokens` — two texts with the same tokens up to spelling
* `SameOutcome` — two readings that succeed or fail alike

## Main results

* `parse_of_sameTokens` — naming rules and search conditions depend on their tokens only
-/

namespace SqlPredicates

/-- Two texts that consist of tokens, which agree one by one up to spelling. -/
structure SameTokens (spelling : Token.Kind → Token.Kind) (text text' : String)
    (ts ts' : List Token) : Prop where
  tokens : tokenize text = ts.map .ok
  tokens' : tokenize text' = ts'.map .ok
  spelling_eq : ts.map (fun t => spelling t.kind) = ts'.map (fun t => spelling t.kind)

/-- Two readings with the same outcome: results that are related, nothing to read at all, or one
fault at tokens with the same index. -/
inductive SameOutcome {α : Type} (R : α → α → Prop) (ts ts' : List Token) :
    Except SyntaxError α → Except SyntaxError α → Prop
  | ok {a a' : α} (h : R a a') : SameOutcome R ts ts' (.ok a) (.ok a')
  | emptyInput : SameOutcome R ts ts' (.error .emptyInput) (.error .emptyInput)
  | fault (fault : Fault) {i : ℕ} {t t' : Token} (ht : ts[i]? = some t) (ht' : ts'[i]? = some t') :
      SameOutcome R ts ts' (.error (fault.errorAt t)) (.error (fault.errorAt t'))

variable {spelling : Token.Kind → Token.Kind} {text text' : String} {ts ts' : List Token}

namespace SameTokens

theorem length_eq (h : SameTokens spelling text text' ts ts') : ts.length = ts'.length := by
  simpa using congrArg List.length h.spelling_eq

/-- The tokens with the same index belong together. -/
def comparison (h : SameTokens spelling text text' ts ts') : Comparison spelling where
  Paired t t' := spelling t.kind = spelling t'.kind ∧
    ∃ i : ℕ, (ts ++ [endToken text])[i]? = some t ∧ (ts' ++ [endToken text'])[i]? = some t'
  spelling_eq := And.left
  last := ⟨endToken text, [], Text.bytes text.toList, 0, 0⟩
  last' := ⟨endToken text', [], Text.bytes text'.toList, 0, 0⟩
  paired_last := by
    refine ⟨rfl, ts.length, ?_, ?_⟩
    · simp
    · simp [h.length_eq]

theorem paired (h : SameTokens spelling text text' ts ts') :
    List.Forall₂ h.comparison.Paired ts ts' := by
  refine List.forall₂_iff_get.mpr ⟨h.length_eq, fun i hi hi' => ⟨?_, i, ?_, ?_⟩⟩
  · have hget := congrArg (·[i]?) h.spelling_eq
    simpa [hi, hi'] using hget
  · rw [List.getElem?_append_left hi, List.getElem?_eq_getElem hi]
    rfl
  · rw [List.getElem?_append_left hi', List.getElem?_eq_getElem hi']
    rfl

/-- What is done alike at places that are alike is done alike on the two texts. -/
theorem sameOutcome {α : Type} {R : α → α → Prop} {reads : Reads α}
    (h : SameTokens spelling text text' ts ts')
    (hreads : ∀ {p p' : Parser}, p.depth = 0 → p'.depth = 0 → h.comparison.Alike p p' →
      h.comparison.Follows R reads reads p p') :
    SameOutcome R (ts ++ [endToken text]) (ts' ++ [endToken text']) (Parser.run reads text)
      (Parser.run reads text') := by
  obtain ⟨p, hp, hpasses⟩ := Parser.exists_passes_to_end h.tokens
  obtain ⟨p', hp', hpasses'⟩ := Parser.exists_passes_to_end h.tokens'
  have hlast : Parser.Passes p ts (h.comparison.last.atDepth 0) := hpasses
  have hlast' : Parser.Passes p' ts' (h.comparison.last'.atDepth 0) := hpasses'
  have hend : ∀ t ∈ ts, t.kind ≠ .endOfInput := by
    intro t ht
    have hmem : .ok t ∈ tokenize text := by
      rw [h.tokens]
      exact List.mem_map_of_mem ht
    exact (lexical_of_mem_tokenize hmem).ne_endOfInput
  have hheight : p.height = p'.height := by
    rw [Parser.height_of_ofText hp, Parser.height_of_ofText hp']
  have halike := Comparison.alike_of_passes hlast hlast' h.paired hend hheight
  rw [Parser.run, Parser.run, hp, hp']
  dsimp only
  rcases hreads (Parser.depth_of_ofText hp) (Parser.depth_of_ofText hp') halike with hlost | hagrees
  · -- nothing is beyond the end of a text
    cases hlost
  · generalize reads p = r at hagrees
    generalize reads p' = r' at hagrees
    cases hagrees with
    | ok h _ => exact .ok h
    | emptyInput => exact .emptyInput
    | fault fault hq =>
      obtain ⟨-, i, ht, ht'⟩ := hq.paired
      exact .fault fault ht ht'
    | tooDeep hpaired =>
      obtain ⟨-, i, ht, ht'⟩ := hpaired
      exact .fault .nestingTooDeep ht ht'

end SameTokens

/-- **Parsing depends only on the tokens.** Texts whose tokens agree one by one up to the spelling of
operators are both read, as trees that agree up to places, or are both refused, for the same reason
and at tokens with the same index. -/
theorem parse_of_sameTokens :
    (∀ (text text' : String) (ts ts' : List Token),
      SameTokens Rule.canonicalKind text text' ts ts' →
        SameOutcome (fun e e' : Expr => e.erase = e'.erase) (ts ++ [endToken text])
          (ts' ++ [endToken text']) (parseRule text) (parseRule text')) ∧
      ∀ (text text' : String) (ts ts' : List Token),
        SameTokens Search.canonicalKind text text' ts ts' →
          SameOutcome (fun t t' : Term => t.erase = t'.erase) (ts ++ [endToken text])
            (ts' ++ [endToken text']) (parseCondition text) (parseCondition text') := by
  constructor
  · intro text text' ts ts' h
    exact h.sameOutcome Rule.follows_rule
  · intro text text' ts ts' h
    exact h.sameOutcome Search.follows_condition

/-- A rule in two spellings, with a comment after one of them, and a condition that breaks off after
a connective. -/
theorem parse_of_sameTokens_orNot :
    (∃ ts ts' : List Token, SameTokens Rule.canonicalKind "a||!b" "a OR NOT [b] -- c" ts ts' ∧
        ts.length = 4 ∧
        SameOutcome (fun e e' : Expr => e.erase = e'.erase) (ts ++ [endToken "a||!b"])
          (ts' ++ [endToken "a OR NOT [b] -- c"]) (parseRule "a||!b")
          (parseRule "a OR NOT [b] -- c")) ∧
      ∃ ts ts' : List Token, SameTokens Search.canonicalKind "a|" "a OR" ts ts' ∧ ts.length = 2 ∧
        SameOutcome (fun t t' : Term => t.erase = t'.erase) (ts ++ [endToken "a|"])
          (ts' ++ [endToken "a OR"]) (parseCondition "a|") (parseCondition "a OR") := by
  obtain ⟨hrule, hcondition⟩ := parse_of_sameTokens
  constructor
  · have hsame : SameTokens Rule.canonicalKind "a||!b" "a OR NOT [b] -- c"
        [⟨.identifier "a", ⟨0, 1⟩⟩, ⟨.symbol .doubleBar, ⟨1, 3⟩⟩, ⟨.symbol .bang, ⟨3, 4⟩⟩,
          ⟨.identifier "b", ⟨4, 5⟩⟩]
        [⟨.identifier "a", ⟨0, 1⟩⟩, ⟨.keyword .or, ⟨2, 4⟩⟩, ⟨.keyword .not, ⟨5, 8⟩⟩,
          ⟨.identifier "b", ⟨9, 12⟩⟩] :=
      ⟨by decide, by decide, rfl⟩
    exact ⟨_, _, hsame, rfl, hrule _ _ _ _ hsame⟩
  · have hsame : SameTokens Search.canonicalKind "a|" "a OR"
        [⟨.identifier "a", ⟨0, 1⟩⟩, ⟨.symbol .bar, ⟨1, 2⟩⟩]
        [⟨.identifier "a", ⟨0, 1⟩⟩, ⟨.keyword .or, ⟨2, 4⟩⟩] :=
      ⟨by decide, by decide, rfl⟩
    exact ⟨_, _, hsame, rfl, hcondition _ _ _ _ hsame⟩

end SqlPredicates
