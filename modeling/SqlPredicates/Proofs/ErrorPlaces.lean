import SqlPredicates.Proofs.Position
import SqlPredicates.Proofs.Rule.Comparison
import SqlPredicates.Proofs.Search.Comparison
import SqlPredicates.Proofs.Token.Faults

/-!
# The places of syntax errors

A syntax error carries an offset, and a report puts a caret there. This file shows that every offset
is a place that means something in the text: the start of one of its tokens, its end, the place where
it cannot be cut into tokens, or its start if there is nothing to read.

The readers take offsets from many tokens. Most errors are about the current token, but a node that
is too high is reported at its operator, its parenthesis or its name, long after that token has been
passed over. It would be tedious to follow each of these tokens through the readers. Instead a
reading is compared with itself. A `Comparison` asks which tokens belong together, and here a token
belongs together with itself, provided that it is a token of the text. What is known of two readings
that agree is then that the error stands at such a token.

## Main definitions

* `Token.BelongsTo` — the tokens of a text, its end included
* `SyntaxError.PointsInto` — the places that errors have in a text
* `Comparison.withItself` — a text compared with itself

## Main results

* `SyntaxError.PointsInto.offset_le` — no place lies behind the end of the text
* `pointsInto_of_refused` — what a reader refuses
* `pointsInto_of_parseRule`, `pointsInto_of_parseCondition` — both grammars
-/

namespace SqlPredicates

open SqlPredicates.Parser SqlPredicates.Reads

/-- The token is one of the text, or the end of the text. -/
def Token.BelongsTo (text : String) (t : Token) : Prop :=
  .ok t ∈ tokenize text ∨ t = endToken text

/-- The place of an error in a text. Either the text cannot be cut into tokens and has at this place
what the error is about; or one of the tokens is at fault, or the end of the text; or there are no
tokens at all. -/
inductive SyntaxError.PointsInto (text : String) : SyntaxError → Prop
  | lexical {fault : LexicalFault} {before rest : List Char} (htext : text.toList = before ++ rest)
      (hbegins : fault.Begins rest)
      (hmem : .error (fault.toError (Text.bytes before)) ∈ tokenize text) :
      PointsInto text (fault.toError (Text.bytes before))
  | token {t : Token} (ht : t.BelongsTo text) (fault : Fault) : PointsInto text (fault.errorAt t)
  | emptyInput (h : tokenize text = []) : PointsInto text .emptyInput

variable {text : String} {e : SyntaxError}

/-! ### Offsets -/

theorem Token.BelongsTo.start_le {t : Token} (h : t.BelongsTo text) :
    t.span.start ≤ Text.bytes text.toList := by
  rcases h with h | rfl
  · exact (standsIn_of_mem_tokenize h).onBoundaries.start.le
  · exact Nat.le_refl _

theorem Fault.offset_errorAt (fault : Fault) (t : Token) :
    (fault.errorAt t).offset = t.span.start := by
  cases fault <;> rfl

theorem LexicalFault.offset_toError (offset : ℕ) (fault : LexicalFault) :
    (fault.toError offset).offset = offset := by
  cases fault <;> rfl

namespace SyntaxError.PointsInto

/-- **No error lies behind the end** of the text. -/
theorem offset_le (h : e.PointsInto text) : e.offset ≤ Text.bytes text.toList := by
  cases h with
  | lexical htext =>
    rw [LexicalFault.offset_toError, htext, Text.bytes_append]
    exact Nat.le_add_right _ _
  | token ht fault =>
    rw [Fault.offset_errorAt]
    exact ht.start_le
  | emptyInput => exact Nat.zero_le _

theorem of_mem_tokenize (h : .error e ∈ tokenize text) : e.PointsInto text := by
  obtain ⟨fault, before, rest, htext, rfl, hbegins⟩ := exists_begins_of_mem_tokenize h
  exact .lexical htext hbegins h

end SyntaxError.PointsInto

/-! ### A text compared with itself -/

variable {spelling : Token.Kind → Token.Kind} {α : Type} {R : α → α → Prop} {reads : Reads α}
  {p q : Parser} {ts : List Token} {depth : ℕ}

/-- A text is compared with itself up to one of its tokens. -/
def Comparison.withItself (spelling : Token.Kind → Token.Kind) {q : Parser}
    (h : q.current.BelongsTo text) : Comparison spelling where
  Paired t t' := t = t' ∧ t.BelongsTo text
  spelling_eq h := congrArg (fun t => spelling t.kind) h.1
  last := q
  last' := q
  paired_last := ⟨rfl, h⟩

/-- An error that two readings agree on stands at tokens that belong together. -/
theorem Comparison.Agrees.exists_paired {c : Comparison spelling}
    {r : EStateM.Result SyntaxError Parser α} (h : c.Agrees R (.error e q) r) :
    e = .emptyInput ∨ ∃ (fault : Fault) (t t' : Token), c.Paired t t' ∧ e = fault.errorAt t := by
  cases h with
  | fault fault hq => exact .inr ⟨fault, _, _, hq.paired, rfl⟩
  | tooDeep h => exact .inr ⟨.nestingTooDeep, _, _, h, rfl⟩
  | emptyInput => exact .inl rfl

/-- What is passed over from the start, and the token after it, belong to the text. -/
theorem belongsTo_of_passes (hp : ofText text = .ok p) (h : Passes p ts q)
    (hend : ∀ t ∈ ts, t.kind ≠ .endOfInput) : ∀ t ∈ ts ++ [q.current], t.BelongsTo text := by
  intro t ht
  have hmem := (beginsWith_of_passes hp h hend).subset (List.mem_map_of_mem (f := Except.ok) ht)
  rcases List.mem_append.mp hmem with hmem | hmem
  · exact .inl hmem
  · exact .inr (Except.ok.inj (List.mem_singleton.mp hmem))

/-- **What a reader refuses** it refuses because of a token of the text. The reading ends at the last
place of the comparison, so it has never been beyond it, and agrees with itself. -/
theorem pointsInto_of_refused
    (hfollows : ∀ {c : Comparison spelling} {p p' : Parser}, p.depth = 0 → p'.depth = 0 →
      c.Alike p p' → c.Follows R reads reads p p')
    (hp : ofText text = .ok p) (hts : Passes p ts q)
    (hreads : reads p = .error e (q.atDepth depth)) (he : e.Inner) : e.PointsInto text := by
  obtain ⟨us, hus, hend⟩ := (standsAt_of_ofText hp).exists_passes hts
  have hbelongs := belongsTo_of_passes hp hus hend
  let c := Comparison.withItself spelling (hbelongs q.current (by simp))
  have hpaired : List.Forall₂ c.Paired us us :=
    List.forall₂_same.mpr fun t ht => ⟨rfl, hbelongs t (List.mem_append_left _ ht)⟩
  have hus : Passes p us (c.last.atDepth q.depth) := hus
  have halike := Comparison.alike_of_passes (c := c) hus hus hpaired hend rfl
  rcases hfollows (depth_of_ofText hp) (depth_of_ofText hp) halike with hlost | hagrees
  · rw [Reads.after_of_error hreads] at hlost
    exact absurd hlost (Nat.lt_irrefl _)
  · rw [hreads] at hagrees
    rcases hagrees.exists_paired with rfl | ⟨fault, t, -, ⟨-, ht⟩, rfl⟩
    · exact he.elim
    · exact .token ht fault

/-! ### Both grammars -/

/-- The errors of a reader of whole texts. -/
theorem pointsInto_of_run (horderly : reads.Orderly)
    (hfollows : ∀ {c : Comparison spelling} {p p' : Parser}, p.depth = 0 → p'.depth = 0 →
      c.Alike p p' → c.Follows R (whole reads) (whole reads) p p')
    (h : run (whole reads) text = .error e) : e.PointsInto text := by
  rcases run_eq_error.mp h with hp | ⟨p, q, hp, hwhole⟩
  · exact .of_mem_tokenize (mem_tokenize_of_ofText_eq_error hp)
  have houtcome := horderly p
  rcases whole_eq_error hwhole with ⟨hempty, rfl, -⟩ | hreads | ⟨a, hreads, rfl⟩
  · exact .emptyInput (tokenize_of_passes hp (.refl p) (by simp) hempty)
  · rw [hreads] at houtcome
    cases houtcome with
    | refused hts he => exact pointsInto_of_refused hfollows hp hts hwhole he
    | unreadable hts hadvance =>
      exact .of_mem_tokenize (((Placed.of_ofText hp).of_passes hts).mem_of_advance hadvance)
  · rw [hreads] at houtcome
    cases houtcome with
    | ok hts =>
      obtain ⟨us, hus, hend⟩ := (standsAt_of_ofText hp).exists_passes hts
      have hbelongs := belongsTo_of_passes hp hus hend q.current (by simp)
      exact .token hbelongs (.unexpected (.token .endOfInput))

theorem pointsInto_of_parseRule (h : parseRule text = .error e) : e.PointsInto text :=
  pointsInto_of_run (fun p => Rule.orderly_exprWithin (maxNesting - p.depth) 0 p)
    Rule.follows_rule h

theorem pointsInto_of_parseCondition (h : parseCondition text = .error e) : e.PointsInto text :=
  pointsInto_of_run (fun p => Search.orderly_termWithin (maxNesting - p.depth) 0 p)
    Search.follows_condition h

end SqlPredicates
