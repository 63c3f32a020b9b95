import SqlPredicates.Proofs.Rule.Grammar
import SqlPredicates.Proofs.Rule.Viability
import SqlPredicates.Proofs.Search.Grammar
import SqlPredicates.Proofs.Search.Viability

/-!
# Faults are found at the first token that does not fit

A text can be refused because one of its tokens does not fit. Two facts say that this is the first
such token. No text that begins with the same tokens up to this one is accepted, so the fault is not
found too early; and the tokens before it are the beginning of a canonical text, so it is not found
too late. The end of a text counts as a token here.

For the first fact, the reading of the text is compared with the reading of another one up to the
token that does not fit. Nothing behind that token has been looked at, so what follows may be
anything, and need not even consist of tokens. The second fact holds for every reader by what it can
be completed to; what is left is to respell the tokens as canonical texts do.

## Main definitions

* `RefusedAfter` — all texts that begin with tokens of given kinds are refused at the last of them
* `BeginsRule`, `BeginsCondition` — kinds of tokens that a canonical text begins with
* `FirstFault` — an error at the first token that does not fit

## Main results

* `refused_at_first_fault` — both facts, for naming rules and search conditions
-/

namespace SqlPredicates

open SqlPredicates.Parser

/-- Every text that begins with tokens of these kinds is refused at the last of them. -/
def RefusedAfter {α : Type} (parse : String → Except SyntaxError α) (fault : Fault)
    (kinds : List Token.Kind) : Prop :=
  ∀ (text : String) (ts : List Token) (t : Token), BeginsWith text (ts ++ [t]) →
    (ts ++ [t]).map Token.kind = kinds → parse text = .error (fault.errorAt t)

/-- The canonical text of some well-shaped expression begins with these kinds of tokens, up to the
spelling of operators. -/
def BeginsRule (kinds : List Token.Kind) : Prop :=
  ∃ (e : Expr) (ts : List Token), e.WellShaped ∧ tokenize e.render = ts.map .ok ∧
    kinds.map Rule.canonicalKind <+: ts.map Token.kind

/-- The canonical text of some well-shaped term begins with these kinds of tokens, up to the spelling
of connectives, negations, weights and names of forms. -/
def BeginsCondition (kinds : List Token.Kind) : Prop :=
  ∃ (t : Term) (ts : List Token), t.WellShaped ∧ tokenize t.render = ts.map .ok ∧
    Search.respelled kinds <+: ts.map Token.kind

/-- The text is refused with this error at a token `t` after the tokens `ts`. Whatever begins with
the same tokens is refused there, and some canonical text begins with the tokens before. -/
def FirstFault {α : Type} (parse : String → Except SyntaxError α)
    (Begins : List Token.Kind → Prop) (text : String) (e : SyntaxError) : Prop :=
  ∃ (fault : Fault) (ts : List Token) (t : Token),
    e = fault.errorAt t ∧ BeginsWith text (ts ++ [t]) ∧
      RefusedAfter parse fault ((ts ++ [t]).map Token.kind) ∧ Begins (ts.map Token.kind)

/-! ### Texts that begin alike -/

theorem Fault.errorAt_congr {fault fault' : Fault} {t : Token}
    (h : fault.errorAt t = fault'.errorAt t) (t' : Token) :
    fault.errorAt t' = fault'.errorAt t' := by
  cases fault <;> cases fault' <;> cases h <;> rfl

variable {spelling : Token.Kind → Token.Kind}

/-- Two texts are compared up to tokens of the same kind. Tokens of the same kind belong together. -/
def Comparison.upTo (spelling : Token.Kind → Token.Kind) {q q' : Parser}
    (h : q.current.kind = q'.current.kind) : Comparison spelling where
  Paired t t' := t.kind = t'.kind
  spelling_eq := congrArg spelling
  last := q
  last' := q'
  paired_last := h

variable {α : Type} {R : α → α → Prop} {reads : Reads α} {text : String} {ts : List Token}
  {p q : Parser} {e : SyntaxError} {fault : Fault}

/-- The first reading ends at the last place, so it has never been beyond it, and the second one ends
at its own last place. -/
theorem refusedAfter_of_follows
    (hfollows : ∀ {c : Comparison spelling} {p p' : Parser}, p.depth = 0 → p'.depth = 0 →
      c.Alike p p' → c.Follows R reads reads p p')
    (hp : ofText text = .ok p) (hreads : reads p = .error e q) (he : e.AtToken)
    (hfault : e = fault.errorAt q.current) (hts : Passes p ts (q.atDepth p.depth))
    (hend : ∀ t ∈ ts, t.kind ≠ .endOfInput) :
    RefusedAfter (run reads) fault ((ts ++ [q.current]).map Token.kind) := by
  intro text' ts' t' hbegins hkinds
  obtain ⟨p', q', hp', hts', rfl⟩ := exists_passes_of_beginsWith hbegins
  rw [List.map_append, List.map_append] at hkinds
  obtain ⟨hkinds, hlast⟩ := List.append_inj' hkinds rfl
  rw [List.map_singleton, List.map_singleton, List.singleton_inj] at hlast
  let c := Comparison.upTo spelling hlast.symm
  have hpaired : List.Forall₂ c.Paired ts ts' := by
    have hforall : List.Forall₂ Eq (ts.map Token.kind) (ts'.map Token.kind) := by
      rw [List.forall₂_eq_eq_eq]
      exact hkinds.symm
    simp only [List.forall₂_map_left_iff, List.forall₂_map_right_iff] at hforall
    exact hforall
  have hts' : Passes p' ts' (c.last'.atDepth q'.depth) := hts'
  have hheight : p.height = p'.height := by rw [height_of_ofText hp, height_of_ofText hp']
  have halike := Comparison.alike_of_passes (c := c) hts hts' hpaired hend hheight
  rw [run, hp']
  dsimp only
  rcases hfollows (depth_of_ofText hp) (depth_of_ofText hp') halike with hlost | hagrees
  · rw [Reads.after_of_error hreads] at hlost
    exact absurd hlost (Nat.lt_irrefl _)
  · rw [hreads] at hagrees
    generalize reads p' = r' at hagrees
    cases hagrees with
    | fault fault' hq =>
      obtain ⟨depth, height, rfl⟩ := hq.exists_of_ahead_le (Nat.le_refl _)
      exact congrArg Except.error (Fault.errorAt_congr hfault q'.current)
    | tooDeep => exact he.elim
    | emptyInput => exact he.elim

/-! ### Beginnings of canonical texts -/

theorem beginsRule_of_completable (h : Completable (Rule.IsOperand 0) ts)
    (hlexical : ∀ t ∈ ts, t.kind.Lexical) : BeginsRule (ts.map Token.kind) := by
  obtain ⟨us, hus, e, hspells, hgrouped, -⟩ := h
  have hall := hspells.everywhere_lexical (List.forall_mem_append.mpr ⟨hlexical, hus⟩)
  have hshaped : e.WellShaped := fun inner hinner => ⟨hall inner hinner, hgrouped inner hinner⟩
  obtain ⟨vs, htokens, hkinds⟩ := Expr.exists_tokens_of_wellShaped hshaped
  refine ⟨e, vs, hshaped, htokens, us.map fun t => Rule.canonicalKind t.kind, ?_⟩
  rw [hkinds, ← hspells.canonicalKinds_eq, List.map_append, List.map_map]
  rfl

theorem beginsCondition_of_completable (h : Completable (Search.IsOperand 0) ts)
    (hlexical : ∀ t ∈ ts, t.kind.Lexical) : BeginsCondition (ts.map Token.kind) := by
  obtain ⟨us, hus, t, hspells, hgrouped, -⟩ := h
  have hwritable := hspells.writable (List.forall_mem_append.mpr ⟨hlexical, hus⟩)
  obtain ⟨vs, htokens, hkinds⟩ := Term.exists_tokens_of_writable hwritable
  refine ⟨t, vs, ⟨hwritable, hgrouped⟩, htokens, ?_⟩
  have hrespelled := Search.respelled_of_spells hspells []
  rw [List.append_nil, Search.respelled, List.append_nil, List.map_append] at hrespelled
  rw [hkinds, ← hrespelled]
  exact Search.respelled_prefix _ _

/-! ### Both facts -/

/-- What a reader refuses is a first fault if it reads alike from places that are alike, and if what
can be completed begins a canonical text. -/
theorem firstFault_of_refused {P : List Token → Prop} {Begins : List Token.Kind → Prop}
    (hfollows : ∀ {c : Comparison spelling} {p p' : Parser}, p.depth = 0 → p'.depth = 0 →
      c.Alike p p' → c.Follows R reads reads p p')
    (hend : ∀ ts, P ts → ∀ t ∈ ts, t.kind ≠ .endOfInput)
    (hbegins : ∀ ts, Completable P ts → (∀ t ∈ ts, t.kind.Lexical) → Begins (ts.map Token.kind))
    (hp : ofText text = .ok p) (hreads : reads p = .error e q) (he : e.AtToken)
    (h : Refused P e p q) : FirstFault (run reads) Begins text e := by
  obtain ⟨fault, ts, hfault, hts, hcompletable⟩ := h
  have hne : ∀ t ∈ ts, t.kind ≠ .endOfInput := by
    obtain ⟨us, -, hP⟩ := hcompletable
    exact fun t ht => hend _ hP t (List.mem_append_left us ht)
  have hlexical : ∀ t ∈ ts, t.kind.Lexical := fun t ht =>
    lexical_of_mem_tokenize (mem_tokenize_of_passes hp hts ht (hne t ht))
  have hbeginsWith : BeginsWith text (ts ++ [(q.atDepth p.depth).current]) :=
    beginsWith_of_passes hp hts hne
  exact ⟨fault, ts, q.current, hfault, hbeginsWith,
    refusedAfter_of_follows hfollows hp hreads he hfault hts hne, hbegins ts hcompletable hlexical⟩

/-- **Faults are found at the first token that does not fit.** A text that is refused because of a
token is refused in the same way whatever follows after that token, and the tokens before it are,
up to spelling, the beginning of a canonical text. -/
theorem refused_at_first_fault :
    (∀ (text : String) (e : SyntaxError), parseRule text = .error e → e.AtToken →
      FirstFault parseRule BeginsRule text e) ∧
      ∀ (text : String) (e : SyntaxError), parseCondition text = .error e → e.AtToken →
        FirstFault parseCondition BeginsCondition text e := by
  constructor
  · intro text e h he
    obtain ⟨p, q, hp, hrule, hrefused⟩ := Rule.refused_of_parseRule h he
    refine firstFault_of_refused Rule.follows_rule ?_ ?_ hp hrule he hrefused
    · rintro ts ⟨e, hspells, -⟩
      exact hspells.ne_endOfInput
    · intro ts
      exact beginsRule_of_completable
  · intro text e h he
    obtain ⟨p, q, hp, hcondition, hrefused⟩ := Search.refused_of_parseCondition h he
    refine firstFault_of_refused Search.follows_condition ?_ ?_ hp hcondition he hrefused
    · rintro ts ⟨t, hspells, -⟩
      exact hspells.ne_endOfInput
    · intro ts
      exact beginsCondition_of_completable

/-- A comma that is missing in a call, and a weight that is too large, after which the text does not
even consist of tokens. -/
theorem refused_at_first_fault_missingComma :
    (∃ e : SyntaxError, parseRule "f(1 || a b" = .error e ∧ e.AtToken ∧
        FirstFault parseRule BeginsRule "f(1 || a b" e) ∧
      ∃ e : SyntaxError, parseCondition "formsof(Thesaurus, a) | isabout(b weight(.5), c weight(2 #" =
          .error e ∧ e.AtToken ∧
        FirstFault parseCondition BeginsCondition
          "formsof(Thesaurus, a) | isabout(b weight(.5), c weight(2 #" e := by
  obtain ⟨hrule, hcondition⟩ := refused_at_first_fault
  constructor
  · have hrefused : parseRule "f(1 || a b" =
        .error (.unexpected 9 .commaOrClosing (.identifier "b")) := by
      decide +kernel
    exact ⟨_, hrefused, trivial, hrule _ _ hrefused trivial⟩
  · have hrefused :
        parseCondition "formsof(Thesaurus, a) | isabout(b weight(.5), c weight(2 #" =
          .error (.weightOutOfRange 55 ⟨0x4000000000000000, by decide⟩) := by
      decide +kernel
    exact ⟨_, hrefused, trivial, hcondition _ _ hrefused trivial⟩

end SqlPredicates
