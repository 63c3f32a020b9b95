import SqlPredicates.Proofs.Refusal
import SqlPredicates.Proofs.Search.Comparison

/-!
# Refused search conditions begin like accepted ones

When the reader of search terms gives up at a token, the tokens before it can be completed to a term
that is grouped as it is read. As for naming rules, a word can be put for a term that is missing, and
open parentheses can be closed. The lists of `ISABOUT` and `FORMSOF` need a few more tokens: the
parenthesis after the keyword, a form, a weight, and a comma.

A weight that is too large is refused as well. It is a numeral and stands at the right place, and
the tokens before it are completed by a smaller one.

## Main definitions

* `Search.IsOperand`, `Search.IsPrimary`, `Search.IsItem`, `Search.AreItems`, `Search.AreTerms` —
  what tokens are completed to

## Main results

* `Search.viable_termWithin` — where the reader of terms gives up
* `Search.refused_of_parseCondition` — the same for texts
-/

namespace SqlPredicates

namespace Search

open SqlPredicates.Parser SqlPredicates.Reads SqlPredicates.Term

/-- The tokens spell a term that is read with the power `least`. -/
def IsOperand (least : ℕ) (ts : List Token) : Prop :=
  ∃ t : Term, Spells ts t ∧ t.Grouped ∧ t.Holds least

/-- The tokens spell a term that no connective joins. -/
def IsPrimary (ts : List Token) : Prop :=
  ∃ t : Term, Spells ts t ∧ t.Grouped ∧ t.connective? = none

/-- The tokens spell an alternative of `ISABOUT`. -/
def IsItem (ts : List Token) : Prop := ∃ i : WeightedItem, i.Spells ts

/-- The tokens spell alternatives of `ISABOUT` with commas between them. -/
def AreItems (ts : List Token) : Prop := ∃ items, SpellItems ts items

/-- The tokens spell words and phrases, each with a comma before it. -/
def AreTerms (ts : List Token) : Prop := ∃ terms, SpellTerms ts terms

/-- Where the reader of operands gives up, it has read what can be completed to an operand. -/
def Viable (operand : ℕ → Reads Term) : Prop :=
  ∀ {least : ℕ} {p q : Parser} {err : SyntaxError}, Foreign err p →
    operand least p = .error err q → Refused (IsOperand least) err p q

variable {operand : ℕ → Reads Term} {least n : ℕ} {p q r : Parser} {err : SyntaxError}
  {ts us : List Token}

/-! ### Words and weights -/

/-- The word that is put for a term. -/
def wordTerm : SimpleTerm := ⟨.word "a", Span.point 0⟩

/-- Nothing is completed to a word. -/
theorem completable_primary : Completable IsPrimary [] :=
  .of_word ⟨_, .simple wordTerm, trivial, rfl⟩

theorem simpleTerm_refused {P : List Token → Prop} (he : Foreign err q) (hts : Passes p ts q)
    (h : simpleTerm q = .error err r) (hP : Completable P ts) : Refused P err p r := by
  rw [simpleTerm, look_bind] at h
  cases hliteral : literal? q.current.kind with
  | none =>
    rw [hliteral] at h
    exact .of_unexpected hts h hP
  | some literal =>
    rw [hliteral] at h
    obtain ⟨q', -, -, h⟩ := he.of_advance_bind h
    cases h

/-- A weight is refused because it is no number, or because it is too large. -/
theorem weight_refused {P : List Token → Prop} (he : Foreign err q) (hts : Passes p ts q)
    (h : weight q = .error err r) (hP : Completable P ts) : Refused P err p r := by
  rw [weight, look_bind] at h
  cases hnumber : number? q.current.kind with
  | none =>
    rw [hnumber] at h
    exact .of_unexpected hts h hP
  | some value =>
    simp only [hnumber] at h
    split at h
    · obtain ⟨q', -, -, h⟩ := he.of_advance_bind h
      cases h
    · cases h
      exact .of_fault (.weightOutOfRange value) hts hP

/-! ### The alternatives of `ISABOUT` -/

theorem isItem_weighted (t : SimpleTerm) (word opening number closing : Token) {value : Binary64}
    (hword : word.kind = .keyword .weight) (hopening : opening.kind = .symbol .opening)
    (hnumber : number? number.kind = some value) (hle : value.le Binary64.one = true)
    (hclosing : closing.kind = .symbol .closing) :
    IsItem [t.token, word, opening, number, closing] := by
  obtain ⟨kind, place⟩ := word
  subst hword
  obtain ⟨kind, place'⟩ := opening
  subst hopening
  obtain ⟨kind, place''⟩ := closing
  subst hclosing
  exact ⟨_, .weighted t place place' place'' hnumber hle⟩

/-- A weight is refused after the keyword, after the parenthesis, or after the numeral. -/
theorem weightedItem_refused (he : Foreign err p) (h : weightedItem p = .error err r) :
    Refused IsItem err p r := by
  rcases bind_eq_error.mp h with h | ⟨t, p₁, ht, h⟩
  · exact simpleTerm_refused he (.refl p) h (.of_word ⟨_, .plain wordTerm⟩)
  have ht := passes_of_simpleTerm ht
  have he₁ := he.of_passes ht
  rcases bind_eq_error.mp h with h | ⟨found, p₂, hfound, h⟩
  · exact absurd h he₁.eat?_ne
  rcases eat?_eq_ok.mp hfound with ⟨hword, word, rfl, hadvance⟩ | ⟨-, rfl, rfl⟩
  · rw [← (advance_eq_ok.mp hadvance).1] at hword
    have he₂ := he₁.of_advance hadvance
    have hpassed := ht.append (.single hadvance)
    rcases bind_eq_error.mp h with h | ⟨opening, p₃, hfirst, h⟩
    · have hitem := isItem_weighted t word (added (.symbol .opening)) (added (.decimal .one))
        (added (.symbol .closing)) hword rfl rfl (by decide) rfl
      exact of_expect_eq_error he₂ hpassed h <|
        .of_added [.symbol .opening, .decimal .one, .symbol .closing]
          (by simp [Token.Kind.Lexical]) hitem
    obtain ⟨hopening, hfirst⟩ := expect_eq_ok.mp hfirst
    have he₃ := he₂.of_advance hfirst
    have hpassed := hpassed.append (.single hfirst)
    rcases bind_eq_error.mp h with h | ⟨value, p₄, hvalue, h⟩
    · have hitem := isItem_weighted t word opening (added (.decimal .one))
        (added (.symbol .closing)) hword hopening rfl (by decide) rfl
      exact weight_refused he₃ hpassed h <|
        .of_added [.decimal .one, .symbol .closing] (by simp [Token.Kind.Lexical]) hitem
    obtain ⟨hnumber, hle, hadvance⟩ := weight_eq_ok.mp hvalue
    rcases bind_eq_error.mp h with h | ⟨closing, p₅, -, h⟩
    · have hitem := isItem_weighted t word opening p₃.current (added (.symbol .closing)) hword
        hopening hnumber hle rfl
      exact of_expect_eq_error (he₃.of_advance hadvance) (hpassed.append (.single hadvance)) h
        (.of_closing hitem)
    · cases h
  · cases h

theorem areItems_of_isItem (h : IsItem ts) : AreItems ts := by
  obtain ⟨i, hi⟩ := h
  exact ⟨[i], .last hi⟩

/-- Alternatives go on after an alternative and a comma. -/
theorem areItems_append {comma : Token} (hcomma : comma.kind = .symbol .comma) (hts : IsItem ts)
    (hus : AreItems us) : AreItems (ts ++ comma :: us) := by
  obtain ⟨i, hi⟩ := hts
  obtain ⟨items, hitems⟩ := hus
  obtain ⟨kind, place⟩ := comma
  subst hcomma
  exact ⟨i :: items, .more place hi hitems⟩

/-- The induction is on the rounds, of which more are left than tokens. -/
theorem weightedItems_refused (hn : p.rest.length < n) (he : Foreign err p)
    (h : weightedItems n p = .error err r) : Refused AreItems err p r := by
  induction n generalizing p with
  | zero => cases hn
  | succ n ih =>
    rcases bind_eq_error.mp h with h | ⟨i, p₁, hitem, h⟩
    · exact (weightedItem_refused he h).mono fun _ => areItems_of_isItem
    obtain ⟨ts, hts, hspells⟩ := weightedItem_sound hitem
    have he₁ := he.of_passes hts
    rcases bind_eq_error.mp h with h | ⟨found, p₂, hfound, h⟩
    · exact absurd h he₁.eat?_ne
    rcases eat?_eq_ok.mp hfound with ⟨-, t, rfl, -⟩ | ⟨-, rfl, rfl⟩
    · cases h
    rcases bind_eq_error.mp h with h | ⟨found, p₃, hfound, h⟩
    · exact absurd h he₁.eat?_ne
    rcases eat?_eq_ok.mp hfound with ⟨hcomma, t, rfl, hadvance⟩ | ⟨-, rfl, rfl⟩
    · have hlength := rest_length_lt_of_comma hitem hcomma hadvance
      obtain rfl := (advance_eq_ok.mp hadvance).1
      rcases bind_eq_error.mp h with h | ⟨rest, p₄, -, h⟩
      · have hrefused := ih (by omega) (he₁.of_advance hadvance) h
        refine hrefused.after (hts.append (.single hadvance)) fun us hus => ?_
        rw [List.append_assoc]
        exact areItems_append hcomma ⟨i, hspells⟩ hus
      · cases h
    · -- the alternative is complete, and neither a comma nor a parenthesis follows
      exact .of_unexpected hts h (.of_self (areItems_of_isItem ⟨i, hspells⟩))

theorem isPrimary_weighted {word opening : Token} (hword : word.kind = .keyword .isabout)
    (hopening : opening.kind = .symbol .opening) (h : AreItems ts) :
    IsPrimary (word :: opening :: (ts ++ [added (.symbol .closing)])) := by
  obtain ⟨items, hitems⟩ := h
  obtain ⟨kind, place⟩ := word
  subst hword
  obtain ⟨kind, place'⟩ := opening
  subst hopening
  exact ⟨_, .weighted place place' _ hitems, trivial, rfl⟩

theorem weightedTerm_refused (he : Foreign err p) (h : weightedTerm p = .error err r) :
    Refused IsPrimary err p r := by
  rcases bind_eq_error.mp h with h | ⟨word, p₁, hfirst, h⟩
  · exact of_expect_eq_error he (.refl p) h completable_primary
  obtain ⟨hword, hfirst⟩ := expect_eq_ok.mp hfirst
  have he₁ := he.of_advance hfirst
  rcases bind_eq_error.mp h with h | ⟨opening, p₂, hsecond, h⟩
  · have hterm : IsPrimary
        (word :: added (.symbol .opening) :: ([wordTerm.token] ++ [added (.symbol .closing)])) :=
      isPrimary_weighted hword rfl ⟨_, .last (.plain wordTerm)⟩
    exact of_expect_eq_error he₁ (.single hfirst) h <|
      .of_added [.symbol .opening, .identifier "a", .symbol .closing]
        (by simp [Token.Kind.Lexical]) hterm
  obtain ⟨hopening, hsecond⟩ := expect_eq_ok.mp hsecond
  rw [remaining_bind] at h
  rcases bind_eq_error.mp h with h | ⟨items, p₃, -, h⟩
  · have hrefused := weightedItems_refused (Nat.lt_succ_self _) (he₁.of_advance hsecond) h
    exact hrefused.enclosed (.cons hfirst (.single hsecond)) fun _ =>
      isPrimary_weighted hword hopening
  · cases h

/-! ### The words of `FORMSOF` -/

theorem areTerms_cons {comma : Token} (hcomma : comma.kind = .symbol .comma) (t : SimpleTerm) :
    AreTerms [comma, t.token] := by
  obtain ⟨kind, place⟩ := comma
  subst hcomma
  exact ⟨[t], .last place t⟩

theorem areTerms_append {comma : Token} (hcomma : comma.kind = .symbol .comma) (t : SimpleTerm)
    (h : AreTerms us) : AreTerms (comma :: t.token :: us) := by
  obtain ⟨terms, hterms⟩ := h
  obtain ⟨kind, place⟩ := comma
  subst hcomma
  exact ⟨t :: terms, .more place t hterms⟩

theorem generationTerms_refused (hn : p.rest.length < n) (he : Foreign err p)
    (h : generationTerms n p = .error err r) : Refused AreTerms err p r := by
  induction n generalizing p with
  | zero => cases hn
  | succ n ih =>
    rcases bind_eq_error.mp h with h | ⟨comma, p₁, hfirst, h⟩
    · have hterms : AreTerms [added (.symbol .comma), wordTerm.token] := areTerms_cons rfl wordTerm
      exact of_expect_eq_error he (.refl p) h <|
        .of_added [.symbol .comma, .identifier "a"] (by simp [Token.Kind.Lexical]) hterms
    obtain ⟨hcomma, hfirst⟩ := expect_eq_ok.mp hfirst
    have he₁ := he.of_advance hfirst
    rcases bind_eq_error.mp h with h | ⟨t, p₂, ht, h⟩
    · exact simpleTerm_refused he₁ (.single hfirst) h (.of_word (areTerms_cons hcomma wordTerm))
    have ht := passes_of_simpleTerm ht
    have hpassed := Passes.cons hfirst ht
    have he₂ := he₁.of_passes ht
    rcases bind_eq_error.mp h with h | ⟨found, p₃, hfound, h⟩
    · exact absurd h he₂.eat?_ne
    rcases eat?_eq_ok.mp hfound with ⟨-, t, rfl, -⟩ | ⟨-, rfl, rfl⟩
    · cases h
    rcases bind_eq_error.mp h with h | ⟨rest, p₄, -, h⟩
    · have hlength := hpassed.length_le <| by simpa [hcomma] using t.token_ne_endOfInput
      simp only [List.length_cons, List.length_nil] at hlength
      exact (ih (by omega) he₂ h).after hpassed fun _ => areTerms_append hcomma t
    · cases h

theorem isPrimary_generation {word opening name : Token} {form : GenerationForm}
    (hword : word.kind = .keyword .formsof) (hopening : opening.kind = .symbol .opening)
    (hname : GenerationForm.ofKind? name.kind = some form) (h : AreTerms ts) :
    IsPrimary (word :: opening :: name :: (ts ++ [added (.symbol .closing)])) := by
  obtain ⟨terms, hterms⟩ := h
  obtain ⟨kind, place⟩ := word
  subst hword
  obtain ⟨kind, place'⟩ := opening
  subst hopening
  exact ⟨_, .generation place place' _ hname hterms, trivial, rfl⟩

/-- What is put for a form and the words after it. -/
def formKinds : List Token.Kind :=
  [.identifier GenerationForm.inflectional.text, .symbol .comma, .identifier "a", .symbol .closing]

theorem lexical_formKinds : ∀ kind ∈ formKinds, kind.Lexical := by
  have hname : ']' ∉ GenerationForm.inflectional.text.toList := by decide
  simpa [formKinds, Token.Kind.Lexical] using hname

theorem isPrimary_formKinds {word opening : Token} (hword : word.kind = .keyword .formsof)
    (hopening : opening.kind = .symbol .opening) :
    IsPrimary (word :: opening :: formKinds.map added) := by
  have hname : GenerationForm.ofKind? (added (.identifier GenerationForm.inflectional.text)).kind =
      some .inflectional := ofKind?_text _
  have hterms : AreTerms [added (.symbol .comma), wordTerm.token] := areTerms_cons rfl wordTerm
  exact isPrimary_generation hword hopening hname hterms

theorem generationTerm_refused (he : Foreign err p) (h : generationTerm p = .error err r) :
    Refused IsPrimary err p r := by
  rcases bind_eq_error.mp h with h | ⟨word, p₁, hfirst, h⟩
  · exact of_expect_eq_error he (.refl p) h completable_primary
  obtain ⟨hword, hfirst⟩ := expect_eq_ok.mp hfirst
  have he₁ := he.of_advance hfirst
  rcases bind_eq_error.mp h with h | ⟨opening, p₂, hsecond, h⟩
  · have hterm : IsPrimary (word :: (Token.Kind.symbol .opening :: formKinds).map added) :=
      isPrimary_formKinds hword rfl
    exact of_expect_eq_error he₁ (.single hfirst) h <|
      .of_added (.symbol .opening :: formKinds)
        (List.forall_mem_cons.mpr ⟨trivial, lexical_formKinds⟩) hterm
  obtain ⟨hopening, hsecond⟩ := expect_eq_ok.mp hsecond
  have hpassed := Passes.cons hfirst (.single hsecond)
  have he₂ := he₁.of_advance hsecond
  rw [look_bind] at h
  cases hform : GenerationForm.ofKind? p₂.current.kind with
  | none =>
    rw [hform] at h
    exact .of_unexpected hpassed h <|
      .of_added formKinds lexical_formKinds (isPrimary_formKinds hword hopening)
  | some form =>
    simp only [hform] at h
    obtain ⟨p₃, hthird, he₃, h⟩ := he₂.of_advance_bind h
    rw [remaining_bind] at h
    rcases bind_eq_error.mp h with h | ⟨terms, p₄, -, h⟩
    · have hrefused := generationTerms_refused (Nat.lt_succ_self _) he₃ h
      exact hrefused.enclosed (hpassed.append (.single hthird)) fun _ =>
        isPrimary_generation hword hopening hform
    · cases h

/-! ### Groups and connectives -/

theorem isOperand_of_isPrimary (h : IsPrimary ts) : IsOperand least ts := by
  obtain ⟨t, hspells, hgrouped, hconnective⟩ := h
  exact ⟨t, hspells, hgrouped, holds_of_connective?_eq_none hconnective least⟩

theorem isPrimary_group {opening : Token} (hopening : opening.kind = .symbol .opening)
    (h : IsOperand 0 ts) : IsPrimary (opening :: (ts ++ [added (.symbol .closing)])) := by
  obtain ⟨t, hspells, hgrouped, -⟩ := h
  obtain ⟨kind, place⟩ := opening
  subst hopening
  exact ⟨_, .group place _ hspells, hgrouped, rfl⟩

theorem isPrimary_not {t : Token} (ht : Negates t.kind) (h : IsOperand Connective.notPower ts) :
    IsPrimary (t :: ts) := by
  obtain ⟨inner, hspells, hgrouped, hholds⟩ := h
  exact ⟨_, .not ht hspells, grouped_not_iff.mpr ⟨hgrouped, hholds⟩, rfl⟩

/-- A connective after a term that leaves it alone, and its right side. -/
theorem isOperand_joined {lhs : Term} {t : Token} {op : Connective} (hspells : Spells ts lhs)
    (hgrouped : lhs.Grouped) (hop : Connective.ofKind? t.kind = some op)
    (hedge : op.leftPower < lhs.edge) (hle : least ≤ op.leftPower)
    (h : IsOperand op.rightPower us) : IsOperand least (ts ++ t :: us) := by
  obtain ⟨rhs, hright, hgroupedRight, hholds⟩ := h
  refine ⟨.joined op lhs rhs (lhs.span.cover rhs.span), .joined hop hspells hright, ?_, ?_⟩
  · exact grouped_joined_iff.mpr ⟨hgrouped, hgroupedRight, hedge, hholds⟩
  · intro op' hop'
    cases hop'
    exact hle

theorem group_refused (hviable : Viable operand) (hsound : Sound operand) (he : Foreign err p)
    (hopening : p.current.kind = .symbol .opening) (h : group operand p = .error err r) :
    Refused IsPrimary err p r := by
  obtain ⟨p₁, hadvance, he₁, h⟩ := he.of_advance_bind h
  rcases bind_eq_error.mp h with h | ⟨inner, p₂, hinner, h⟩
  · exact (hviable he₁ h).enclosed (.single hadvance) fun _ => isPrimary_group hopening
  have hreading := (hsound hinner).1
  obtain ⟨ts, hts, hspells⟩ := hreading.spelled
  have hts := hts.to_atHeight (p₂.height + 1)
  rcases bind_eq_error.mp (of_wrap_eq_error he.atToken h) with h | ⟨closing, p₃, -, h⟩
  · -- the term is complete, and the parenthesis is missing
    have hgroup := isPrimary_group hopening ⟨inner, hspells, hreading.grouped, hreading.holds⟩
    exact of_expect_eq_error (he₁.of_passes hts) (.cons hadvance hts) h (.of_closing hgroup)
  · cases h

theorem negation_refused (hviable : Viable operand) (he : Foreign err p)
    (hnot : Negates p.current.kind) (h : negation operand p = .error err r) :
    Refused IsPrimary err p r := by
  obtain ⟨q, hadvance, hq, h⟩ := he.of_advance_bind h
  rcases bind_eq_error.mp h with h | ⟨inner, p₁, -, h⟩
  · exact (hviable hq h).after (.single hadvance) fun _ => isPrimary_not hnot
  · cases of_wrap_eq_error he.atToken h

theorem primary_refused (hviable : Viable operand) (hsound : Sound operand) (he : Foreign err p)
    (h : primary operand p = .error err r) : Refused IsPrimary err p r := by
  rcases primary_cases operand p with
    ⟨-, heq⟩ | ⟨hk, heq⟩ | ⟨hnot, heq⟩ | ⟨-, heq⟩ | ⟨-, heq⟩ | heq
  · rw [heq] at h
    rcases bind_eq_error.mp h with h | ⟨t, p₁, -, h⟩
    · exact simpleTerm_refused he (.refl p) h completable_primary
    · cases h
  · exact group_refused hviable hsound he hk (heq ▸ h)
  · exact negation_refused hviable he hnot (heq ▸ h)
  · exact weightedTerm_refused he (heq ▸ h)
  · exact generationTerm_refused he (heq ▸ h)
  · exact .of_unexpected (.refl p) (heq ▸ h) completable_primary

/-- The term read so far is the left side of whatever completes the tokens. The induction is on the
rounds, of which more are left than tokens. -/
theorem connections_refused (hviable : Viable operand) (hsound : Sound operand) {lhs : Term}
    {height : ℕ} (hn : q.rest.length < n) (hlhs : Reading p lhs q) (he : Foreign err q)
    (h : connections operand least n lhs height q = .error err r) :
    Refused (IsOperand least) err p r := by
  induction n generalizing lhs height q with
  | zero => cases hn
  | succ n ih =>
    by_cases hstops : Stops least q.current.kind
    · rw [connections_of_stops hstops] at h
      cases h
    obtain ⟨op, hop, hle⟩ := not_stops_iff.mp hstops
    rw [connections_of_le hop hle] at h
    obtain ⟨q₁, hadvance, he₁, h⟩ := he.of_advance_bind h
    rcases bind_eq_error.mp h with h | ⟨rhs, q₂, hrhs, h⟩
    · obtain ⟨ts, hts, hspells⟩ := hlhs.spelled
      refine (hviable he₁ h).after (hts.append (.single hadvance)) fun us hus => ?_
      rw [List.append_assoc]
      exact isOperand_joined hspells hlhs.grouped hop (hlhs.stops op hop) hle hus
    · have hright := (hsound hrhs).1
      have hlength := rest_length_lt hop hadvance hright.toReading
      obtain ⟨us, hus, -⟩ := hright.spelled
      rw [lastHeight_bind] at h
      exact ih (by omega) (Reading.joined hlhs hop hadvance hright) (he₁.of_passes hus)
        (of_nodeHeight_eq_error he.atToken h)

theorem chain_refused (hviable : Viable operand) (hsound : Sound operand) (he : Foreign err p)
    (h : chain operand least p = .error err r) : Refused (IsOperand least) err p r := by
  rcases bind_eq_error.mp h with h | ⟨lhs, q, hprimary, h⟩
  · exact (primary_refused hviable hsound he h).mono fun _ => isOperand_of_isPrimary
  · rw [remaining_bind, lastHeight_bind] at h
    have hlhs := (primary_sound hsound hprimary).1
    obtain ⟨ts, hts, -⟩ := hlhs.spelled
    rcases bind_eq_error.mp h with h | ⟨measured, q', -, h⟩
    · exact connections_refused hviable hsound (Nat.lt_succ_self _) hlhs (he.of_passes hts) h
    · cases h

/-- **Where the reader of terms gives up, it has read what can be completed.** -/
theorem viable_termWithin (levels : ℕ) : Viable (termWithin levels) := by
  induction levels with
  | zero =>
    intro least p q err he h
    cases h
    exact he.atToken.elim
  | succ levels ih =>
    intro least p q err he h
    rw [termWithin, bind_of_ok (enter_eq p)] at h
    rcases bind_eq_error.mp h with h | ⟨t, p₁, -, h⟩
    · have hdeeper : Foreign err p.deeper := ⟨he.atToken, he.not_mem⟩
      exact (chain_refused ih (sound_termWithin levels) hdeeper h).of_deeper
    · rw [bind_of_ok (leave_eq p₁)] at h
      cases h

/-- A text that is refused at a token has been read up to it, and the tokens before it can be
completed to a term. -/
theorem refused_of_parseCondition {text : String} (h : parseCondition text = .error err)
    (he : err.AtToken) :
    ∃ p q, ofText text = .ok p ∧ condition p = .error err q ∧ Refused (IsOperand 0) err p q := by
  obtain ⟨p, q, hp, hcondition, hforeign⟩ := exists_of_run_eq_error h he
  refine ⟨p, q, hp, hcondition, ?_⟩
  rcases of_whole_eq_error hforeign hcondition with hterm | ⟨t, hterm, herr⟩
  · exact viable_termWithin _ hforeign hterm
  · -- something follows after a complete term
    have hreading := (sound_termWithin _ hterm).1
    obtain ⟨ts, hts, hspells⟩ := hreading.spelled
    rw [herr]
    exact .of_fault _ hts (.of_self ⟨t, hspells, hreading.grouped, hreading.holds⟩)

end Search

end SqlPredicates
