import SqlPredicates.Rulebook

/-!
# Loading rulebooks

A rulebook is loaded rule by rule. A rule is added only after its text has been compiled, so in a
loaded rulebook every rule is what its text compiles to, and all texts of the document compile. When
loading stops at a rule, that rule is one of the document.

## Main definitions

* `Rulebook.Lists` — the rules that a document lists
* `Rulebook.Compiled` — every rule is what its text compiles to

## Main results

* `Rulebook.add_eq_ok`, `Rulebook.add_eq_invalidRule` — what adding one rule can do
* `Rulebook.Compiled.addAll` — a rulebook stays compiled when rules are added
* `Rulebook.compileRule_of_get?` — the rule of a kind can be compiled again
* `Rulebook.exists_rule_of_lists`, `Rulebook.exists_of_parse_eq_invalidRule` — whether all rules of
  a document compile
-/

namespace SqlPredicates

namespace Rulebook

variable {book book' : Rulebook} {t : RuleText} {ts : List RuleText}

/-- The document can be decoded, and its rules are `ts`. -/
def Lists [RulebookFormat] (document : String) (ts : List RuleText) : Prop :=
  RulebookFormat.decode? document = some ts

/-- Every rule of the rulebook is what its text compiles to. -/
def Compiled (book : Rulebook) : Prop := ∀ r ∈ book.rules, compileRule r.text = .ok r.rule

/-! ### Adding one rule -/

/-- A rule that is added has been compiled, and is inserted for a kind that had none. -/
theorem add_eq_ok (h : book.add t = .ok book') :
    ∃ rule, compileRule t.text = .ok rule ∧
      ∃ hnew, book' = book.insert ⟨t.kind, t.text, rule, t.message⟩ hnew := by
  rw [add] at h
  split at h
  · cases h
  next hnew =>
  split at h
  · cases h
  · next rule hrule =>
    cases h
    exact ⟨rule, hrule, hnew, rfl⟩

/-- A rule that is refused because of its text does not compile. -/
theorem add_eq_invalidRule {kind text : String} {cause : RuleError}
    (h : book.add t = .error (.invalidRule kind text cause)) :
    t.text = text ∧ compileRule text = .error cause := by
  rw [add] at h
  split at h
  · cases h
  split at h
  · next cause' hcause =>
    cases h
    exact ⟨rfl, hcause⟩
  · cases h

theorem Compiled.add (hbook : book.Compiled) (h : book.add t = .ok book') : book'.Compiled := by
  obtain ⟨rule, hrule, hnew, rfl⟩ := add_eq_ok h
  intro r hr
  rcases List.mem_cons.mp ((rules_insert_perm hnew).mem_iff.mp hr) with rfl | hr
  · exact hrule
  · exact hbook r hr

/-! ### Adding rules one after the other -/

theorem addAll_cons_eq_ok : book.addAll (t :: ts) = .ok book' ↔
    ∃ next, book.add t = .ok next ∧ next.addAll ts = .ok book' := by
  rw [addAll]
  cases book.add t with
  | ok next => simp [Except.bind, bind]
  | error e => simp [Except.bind, bind]

/-- The step that fails is the first rule or a later one. -/
theorem addAll_cons_eq_error {e : RulebookError} (h : book.addAll (t :: ts) = .error e) :
    book.add t = .error e ∨ ∃ next : Rulebook, next.addAll ts = .error e := by
  rw [addAll] at h
  cases hadd : book.add t with
  | ok next =>
    rw [hadd] at h
    exact .inr ⟨next, h⟩
  | error e' =>
    rw [hadd] at h
    exact .inl h

/-- **A rulebook stays compiled** when rules are added. -/
theorem Compiled.addAll (hbook : book.Compiled) (h : book.addAll ts = .ok book') :
    book'.Compiled := by
  induction ts generalizing book with
  | nil =>
    cases h
    exact hbook
  | cons t ts ih =>
    obtain ⟨next, hnext, hrest⟩ := addAll_cons_eq_ok.mp h
    exact ih (hbook.add hnext) hrest

theorem exists_rule_of_addAll (h : book.addAll ts = .ok book') :
    ∀ t ∈ ts, ∃ rule, compileRule t.text = .ok rule := by
  induction ts generalizing book with
  | nil =>
    intro t ht
    cases ht
  | cons t ts ih =>
    obtain ⟨next, hnext, hrest⟩ := addAll_cons_eq_ok.mp h
    obtain ⟨rule, hrule, -⟩ := add_eq_ok hnext
    exact List.forall_mem_cons.mpr ⟨⟨rule, hrule⟩, ih hrest⟩

theorem exists_of_addAll_eq_invalidRule {kind text : String} {cause : RuleError}
    (h : book.addAll ts = .error (.invalidRule kind text cause)) :
    ∃ t ∈ ts, compileRule t.text = .error cause := by
  induction ts generalizing book with
  | nil => cases h
  | cons t ts ih =>
    rcases addAll_cons_eq_error h with hfirst | ⟨next, hrest⟩
    · obtain ⟨rfl, hcause⟩ := add_eq_invalidRule hfirst
      exact ⟨t, List.mem_cons_self, hcause⟩
    · obtain ⟨t', ht', hcause⟩ := ih hrest
      exact ⟨t', List.mem_cons_of_mem t ht', hcause⟩

/-! ### Documents -/

variable [RulebookFormat] {document : String}

/-- A document that is loaded lists rules, which are added one after the other. -/
theorem parse_eq_ok (h : parse document = .ok book) :
    ∃ ts, Lists document ts ∧ ofTexts ts = .ok book := by
  rw [parse] at h
  split at h
  · cases h
  · next ts hts => exact ⟨ts, hts, h⟩

theorem compiled_of_parse (h : parse document = .ok book) : book.Compiled := by
  obtain ⟨ts, -, hload⟩ := parse_eq_ok h
  have hempty : empty.Compiled := by
    intro e he
    cases he
  exact hempty.addAll hload

/-- **The rule of a kind can be compiled again**, with the same result. -/
theorem compileRule_of_get? {kind : String} {r : NamingRule} (h : parse document = .ok book)
    (hr : book.get? kind = some r) : compileRule r.text = .ok r.rule :=
  compiled_of_parse h r (get?_eq_some_iff.mp hr).1

/-- All rules of a document that is loaded compile. -/
theorem exists_rule_of_lists (h : parse document = .ok book) (hts : Lists document ts) :
    ∀ t ∈ ts, ∃ rule, compileRule t.text = .ok rule := by
  obtain ⟨ts', hts', hload⟩ := parse_eq_ok h
  obtain rfl : ts' = ts := Option.some.inj (hts'.symm.trans hts)
  intro t ht
  exact exists_rule_of_addAll hload t (List.mem_mergeSort.mpr ht)

/-- A document that is not loaded because of a rule lists a rule that does not compile. -/
theorem exists_of_parse_eq_invalidRule {kind text : String} {cause : RuleError}
    (h : parse document = .error (.invalidRule kind text cause)) :
    ∃ ts, Lists document ts ∧ ∃ t ∈ ts, compileRule t.text = .error cause := by
  rw [parse] at h
  split at h
  · cases h
  · next ts hts =>
    obtain ⟨t, ht, hcause⟩ := exists_of_addAll_eq_invalidRule h
    exact ⟨ts, hts, t, List.mem_mergeSort.mp ht, hcause⟩

end Rulebook

end SqlPredicates
