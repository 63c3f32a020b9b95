import SqlPredicates.Command
import SqlPredicates.Proofs.Loading
import SqlPredicates.Toml.Rulebook
import Mathlib.Tactic.Common

/-!
# What a check of names reports

Names are checked against a rule that is given or against a rule of a rulebook. In both ways the
whole run is the runs for the single names, one after the other: a name has one line with its
verdict, no name is left out, and the run succeeds exactly if all names pass. Rules that do not
compile are reported instead, before any name is checked; if no rule is given, those are all the
rules of the rulebook, not only the one that is asked for.

A rule of a rulebook is compiled when the rulebook is loaded, and its text is compiled again for the
check. That gives the same rule, so a check against the rulebook and a check against the text of the
rule agree in all verdicts. They differ in the remarks only, which a rulebook may add to names that
fail.

## Main definitions

* `Command.Uses` — the rule texts that have to compile
* `Command.Selects`, `Command.ChecksAgainst` — the rule that names are checked against
* `Command.Verdict`, `Command.Verdict.line` — what is said about a name
* `Command.CheckOptions.only` — the check of one name alone

## Main results

* `Command.checkAll_eq_join` — checking names one after the other
* `Command.checkNames_reports` — every name is reported, and the outcome is right
-/

namespace SqlPredicates

namespace Command

variable {files : Files} {options : CheckOptions}

/-! ### Rules -/

/-- The check depends on a rule text: it is given with the options or, if none is given, is listed in
the rulebook. -/
inductive Uses [RulebookFormat] (files : Files) (options : CheckOptions) : String → Prop
  | given {text : String} (h : options.rule = some text) : Uses files options text
  | listed {path document : String} {ts : List RuleText} {t : RuleText} (hrule : options.rule = none)
      (hpath : options.rulebook = some path) (hdocument : files.text path = .ok document)
      (hts : Rulebook.Lists document ts) (ht : t ∈ ts) : Uses files options t.text

/-- No rule is given, and the rulebook is loaded and has `r` for the kind. -/
structure Selects [RulebookFormat] (files : Files) (options : CheckOptions) (r : NamingRule) :
    Prop where
  rule_eq : options.rule = none
  exists_book : ∃ path document book kind, options.rulebook = some path ∧
    files.text path = .ok document ∧ Rulebook.parse document = .ok book ∧
    options.kind = some kind ∧ book.get? kind = some r

/-- The names are checked against a rule: the one that the given text compiles to, or that of the
rulebook. -/
inductive ChecksAgainst [RulebookFormat] (files : Files) (options : CheckOptions) : Expr → Prop
  | given {text : String} {rule : Expr} (h : options.rule = some text)
      (hrule : compileRule text = .ok rule) : ChecksAgainst files options rule
  | selected {r : NamingRule} (h : Selects files options r) : ChecksAgainst files options r.rule

/-! ### Verdicts -/

/-- What is said about a name. -/
inductive Verdict where
  | pass
  | fail
  | error
  deriving DecidableEq, Repr

namespace Verdict

/-- The verdict on a name that a rule has been evaluated for. -/
def ofResult : Except EvalError Bool → Verdict
  | .ok true => pass
  | .ok false => fail
  | .error _ => error

/-- The word for the verdict, in its colour. -/
def word (colors : Bool) : Verdict → String
  | pass => Paint.green.apply colors "PASS"
  | fail => Paint.red.apply colors "FAIL"
  | error => Paint.boldRed.apply colors "ERROR"

/-- The line about a name: the verdict, the name, and a remark. -/
def line (colors : Bool) (verdict : Verdict) (name remark : String) : String :=
  verdict.word colors ++ " " ++ name ++ remark ++ "\n"

/-- The remark on a name: the message of the rule if the name fails. -/
def remark (message : Option String) : Verdict → String
  | fail => match message with
    | some text => ": " ++ text
    | none => ""
  | _ => ""

theorem remark_none (verdict : Verdict) : verdict.remark none = "" := by
  cases verdict <;> rfl

end Verdict

/-- The object with a given name that the options describe. -/
def CheckOptions.object (options : CheckOptions) (name : String) : ObjectName :=
  ⟨name, options.kind.getD "", options.schema⟩

/-- The check of one name alone. -/
def CheckOptions.only (options : CheckOptions) (name : String) : CheckOptions :=
  { options with names := [name] }

/-- The check of the same names against a rule text that is given, without a rulebook. -/
def CheckOptions.against (options : CheckOptions) (text : String) : CheckOptions :=
  { options with rule := some text, rulebook := none }

theorem objects_only (name : String) : (options.only name).objects = [options.object name] := rfl

theorem objects_eq_map : options.objects = options.names.map options.object := rfl

/-! ### Checking names one after the other -/

theorem checkOne_out (colors : Bool) (source : Source) (message : Option String) (rule : Expr)
    (object : ObjectName) :
    (checkOne colors source message rule object).out =
      (Verdict.ofResult (checkName rule object)).line colors object.name
        ((Verdict.ofResult (checkName rule object)).remark message) := by
  rw [checkOne.eq_def]
  split
  · next h => simp [h, Verdict.ofResult, Verdict.line, Verdict.word, Verdict.remark]
  · next h => cases message <;> simp [h, Verdict.ofResult, Verdict.line, Verdict.word, Verdict.remark]
  · next h => simp [h, Verdict.ofResult, Verdict.line, Verdict.word, Verdict.remark]

/-- A name passes exactly if the rule is true of it. -/
theorem checkOne_result (colors : Bool) (source : Source) (message : Option String) (rule : Expr)
    (object : ObjectName) :
    (checkOne colors source message rule object).result = true ↔ checkName rule object = .ok true := by
  rw [checkOne.eq_def]
  split <;> simp [*]

/-- **Checking names one after the other** prints what is printed for each of them, and succeeds
exactly if all of them pass. -/
theorem checkAll_eq_join (colors : Bool) (source : Source) (message : Option String) (rule : Expr)
    (objects : List ObjectName) :
    (checkAll colors source message rule objects).out =
        String.join (objects.map fun object => (checkOne colors source message rule object).out) ∧
      (checkAll colors source message rule objects).err =
        String.join (objects.map fun object => (checkOne colors source message rule object).err) ∧
      ((checkAll colors source message rule objects).result = true ↔
        ∀ object ∈ objects, checkName rule object = .ok true) := by
  induction objects with
  | nil => simp [checkAll, Printed.silent]
  | cons object objects ih =>
    obtain ⟨hout, herr, hresult⟩ := ih
    simp only [checkAll, List.map_cons, String.join_cons, List.forall_mem_cons, Bool.and_eq_true,
      hout, herr, hresult, checkOne_result, and_self]

/-! ### The rule that is chosen -/

section Format

variable [RulebookFormat]

/-- The names play no part in choosing the rule. -/
theorem chooseRule_only (name : String) :
    chooseRule files (options.only name) = chooseRule files options := rfl

section Chosen

variable {chosen : ChosenRule} {rule : Expr}

/-- A rule that is chosen and compiles is what the names are checked against. -/
theorem checkNames_of_chosen (colors : Bool) (hchosen : chooseRule files options = .ok chosen)
    (hrule : compileRule chosen.text = .ok rule) :
    let source : Source := ⟨chosen.origin, chosen.text⟩
    let verdicts := checkAll colors source chosen.message rule options.objects
    checkNames files colors options =
      ⟨verdicts.out, verdicts.err, .ok (if verdicts.result then .success else .failure)⟩ := by
  rw [checkNames, hchosen]
  dsimp only
  rw [hrule]

/-- The check of one name alone. -/
theorem checkNames_only (colors : Bool) (hchosen : chooseRule files options = .ok chosen)
    (hrule : compileRule chosen.text = .ok rule) (name : String) :
    let source : Source := ⟨chosen.origin, chosen.text⟩
    let verdict := checkOne colors source chosen.message rule (options.object name)
    (checkNames files colors (options.only name)).out = verdict.out ∧
      (checkNames files colors (options.only name)).err = verdict.err := by
  rw [← chooseRule_only name] at hchosen
  rw [checkNames_of_chosen colors hchosen hrule, objects_only]
  simp [checkAll, Printed.silent]

/-- The check of several names prints what the checks of the single names print. -/
theorem checkNames_eq_join (colors : Bool) (hchosen : chooseRule files options = .ok chosen)
    (hrule : compileRule chosen.text = .ok rule) :
    (checkNames files colors options).out = String.join
        (options.names.map fun name => (checkNames files colors (options.only name)).out) ∧
      (checkNames files colors options).err = String.join
        (options.names.map fun name => (checkNames files colors (options.only name)).err) := by
  obtain ⟨hout, herr, -⟩ := checkAll_eq_join colors ⟨chosen.origin, chosen.text⟩ chosen.message rule
    options.objects
  rw [objects_eq_map, List.map_map] at hout herr
  rw [checkNames_of_chosen colors hchosen hrule]
  constructor
  · refine hout.trans (congrArg String.join (List.map_congr_left fun name _ => ?_))
    exact (checkNames_only colors hchosen hrule name).1.symm
  · refine herr.trans (congrArg String.join (List.map_congr_left fun name _ => ?_))
    exact (checkNames_only colors hchosen hrule name).2.symm

/-- The check of names succeeds if the rule is true of all of them, and fails otherwise. -/
theorem checkNames_result (colors : Bool) (hchosen : chooseRule files options = .ok chosen)
    (hrule : compileRule chosen.text = .ok rule) :
    ∃ outcome, (checkNames files colors options).result = .ok outcome ∧
      (outcome = .success ↔
        ∀ name ∈ options.names, checkName rule (options.object name) = .ok true) := by
  obtain ⟨-, -, hresult⟩ := checkAll_eq_join colors ⟨chosen.origin, chosen.text⟩ chosen.message rule
    options.objects
  rw [objects_eq_map, List.forall_mem_map] at hresult
  rw [checkNames_of_chosen colors hchosen hrule]
  refine ⟨_, rfl, ?_⟩
  rw [← hresult, ← objects_eq_map]
  split
  · next hall => simp [hall]
  · next hall => simp [hall]

end Chosen

/-- A rule that is given is chosen. -/
theorem chooseRule_of_given {text : String} (h : options.rule = some text) :
    chooseRule files options = .ok ⟨"<rule>", text, none⟩ := by
  rw [chooseRule, h]

/-- A rule that the rulebook has for the kind is chosen. -/
theorem chooseRule_of_selects {r : NamingRule} (h : Selects files options r) :
    chooseRule files options = .ok ⟨r.kind, r.text, r.message⟩ := by
  obtain ⟨hnone, path, document, book, kind, hpath, hdocument, hbook, hkind, hr⟩ := h
  rw [chooseRule, hnone, hpath]
  dsimp only
  rw [ruleFromBook, hdocument]
  dsimp only
  rw [hbook]
  dsimp only
  rw [hkind]
  dsimp only
  rw [hr]

/-- The rule of the rulebook is compiled again without fail. -/
theorem Selects.compileRule_eq {r : NamingRule} (h : Selects files options r) :
    compileRule r.text = .ok r.rule := by
  obtain ⟨-, path, document, book, kind, -, -, hbook, -, hr⟩ := h
  exact Rulebook.compileRule_of_get? hbook hr

/-- Where a chosen rule comes from. -/
theorem chooseRule_eq_ok {chosen : ChosenRule} (h : chooseRule files options = .ok chosen) :
    (∃ text, options.rule = some text ∧ chosen = ⟨"<rule>", text, none⟩) ∨
      ∃ r, Selects files options r ∧ chosen = ⟨r.kind, r.text, r.message⟩ := by
  rw [chooseRule] at h
  split at h
  · next text hrule =>
    cases h
    exact .inl ⟨text, hrule, rfl⟩
  · next path hnone hpath =>
    rw [ruleFromBook] at h
    split at h
    · cases h
    next document hdocument =>
    split at h
    · cases h
    · cases h
    next book hbook =>
    split at h
    · cases h
    next kind hkind =>
    split at h
    · cases h
    · next r hr =>
      cases h
      exact .inr ⟨r, ⟨hnone, path, document, book, kind, hpath, hdocument, hbook, hkind, hr⟩, rfl⟩
  · cases h

/-- What is reported in place of a rule is one that does not compile. -/
theorem chooseRule_eq_reported {report : String}
    (h : chooseRule files options = .error (.reported report)) :
    ∃ text cause, Uses files options text ∧ compileRule text = .error cause := by
  rw [chooseRule] at h
  split at h
  · cases h
  · next path hnone hpath =>
    rw [ruleFromBook] at h
    split at h
    · cases h
    next document hdocument =>
    split at h
    · next hinvalid =>
      obtain ⟨ts, hts, t, ht, hcause⟩ := Rulebook.exists_of_parse_eq_invalidRule hinvalid
      exact ⟨t.text, _, .listed hnone hpath hdocument hts ht, hcause⟩
    · cases h
    · split at h
      · cases h
      · split at h <;> cases h
  · cases h

/-- If the rulebook has a rule for the kind, all rule texts compile. -/
theorem Selects.compiles {r : NamingRule} (h : Selects files options r) {text : String}
    (huses : Uses files options text) : ∃ rule, compileRule text = .ok rule := by
  obtain ⟨hnone, path, document, book, kind, hpath, hdocument, hbook, -, -⟩ := h
  cases huses with
  | given hrule =>
    rw [hnone] at hrule
    cases hrule
  | @listed path' document' ts t _ hpath' hdocument' hts ht =>
    obtain rfl : path = path' := Option.some.inj (hpath.symm.trans hpath')
    obtain rfl : document = document' := Except.ok.inj (hdocument.symm.trans hdocument')
    exact Rulebook.exists_rule_of_lists hbook hts t ht

/-- A rule that is given is the only one that the check depends on. -/
theorem Uses.eq_of_given {text text' : String} (huses : Uses files options text')
    (h : options.rule = some text) : text' = text := by
  cases huses with
  | given h' => exact Option.some.inj (h'.symm.trans h)
  | listed hnone _ _ _ _ =>
    rw [hnone] at h
    cases h

/-- What a run that comes to an outcome has done about the rule: a rule text that it depends on does
not compile, or all of them compile and one of them has been chosen. -/
theorem cases_of_result {colors : Bool} {outcome : Outcome}
    (h : (checkNames files colors options).result = .ok outcome) :
    (∃ text cause report, Uses files options text ∧ compileRule text = .error cause ∧
        checkNames files colors options = Printed.failure report) ∨
      ∃ chosen rule, chooseRule files options = .ok chosen ∧ compileRule chosen.text = .ok rule ∧
        ChecksAgainst files options rule ∧
        ∀ text, Uses files options text → ∃ rule, compileRule text = .ok rule := by
  cases hchosen : chooseRule files options with
  | error none =>
    cases none with
    | reported report =>
      obtain ⟨text, cause, huses, hcause⟩ := chooseRule_eq_reported hchosen
      refine .inl ⟨text, cause, report, huses, hcause, ?_⟩
      rw [checkNames, hchosen]
    | error e =>
      rw [checkNames, hchosen] at h
      cases h
  | ok chosen =>
    rcases chooseRule_eq_ok hchosen with ⟨text, hgiven, rfl⟩ | ⟨r, hselects, rfl⟩
    · cases hrule : compileRule text with
      | error cause =>
        refine .inl ⟨text, cause, cause.report ⟨"<rule>", text⟩, .given hgiven, hrule, ?_⟩
        rw [checkNames, hchosen]
        dsimp only
        rw [hrule]
      | ok rule =>
        refine .inr ⟨_, rule, rfl, hrule, .given hgiven hrule, fun text' huses => ?_⟩
        rw [huses.eq_of_given hgiven]
        exact ⟨rule, hrule⟩
    · exact .inr ⟨_, r.rule, rfl, hselects.compileRule_eq, .selected hselects,
        fun _ => hselects.compiles⟩

/-- **Every name is reported, and the outcome is right.** Let a check come to an outcome. If a rule
text that it depends on does not compile, it prints nothing on the output and fails. Otherwise it
prints what the checks of the single names print, one after the other, and succeeds exactly if the
rule is true of every name.

If the rule is one of a rulebook, its text compiles to it again. The check against that text has the
same outcome, and says the same about each name, up to the message that the rulebook adds to names
that fail. -/
theorem checkNames_reports (files : Files) (colors : Bool) (options : CheckOptions) :
    (∀ outcome, (checkNames files colors options).result = .ok outcome →
      ((∃ text cause, Uses files options text ∧ compileRule text = .error cause) →
          (checkNames files colors options).out = "" ∧ outcome = .failure) ∧
        ((∀ text, Uses files options text → ∃ rule, compileRule text = .ok rule) →
          (checkNames files colors options).out = String.join
              (options.names.map fun name => (checkNames files colors (options.only name)).out) ∧
            (checkNames files colors options).err = String.join
              (options.names.map fun name => (checkNames files colors (options.only name)).err) ∧
            ∃ rule, ChecksAgainst files options rule ∧
              (outcome = .success ↔
                ∀ name ∈ options.names, checkName rule (options.object name) = .ok true))) ∧
      ∀ r, Selects files options r →
        compileRule r.text = .ok r.rule ∧
          (checkNames files colors (options.against r.text)).result =
            (checkNames files colors options).result ∧
          (∃ outcome, (checkNames files colors options).result = .ok outcome) ∧
          ∀ name ∈ options.names,
            let verdict := Verdict.ofResult (checkName r.rule (options.object name))
            (checkNames files colors (options.only name)).out =
                verdict.line colors name (verdict.remark r.message) ∧
              (checkNames files colors ((options.against r.text).only name)).out =
                verdict.line colors name "" := by
  constructor
  · intro outcome h
    rcases cases_of_result h with ⟨text, cause, report, huses, hcause, hfailure⟩ |
      ⟨chosen, rule, hchosen, hrule, hagainst, hcompiles⟩
    · constructor
      · intro _
        rw [hfailure] at h ⊢
        exact ⟨rfl, (Except.ok.inj h).symm⟩
      · intro hall
        obtain ⟨rule, hrule⟩ := hall text huses
        rw [hrule] at hcause
        cases hcause
    · constructor
      · rintro ⟨text, cause, huses, hcause⟩
        obtain ⟨rule', hrule'⟩ := hcompiles text huses
        rw [hrule'] at hcause
        cases hcause
      · intro _
        obtain ⟨hout, herr⟩ := checkNames_eq_join colors hchosen hrule
        obtain ⟨outcome', houtcome, hsuccess⟩ := checkNames_result colors hchosen hrule
        obtain rfl : outcome' = outcome := Except.ok.inj (houtcome.symm.trans h)
        exact ⟨hout, herr, rule, hagainst, hsuccess⟩
  · intro r hselects
    have hrule := hselects.compileRule_eq
    have hchosen := chooseRule_of_selects hselects
    have hgiven : chooseRule files (options.against r.text) = .ok ⟨"<rule>", r.text, none⟩ :=
      chooseRule_of_given rfl
    obtain ⟨outcome, houtcome, hsuccess⟩ := checkNames_result colors hchosen hrule
    obtain ⟨outcome', houtcome', hsuccess'⟩ := checkNames_result colors hgiven hrule
    have hsame : outcome' = outcome := by
      have hiff : outcome' = .success ↔ outcome = .success := hsuccess'.trans hsuccess.symm
      cases outcome <;> cases outcome' <;> simp_all
    refine ⟨hrule, ?_, ⟨outcome, houtcome⟩, fun name _ => ⟨?_, ?_⟩⟩
    · rw [houtcome, houtcome', hsame]
    · rw [(checkNames_only colors hchosen hrule name).1, checkOne_out]
      rfl
    · rw [(checkNames_only colors hgiven hrule name).1, checkOne_out, Verdict.remark_none]
      rfl

end Format

/-- A rulebook with a rule on the length of names. -/
def lengthBook : String := "[rules.Table]\nrule = \"len(name) < 4\"\nmessage = \"too long\"\n"

/-- The rule in the rulebook. -/
def lengthRule : NamingRule where
  kind := "Table"
  text := "len(name) < 4"
  rule := .binary .less
    (.call ⟨"len", ⟨0, 3⟩⟩ [.var ⟨"name", ⟨4, 8⟩⟩] ⟨3, 9⟩ ⟨0, 9⟩) (.integer 4 ⟨12, 13⟩) ⟨0, 13⟩
  message := some "too long"

/-- The rulebook at every path. -/
def lengthFiles : Files := fun _ => .ok lengthBook.toUTF8

/-- Two names to be checked against the rulebook. -/
def lengthOptions : CheckOptions := ⟨none, some "rules.toml", some "TABLE", "dbo", ["abc", "abcd"]⟩

/-- The two names are reported one by one, against the rulebook and against its rule; a rule that is
not boolean is reported instead. -/
theorem checkNames_reports_lengthBook :
    (checkNames lengthFiles false lengthOptions).out = "PASS abc\nFAIL abcd: too long\n" ∧
      (checkNames lengthFiles false lengthOptions).out = String.join
        (["abc", "abcd"].map fun name =>
          (checkNames lengthFiles false (lengthOptions.only name)).out) ∧
      Selects lengthFiles lengthOptions lengthRule ∧
      (checkNames lengthFiles false (lengthOptions.against "len(name) < 4")).result =
        (checkNames lengthFiles false lengthOptions).result ∧
      (checkNames lengthFiles false (lengthOptions.against "len(name)")).out = "" := by
  have hbook : Rulebook.parse lengthBook = .ok (Rulebook.empty.insert lengthRule rfl) := by
    decide +kernel
  have hselects : Selects lengthFiles lengthOptions lengthRule :=
    ⟨rfl, "rules.toml", lengthBook, _, "TABLE", rfl, by decide +kernel, hbook, rfl, by decide +kernel⟩
  have hfailure : (checkNames lengthFiles false lengthOptions).result = .ok .failure := by
    decide +kernel
  have huntyped : (checkNames lengthFiles false (lengthOptions.against "len(name)")).result =
      .ok .failure := by
    decide +kernel
  have hrejected : compileRule "len(name)" =
      .error (.rejected [.notABoolean .integer ⟨0, 9⟩]) := by
    decide +kernel
  obtain ⟨hreports, hagain⟩ := checkNames_reports lengthFiles false lengthOptions
  obtain ⟨hout, -⟩ := (hreports _ hfailure).2 fun _ => hselects.compiles
  obtain ⟨-, hresult, -⟩ := hagain lengthRule hselects
  obtain ⟨hreports', -⟩ := checkNames_reports lengthFiles false (lengthOptions.against "len(name)")
  obtain ⟨hempty, -⟩ := (hreports' _ huntyped).1 ⟨_, _, .given rfl, hrejected⟩
  exact ⟨by decide +kernel, hout, hselects, hresult, hempty⟩

end Command

end SqlPredicates
