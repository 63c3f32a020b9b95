import SqlPredicates.Proofs.Loading
import SqlPredicates.Proofs.Text.Order
import Mathlib.Data.List.Perm.Basic

/-!
# Rules by kind

The rules of a table are visited in the order of the bytes of their kinds, and are kept in the order of
the lowercase forms, under which they are found. What a rulebook holds after some rules does not depend
on the order of the visits (`Rulebook.Holds`): it has the compiled forms of just these rules. So a rule
is refused for what it is and for which rules are before it in the table (`RuleText.Refused`), and
since nothing else can go wrong, a table is loaded if and only if none of its rules is refused.

## Main definitions

* `RuleText.key`, `RuleText.compiled?` — the lowercase form of the kind, and the compiled rule
* `RuleText.Refused`, `RuleText.RefusedAmong` — why a rule is not added to those before it
* `Rulebook.Holds` — a rulebook of some rules
* `Rulebook.Loadable` — the rules that a rulebook can have
* `Rulebook.visits` — the order in which the rules of a table are added

## Main results

* `Rulebook.Holds.add`, `Rulebook.Holds.refused` — what adding one rule does
* `Rulebook.Holds.addAll`, `Rulebook.Holds.exists_refused` — what adding one rule after the other does
* `Rulebook.Holds.get?_eq_some_iff` — the rule that is found
* `Rulebook.exists_ofTexts_iff`, `Rulebook.exists_first_refused` — when and why loading fails
* `rulebook_by_kind` — loading a table
-/

namespace SqlPredicates

namespace RuleText

variable {t : RuleText}

/-- What the rule is found under. -/
def key (t : RuleText) : String := Text.lowercase t.kind

/-- The rule with its kind, text and message as they are written, if the text compiles. -/
def compiled? (t : RuleText) : Option NamingRule :=
  match compileRule t.text with
  | .ok rule => some ⟨t.kind, t.text, rule, t.message⟩
  | .error _ => none

theorem compiled?_of_ok {rule : Expr} (h : compileRule t.text = .ok rule) :
    t.compiled? = some ⟨t.kind, t.text, rule, t.message⟩ := by
  rw [compiled?, h]

theorem compiled?_of_error {cause : RuleError} (h : compileRule t.text = .error cause) :
    t.compiled? = none := by
  rw [compiled?, h]

theorem kind_of_compiled? {r : NamingRule} (h : t.compiled? = some r) : r.kind = t.kind := by
  cases hrule : compileRule t.text with
  | ok rule =>
    rw [compiled?_of_ok hrule] at h
    cases h
    rfl
  | error cause =>
    rw [compiled?_of_error hrule] at h
    cases h

/-- The rule is refused because one of the earlier rules has the same kind, in either case, or else
because its text does not compile. -/
inductive Refused (earlier : RuleText → Prop) (t : RuleText) : RulebookError → Prop
  | repeated (h : ∃ u, earlier u ∧ u.key = t.key) : Refused earlier t (.duplicateKind t.kind)
  | invalid {cause : RuleError} (hnew : ∀ u, earlier u → u.key ≠ t.key)
      (h : compileRule t.text = .error cause) : Refused earlier t (.invalidRule t.kind t.text cause)

/-- The rule is refused, given the rules of the table whose kinds are before its own, byte by byte. -/
def RefusedAmong (texts : List RuleText) (t : RuleText) : RulebookError → Prop :=
  t.Refused fun u => u ∈ texts ∧ Text.utf8 u.kind < Text.utf8 t.kind

end RuleText

namespace Rulebook

variable {book book' : Rulebook} {t : RuleText} {ts : List RuleText} {e : RulebookError}

/-! ### The rules of a rulebook -/

/-- The rulebook has the compiled forms of the given rules. -/
def Holds (book : Rulebook) (ts : List RuleText) : Prop :=
  (book.rules.map some).Perm (ts.map RuleText.compiled?)

/-- The texts of the rules compile, and their kinds differ not only in case. -/
structure Loadable (ts : List RuleText) : Prop where
  compiles : ∀ t ∈ ts, ∃ rule, compileRule t.text = .ok rule
  distinct : (ts.map RuleText.key).Nodup

theorem holds_empty : empty.Holds [] := .nil

/-- The rules of a rulebook are in the order of their lowercase kinds, byte by byte. -/
theorem pairwise_rules (book : Rulebook) :
    book.rules.Pairwise fun a b =>
      Text.utf8 (Text.lowercase a.kind) < Text.utf8 (Text.lowercase b.kind) := by
  rw [rules, List.pairwise_map]
  refine book.ordered.imp_of_mem fun hx hy hlt => ?_
  rwa [Text.utf8_lt_iff, ← book.keyed _ hx, ← book.keyed _ hy]

namespace Holds

variable {kind : String} {r : NamingRule}

theorem mem_rules_iff (h : book.Holds ts) : r ∈ book.rules ↔ ∃ t ∈ ts, t.compiled? = some r := by
  have hsome : r ∈ book.rules ↔ some r ∈ book.rules.map some := by simp
  rw [hsome, h.mem_iff, List.mem_map]

/-- Every rule is in the rulebook, so its text compiles. -/
theorem exists_rule (h : book.Holds ts) (ht : t ∈ ts) : ∃ rule, compileRule t.text = .ok rule := by
  cases hrule : compileRule t.text with
  | ok rule => exact ⟨rule, rfl⟩
  | error cause =>
    have hmem : none ∈ book.rules.map some := by
      rw [h.mem_iff, List.mem_map]
      exact ⟨t, ht, RuleText.compiled?_of_error hrule⟩
    simp at hmem

theorem keys_perm (h : book.Holds ts) :
    (book.rules.map fun r => Text.lowercase r.kind).Perm (ts.map RuleText.key) := by
  have hkeys := h.map (Option.map fun r => Text.lowercase r.kind)
  rw [List.map_map, List.map_map] at hkeys
  have hcompiled : ts.map (Option.map (fun r => Text.lowercase r.kind) ∘ RuleText.compiled?) =
      (ts.map RuleText.key).map some := by
    rw [List.map_map]
    refine List.map_congr_left fun t ht => ?_
    obtain ⟨rule, hrule⟩ := h.exists_rule ht
    rw [Function.comp_apply, RuleText.compiled?_of_ok hrule]
    rfl
  have hrules : book.rules.map (Option.map (fun r => Text.lowercase r.kind) ∘ some) =
      (book.rules.map fun r => Text.lowercase r.kind).map some := by
    rw [List.map_map]
    rfl
  rw [hcompiled, hrules] at hkeys
  exact (List.map_perm_map_iff fun _ _ => Option.some.inj).mp hkeys

theorem loadable (h : book.Holds ts) : Loadable ts where
  compiles _ ht := h.exists_rule ht
  distinct := by
    rw [← h.keys_perm.nodup_iff, List.Nodup, List.pairwise_map]
    exact book.pairwise_rules.imp fun hlt => (Text.utf8_lt_iff.mp hlt).ne

/-- **The rule that is found** is the compiled form of the rule with that kind, in either case. -/
theorem get?_eq_some_iff (h : book.Holds ts) :
    book.get? kind = some r ↔ ∃ t ∈ ts, t.key = Text.lowercase kind ∧ t.compiled? = some r := by
  rw [Rulebook.get?_eq_some_iff, h.mem_rules_iff]
  constructor
  · rintro ⟨⟨t, ht, hcompiled⟩, hkind⟩
    rw [RuleText.kind_of_compiled? hcompiled] at hkind
    exact ⟨t, ht, hkind, hcompiled⟩
  · rintro ⟨t, ht, hkey, hcompiled⟩
    refine ⟨⟨t, ht, hcompiled⟩, ?_⟩
    rwa [RuleText.kind_of_compiled? hcompiled]

theorem isSome_get?_iff (h : book.Holds ts) :
    (book.get? kind).isSome ↔ ∃ t ∈ ts, t.key = Text.lowercase kind := by
  rw [Option.isSome_iff_exists]
  constructor
  · rintro ⟨r, hr⟩
    obtain ⟨t, ht, hkey, -⟩ := h.get?_eq_some_iff.mp hr
    exact ⟨t, ht, hkey⟩
  · rintro ⟨t, ht, hkey⟩
    obtain ⟨rule, hrule⟩ := h.exists_rule ht
    exact ⟨_, h.get?_eq_some_iff.mpr ⟨t, ht, hkey, RuleText.compiled?_of_ok hrule⟩⟩

/-- The order in which the rules are given does not matter. -/
theorem congr {us : List RuleText} (h : book.Holds ts) (hperm : ts.Perm us) : book.Holds us :=
  h.trans (hperm.map _)

/-! ### Adding rules -/

/-- **A rule that is added** is one more that the rulebook has. -/
theorem add (h : book.Holds ts) (hadd : book.add t = .ok book') : book'.Holds (ts ++ [t]) := by
  obtain ⟨rule, hrule, hnew, rfl⟩ := add_eq_ok hadd
  rw [Holds, List.map_append, List.map_singleton, RuleText.compiled?_of_ok hrule]
  have hrules := (rules_insert_perm hnew).map some
  rw [List.map_cons] at hrules
  exact (hrules.trans (h.cons _)).trans (List.perm_append_singleton _ _).symm

/-- **A rule that is not added** is refused because of its kind or of its text. -/
theorem refused (h : book.Holds ts) (hadd : book.add t = .error e) : t.Refused (· ∈ ts) e := by
  rw [Rulebook.add] at hadd
  split at hadd
  · next found hfound =>
    cases hadd
    exact .repeated (h.isSome_get?_iff.mp (Option.isSome_of_eq_some hfound))
  next hnew =>
  split at hadd
  · next cause hcause =>
    cases hadd
    refine .invalid (fun u hu hkey => ?_) hcause
    have hsome := h.isSome_get?_iff.mpr ⟨u, hu, hkey⟩
    rw [hnew] at hsome
    cases hsome
  · cases hadd

theorem addAll {done : List RuleText} (h : book.Holds done) (hadd : book.addAll ts = .ok book') :
    book'.Holds (done ++ ts) := by
  induction ts generalizing book done with
  | nil =>
    cases hadd
    rwa [List.append_nil]
  | cons t ts ih =>
    obtain ⟨next, hnext, hrest⟩ := addAll_cons_eq_ok.mp hadd
    have hall := ih (h.add hnext) hrest
    rwa [List.append_assoc, List.singleton_append] at hall

/-- **Loading stops** at a rule that is refused, and the rules before it have all been added. -/
theorem exists_refused {done : List RuleText} (h : book.Holds done)
    (hadd : book.addAll ts = .error e) :
    ∃ before t after, ts = before ++ t :: after ∧ t.Refused (· ∈ done ++ before) e ∧
      Loadable (done ++ before) := by
  induction ts generalizing book done with
  | nil => cases hadd
  | cons t ts ih =>
    rw [Rulebook.addAll] at hadd
    cases hnext : book.add t with
    | error e' =>
      rw [hnext] at hadd
      cases hadd
      refine ⟨[], t, ts, rfl, ?_, ?_⟩
      · rw [List.append_nil]
        exact h.refused hnext
      · rw [List.append_nil]
        exact h.loadable
    | ok next =>
      rw [hnext] at hadd
      obtain ⟨before, u, after, rfl, hrefused, hbefore⟩ := ih (h.add hnext) hadd
      rw [List.append_assoc, List.singleton_append] at hrefused hbefore
      exact ⟨t :: before, u, after, rfl, hrefused, hbefore⟩

end Holds

/-- No rule of a list that can be loaded is refused. -/
theorem Loadable.not_refused {before after : List RuleText}
    (h : Loadable (before ++ t :: after)) : ¬ t.Refused (· ∈ before) e := by
  intro hrefused
  cases hrefused with
  | repeated hsame =>
    obtain ⟨u, hu, hkey⟩ := hsame
    have hdistinct := h.distinct
    rw [List.map_append, List.nodup_append] at hdistinct
    exact hdistinct.2.2 _ (List.mem_map_of_mem hu) _ (List.mem_map_of_mem List.mem_cons_self) hkey
  | invalid _ hcause =>
    obtain ⟨rule, hrule⟩ := h.compiles t (List.mem_append_right before List.mem_cons_self)
    rw [hrule] at hcause
    cases hcause

theorem Loadable.perm {us : List RuleText} (h : Loadable ts) (hperm : us.Perm ts) : Loadable us where
  compiles t ht := h.compiles t (hperm.mem_iff.mp ht)
  distinct := (hperm.map RuleText.key).nodup_iff.mpr h.distinct

/-! ### Tables -/

/-- The rules in the order in which they are visited. -/
def visits (texts : List RuleText) : List RuleText :=
  texts.mergeSort fun a b => decide (a.kind ≤ b.kind)

variable {texts : List RuleText}

theorem visits_perm (texts : List RuleText) : (visits texts).Perm texts := List.mergeSort_perm _ _

theorem pairwise_visits (hkinds : (texts.map RuleText.kind).Nodup) :
    (visits texts).Pairwise fun a b => a.kind < b.kind := by
  have hle : (visits texts).Pairwise fun a b => a.kind ≤ b.kind := by
    refine (List.pairwise_mergeSort ?_ ?_ texts).imp of_decide_eq_true
    · intro a b c hab hbc
      exact decide_eq_true ((of_decide_eq_true hab).trans (of_decide_eq_true hbc))
    · intro a b
      simpa using le_total a.kind b.kind
  have hne : (visits texts).Pairwise fun a b => a.kind ≠ b.kind :=
    List.pairwise_map.mp (((visits_perm texts).map RuleText.kind).nodup_iff.mpr hkinds)
  exact (hle.and hne).imp fun h => lt_of_le_of_ne h.1 h.2

/-- What is visited before a rule is what comes before it in the order of the kinds. -/
theorem mem_before_iff {before after : List RuleText} {u : RuleText}
    (hperm : (before ++ t :: after).Perm texts)
    (hordered : (before ++ t :: after).Pairwise fun a b => a.kind < b.kind) :
    u ∈ before ↔ u ∈ texts ∧ Text.utf8 u.kind < Text.utf8 t.kind := by
  obtain ⟨-, hafter, hbefore⟩ := List.pairwise_append.mp hordered
  rw [Text.utf8_lt_iff, ← hperm.mem_iff]
  constructor
  · intro hu
    exact ⟨List.mem_append_left _ hu, hbefore u hu t List.mem_cons_self⟩
  · rintro ⟨hu, hlt⟩
    rcases List.mem_append.mp hu with hu | hu
    · exact hu
    rcases List.mem_cons.mp hu with rfl | hu
    · exact absurd hlt (lt_irrefl _)
    · exact absurd hlt ((List.pairwise_cons.mp hafter).1 u hu).asymm

theorem refusedAmong_iff {before after : List RuleText} (hperm : (before ++ t :: after).Perm texts)
    (hordered : (before ++ t :: after).Pairwise fun a b => a.kind < b.kind) :
    t.RefusedAmong texts e ↔ t.Refused (· ∈ before) e := by
  have hearlier : (fun u => u ∈ texts ∧ Text.utf8 u.kind < Text.utf8 t.kind) = (· ∈ before) :=
    funext fun u => propext (mem_before_iff hperm hordered).symm
  rw [RuleText.RefusedAmong, hearlier]

theorem holds_of_ofTexts (h : ofTexts texts = .ok book) : book.Holds (visits texts) :=
  holds_empty.addAll h

/-- **Loading fails** at the first rule that is refused. -/
theorem exists_first_refused (hkinds : (texts.map RuleText.kind).Nodup)
    (h : ofTexts texts = .error e) :
    ∃ t ∈ texts, t.RefusedAmong texts e ∧ ∀ u ∈ texts, Text.utf8 u.kind < Text.utf8 t.kind →
      ∀ e', ¬ u.RefusedAmong texts e' := by
  obtain ⟨before, t, after, hvisits, hrefused, hbefore⟩ := holds_empty.exists_refused h
  change visits texts = before ++ t :: after at hvisits
  have hperm : (before ++ t :: after).Perm texts := hvisits ▸ visits_perm texts
  have hordered := hvisits ▸ pairwise_visits hkinds
  refine ⟨t, hperm.mem_iff.mp (List.mem_append_right _ List.mem_cons_self),
    (refusedAmong_iff hperm hordered).mpr hrefused, ?_⟩
  -- an earlier rule has been added, so it cannot have been refused
  intro u hu hlt e' hrefused'
  obtain ⟨front, back, rfl⟩ := List.append_of_mem ((mem_before_iff hperm hordered).mpr ⟨hu, hlt⟩)
  rw [List.append_assoc, List.cons_append] at hperm hordered
  exact hbefore.not_refused ((refusedAmong_iff hperm hordered).mp hrefused')

/-- A table can be loaded if its rules can be compiled and have kinds that differ not only in case. -/
theorem exists_ofTexts_iff : (∃ book, ofTexts texts = .ok book) ↔ Loadable texts := by
  constructor
  · rintro ⟨book, h⟩
    exact (holds_of_ofTexts h).loadable.perm (visits_perm texts).symm
  · intro hload
    cases h : ofTexts texts with
    | ok book => exact ⟨book, rfl⟩
    | error e =>
      obtain ⟨before, t, after, hvisits, hrefused, -⟩ := holds_empty.exists_refused h
      have hload' : Loadable (before ++ t :: after) := hvisits ▸ hload.perm (visits_perm texts)
      exact absurd hrefused hload'.not_refused

end Rulebook

open Rulebook in
/-- **A table is loaded as a whole or not at all**, and kinds ignore case. Loading a document in any
format is loading the table that it lists. It succeeds if and only if the texts of all rules compile
and no two kinds have the same lowercase form. Then a rule is found for exactly the kinds that have
the lowercase form of one in the table, it is the rule of that one as it is written, with what its
text compiles to, and the rulebook lists the compiled rules once each in the order of the lowercase
forms. Otherwise the error is about the first kind in the order of their bytes that cannot be added:
it repeats an earlier one, or its text does not compile. -/
theorem rulebook_by_kind {texts : List RuleText} (hkinds : (texts.map RuleText.kind).Nodup) :
    (∀ [RulebookFormat] document, Lists document texts → parse document = ofTexts texts) ∧
      ((∃ book, ofTexts texts = .ok book) ↔ Loadable texts) ∧
      (∀ book, ofTexts texts = .ok book →
        (∀ kind, (book.get? kind).isSome ↔ ∃ t ∈ texts, t.key = Text.lowercase kind) ∧
          (∀ kind r, book.get? kind = some r ↔
            ∃ t ∈ texts, t.key = Text.lowercase kind ∧ t.compiled? = some r) ∧
          (book.rules.map some).Perm (texts.map RuleText.compiled?) ∧
          book.rules.Pairwise fun a b =>
            Text.utf8 (Text.lowercase a.kind) < Text.utf8 (Text.lowercase b.kind)) ∧
      ∀ e, ofTexts texts = .error e →
        ∃ t ∈ texts, t.RefusedAmong texts e ∧ ∀ u ∈ texts,
          Text.utf8 u.kind < Text.utf8 t.kind → ∀ e', ¬ u.RefusedAmong texts e' := by
  refine ⟨?_, exists_ofTexts_iff, ?_, fun e he => exists_first_refused hkinds he⟩
  · intro _ document hlists
    rw [parse, show RulebookFormat.decode? document = some texts from hlists]
  · intro book hbook
    have hholds := (holds_of_ofTexts hbook).congr (visits_perm texts)
    exact ⟨fun _ => hholds.isSome_get?_iff, fun _ _ => hholds.get?_eq_some_iff, hholds,
      book.pairwise_rules⟩

/-- Two kinds, one of them with a capital letter. -/
def mixedTable : List RuleText :=
  [⟨"table", "len(name) <= 30", some "too long"⟩, ⟨"Index", "name LIKE 'ix[_]%'", none⟩]

/-- A kind in two spellings, and a rule whose text ends too early. -/
def repeatedTable : List RuleText :=
  [⟨"view", "len(name", none⟩, ⟨"table", "len(name) < 5", none⟩, ⟨"TABLE", "1 = 1", none⟩]

open Rulebook in
/-- The first table is loaded, and has a rule for `INDEX`. The second one is not: capital letters come
first, so that `table` repeats a kind, and the rule for views is not reached. -/
theorem rulebook_by_kind_repeated :
    ((mixedTable.map RuleText.kind).Nodup ∧ ∃ book, ofTexts mixedTable = .ok book ∧
      (book.get? "INDEX").isSome ∧ book.get? "view" = none) ∧
      (repeatedTable.map RuleText.kind).Nodup ∧
      ofTexts repeatedTable = .error (.duplicateKind "table") ∧
      ∃ t ∈ repeatedTable, t.RefusedAmong repeatedTable (.duplicateKind "table") ∧
        ∀ u ∈ repeatedTable, Text.utf8 u.kind < Text.utf8 t.kind →
          ∀ e', ¬ u.RefusedAmong repeatedTable e' := by
  have hmixed : (mixedTable.map RuleText.kind).Nodup := by decide
  have hrepeated : (repeatedTable.map RuleText.kind).Nodup := by decide
  have hvisits : visits repeatedTable = [⟨"TABLE", "1 = 1", none⟩,
      ⟨"table", "len(name) < 5", none⟩, ⟨"view", "len(name", none⟩] := by
    simp [visits, repeatedTable, List.mergeSort, List.MergeSort.Internal.splitInTwo]
  have herror : ofTexts repeatedTable = .error (.duplicateKind "table") := by
    change empty.addAll (visits repeatedTable) = _
    rw [hvisits]
    decide +kernel
  have hload : Loadable mixedTable := by
    refine ⟨?_, by decide +kernel⟩
    have hok : ∀ t ∈ mixedTable, (compileRule t.text).isOk = true := by decide +kernel
    intro t ht
    specialize hok t ht
    cases hrule : compileRule t.text with
    | ok rule => exact ⟨rule, rfl⟩
    | error cause =>
      rw [hrule] at hok
      cases hok
  obtain ⟨-, hloads, hbook, -⟩ := rulebook_by_kind hmixed
  obtain ⟨-, -, -, hfails⟩ := rulebook_by_kind hrepeated
  obtain ⟨book, hof⟩ := hloads.mpr hload
  obtain ⟨hfound, -, -, -⟩ := hbook book hof
  have hindex : (book.get? "INDEX").isSome := (hfound "INDEX").mpr
    ⟨_, List.mem_cons_of_mem _ List.mem_cons_self, by decide +kernel⟩
  have hview : ¬ (book.get? "view").isSome := fun h => by
    have hnone : ∀ t ∈ mixedTable, t.key ≠ Text.lowercase "view" := by decide +kernel
    obtain ⟨t, ht, hkey⟩ := (hfound "view").mp h
    exact hnone t ht hkey
  exact ⟨⟨hmixed, book, hof, hindex, Option.not_isSome_iff_eq_none.mp hview⟩, hrepeated, herror,
    hfails _ herror⟩

end SqlPredicates
