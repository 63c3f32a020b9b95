import SqlPredicates.Rule.Compilation

/-!
# Rulebooks

A rulebook holds one naming rule for each kind of object. Kinds are told apart by their lowercase form.
A rulebook is loaded as a whole or not at all: the kinds are visited in the order of their code points
as written, and the first that repeats an earlier one or whose rule does not compile is the error.

## The format of documents

How the rules are written down does not matter for any of this. A format is a parameter, and all that
is known of it is that it gives the rules of a document or finds the document malformed.

## Main definitions

* `RuleText` — a rule as it is written
* `RulebookFormat` — how documents list rules
* `NamingRule`, `Rulebook` — compiled rules, and rules by kind
* `Rulebook.ofTexts`, `Rulebook.parse` — loading
* `Rulebook.get?` — the rule of a kind

## Main results

* `Rulebook.get?_eq_some_iff` — the rule that a kind finds
-/

namespace SqlPredicates

/-- A rule of a rulebook as it is written: for which kind, its text, and what to say about names that
break it. -/
structure RuleText where
  kind : String
  text : String
  message : Option String
  deriving DecidableEq, Repr

/-- A format of rulebooks. Decoding gives the rules of a document, in any order, unless the document is
malformed. -/
class RulebookFormat where
  decode? : String → Option (List RuleText)

/-- A compiled rule of a rulebook. -/
structure NamingRule where
  kind : String
  text : String
  rule : Expr
  message : Option String
  deriving DecidableEq

/-- Why a rulebook cannot be loaded. -/
inductive RulebookError where
  | malformed
  | duplicateKind (kind : String)
  | invalidRule (kind text : String) (cause : RuleError)
  deriving DecidableEq, Repr

/-- The wording of a failed loading. -/
def RulebookError.message : RulebookError → String
  | malformed => "invalid configuration"
  | duplicateKind kind => "rule for `" ++ kind ++ "` is defined more than once (kinds ignore case)"
  | invalidRule kind _ cause => "rule for `" ++ kind ++ "` is invalid: " ++ cause.message

namespace Rulebook

/-- Puts a rule in its place among others that are in order. -/
def insertOrdered (key : String) (rule : NamingRule) :
    List (String × NamingRule) → List (String × NamingRule)
  | [] => [(key, rule)]
  | e :: es => if key < e.1 then (key, rule) :: e :: es else e :: insertOrdered key rule es

theorem insertOrdered_perm (key : String) (rule : NamingRule) (es : List (String × NamingRule)) :
    (insertOrdered key rule es).Perm ((key, rule) :: es) := by
  induction es with
  | nil => exact .refl _
  | cons first es ih =>
    rw [insertOrdered]
    split
    · exact .refl _
    · exact (ih.cons first).trans (.swap _ _ es)

theorem mem_insertOrdered {key : String} {rule : NamingRule} {es : List (String × NamingRule)}
    {e : String × NamingRule} : e ∈ insertOrdered key rule es ↔ e = (key, rule) ∨ e ∈ es :=
  (insertOrdered_perm key rule es).mem_iff.trans List.mem_cons

/-- A new key keeps the order. -/
theorem pairwise_insertOrdered {key : String} {rule : NamingRule} {es : List (String × NamingRule)}
    (hes : es.Pairwise fun a b => a.1 < b.1) (hnew : ∀ e ∈ es, e.1 ≠ key) :
    (insertOrdered key rule es).Pairwise fun a b => a.1 < b.1 := by
  induction es with
  | nil => exact List.pairwise_singleton _ _
  | cons first es ih =>
    obtain ⟨hfirst, hes'⟩ := List.pairwise_cons.mp hes
    obtain ⟨hne, hnew'⟩ := List.forall_mem_cons.mp hnew
    rw [insertOrdered]
    split
    · next hlt =>
      refine List.pairwise_cons.mpr ⟨List.forall_mem_cons.mpr ⟨hlt, fun e he => ?_⟩, hes⟩
      exact String.lt_trans hlt (hfirst e he)
    · next hnlt =>
      refine List.pairwise_cons.mpr ⟨fun e he => ?_, ih hes' hnew'⟩
      rcases mem_insertOrdered.mp he with rfl | he
      · exact Std.lt_of_le_of_ne (String.not_lt.mp hnlt) hne
      · exact hfirst e he

end Rulebook

/-- Rules by the lowercase form of their kind, in the order of these forms. -/
structure Rulebook where
  entries : List (String × NamingRule)
  ordered : entries.Pairwise fun a b => a.1 < b.1
  keyed : ∀ e ∈ entries, e.1 = Text.lowercase e.2.kind
  deriving DecidableEq

namespace Rulebook

/-- No rules. -/
def empty : Rulebook where
  entries := []
  ordered := .nil
  keyed := fun _ he => absurd he List.not_mem_nil

/-- The rule of a kind, in either case. -/
def get? (book : Rulebook) (kind : String) : Option NamingRule :=
  book.entries.lookup (Text.lowercase kind)

/-- The rules in the order of the lowercase forms of their kinds. -/
def rules (book : Rulebook) : List NamingRule := book.entries.map Prod.snd

theorem mem_entries_iff {book : Rulebook} {e : String × NamingRule} :
    e ∈ book.entries ↔ e.1 = Text.lowercase e.2.kind ∧ e.2 ∈ book.rules := by
  constructor
  · intro he
    exact ⟨book.keyed e he, List.mem_map_of_mem he⟩
  · rintro ⟨hkey, hrule⟩
    obtain ⟨e', he', hsame⟩ := List.mem_map.mp hrule
    have hkey' : e'.1 = e.1 := by rw [book.keyed e' he', hsame, hkey]
    rwa [Prod.ext hkey' hsame] at he'

/-- A kind finds the rule that has this kind, in either case. -/
theorem get?_eq_some_iff {book : Rulebook} {kind : String} {rule : NamingRule} :
    book.get? kind = some rule ↔
      rule ∈ book.rules ∧ Text.lowercase rule.kind = Text.lowercase kind := by
  have hentry : (Text.lowercase kind, rule) ∈ book.entries ↔
      rule ∈ book.rules ∧ Text.lowercase rule.kind = Text.lowercase kind :=
    mem_entries_iff.trans (and_comm.trans (and_congr_right fun _ => eq_comm))
  rw [← hentry, get?, List.lookup_eq_some_iff]
  constructor
  · rintro ⟨before, after, happend, -⟩
    rw [happend]
    exact List.mem_append_right before List.mem_cons_self
  · intro hmem
    obtain ⟨before, after, happend⟩ := List.append_of_mem hmem
    have hordered := book.ordered
    rw [happend] at hordered
    refine ⟨before, after, happend, fun e he => bne_iff_ne.mpr fun hkey => ?_⟩
    have hlt := (List.pairwise_append.mp hordered).2.2 e he _ List.mem_cons_self
    rw [← hkey] at hlt
    exact String.lt_irrefl _ hlt

theorem get?_eq_none_iff {book : Rulebook} {kind : String} :
    book.get? kind = none ↔ ∀ e ∈ book.entries, e.1 ≠ Text.lowercase kind := by
  rw [get?, List.lookup_eq_none_iff]
  exact forall₂_congr fun e _ => bne_iff_ne.trans ne_comm

/-- Adds a rule for a kind that has none. -/
def insert (book : Rulebook) (rule : NamingRule) (hnew : book.get? rule.kind = none) :
    Rulebook where
  entries := insertOrdered (Text.lowercase rule.kind) rule book.entries
  ordered := pairwise_insertOrdered book.ordered (get?_eq_none_iff.mp hnew)
  keyed := by
    intro e he
    rcases mem_insertOrdered.mp he with rfl | he
    · rfl
    · exact book.keyed e he

theorem rules_insert_perm {book : Rulebook} {rule : NamingRule} (hnew : book.get? rule.kind = none) :
    (book.insert rule hnew).rules.Perm (rule :: book.rules) :=
  (insertOrdered_perm _ _ _).map Prod.snd

/-- Adds a rule, unless its kind has one already or its text does not compile. -/
def add (book : Rulebook) (t : RuleText) : Except RulebookError Rulebook :=
  match hfound : book.get? t.kind with
  | some _ => .error (.duplicateKind t.kind)
  | none =>
    match compileRule t.text with
    | .error cause => .error (.invalidRule t.kind t.text cause)
    | .ok rule => .ok (book.insert ⟨t.kind, t.text, rule, t.message⟩ hfound)

/-- Adds rules one after the other. -/
def addAll : Rulebook → List RuleText → Except RulebookError Rulebook
  | book, [] => .ok book
  | book, t :: ts => do
    let book ← book.add t
    book.addAll ts

/-- The rulebook of the given rules, which are visited in the order of their kinds. -/
def ofTexts (texts : List RuleText) : Except RulebookError Rulebook :=
  empty.addAll (texts.mergeSort fun a b => decide (a.kind ≤ b.kind))

/-- The rulebook that a document describes. -/
def parse [RulebookFormat] (document : String) : Except RulebookError Rulebook :=
  match RulebookFormat.decode? document with
  | none => .error .malformed
  | some texts => ofTexts texts

end Rulebook

end SqlPredicates
