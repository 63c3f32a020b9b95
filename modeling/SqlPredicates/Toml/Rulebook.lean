import SqlPredicates.Rulebook
import SqlPredicates.Toml.Reader

/-!
# Rulebooks in TOML

A rulebook is written as a TOML document with a table for each kind of object:

```
[rules.table]
rule = "starts_with(name, 'tbl_') AND len(name) <= 30"
message = "tables start with tbl_"
```

Instead of the table, a list may give the texts of the rule and of the message; what else is in it is
passed over. Any other key makes the document malformed.

## Main definitions

* `RuleText.decode?` — the rules of a document
* `Toml.rulebookFormat` — TOML as a format of rulebooks
-/

namespace SqlPredicates

namespace RuleText

/-- An optional text. -/
def optionalText? : Option Toml → Option (Option String)
  | none => some none
  | some (.string text) => some (some text)
  | some _ => none

/-- The rule that a value describes: a table with the keys `rule` and, if wanted, `message`, or a list
that begins with the texts of both. -/
def ofValue? (kind : String) : Toml → Option RuleText
  | .table _ entries =>
    if entries.all fun e => e.1 == "rule" || e.1 == "message" then
      match entries.lookup "rule", optionalText? (entries.lookup "message") with
      | some (.string text), some message => some ⟨kind, text, message⟩
      | _, _ => none
    else none
  | .array (.string text :: .string message :: _) => some ⟨kind, text, some message⟩
  | _ => none

/-- The rules of a document, in the order they are written. Its only key is `rules`, which may be
missing. -/
def decode? (document : Toml.Entries) : Option (List RuleText) :=
  if document.all fun e => e.1 == "rules" then
    match document.lookup "rules" with
    | none => some []
    | some (.table _ entries) => entries.mapM fun e => ofValue? e.1 e.2
    | some _ => none
  else none

end RuleText

/-- TOML as a format of rulebooks. -/
instance Toml.rulebookFormat : RulebookFormat where
  decode? document := (Toml.parse document).bind RuleText.decode?

end SqlPredicates
