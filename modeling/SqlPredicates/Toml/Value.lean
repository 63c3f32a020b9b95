/-!
# TOML documents

A document is a table of keys and values. A table remembers how it came about, because that decides
whether it may still grow: a table in braces is closed, a table with a header of its own may not get a
second one, and a table that dotted keys have built may only be extended by dotted keys.

## Main definitions

* `Toml` — the values
* `Toml.Origin` — how a table came about
* `Toml.Entries.insert?` — a key and its value, added below the current table
* `Toml.Entries.openTable?`, `Toml.Entries.openTables?` — what the two kinds of headers do
-/

namespace SqlPredicates

namespace Toml

/-- How a table came about. -/
inductive Origin where
  /-- By a header, or as the whole document. -/
  | defined
  /-- As a table on the way to the one in a header. -/
  | implied
  /-- By a dotted key. -/
  | dotted
  /-- Written in braces. -/
  | inline
  deriving DecidableEq, Repr

end Toml

/-- A value of a TOML document. Numbers with a fraction and dates are kept as they are written. -/
inductive Toml where
  | string (text : String)
  | integer (value : Int)
  | float (text : String)
  | boolean (value : Bool)
  | dateTime (text : String)
  | array (items : List Toml)
  | table (origin : Toml.Origin) (entries : List (String × Toml))
  | tables (items : List (List (String × Toml)))

namespace Toml

/-- The keys of a table with their values, in the order they were written. -/
abbrev Entries := List (String × Toml)

namespace Entries

/-- The value of a key. -/
def get? (key : String) (entries : Entries) : Option Toml := entries.lookup key

/-- Gives a key a value, in the place of the old one or at the end. -/
def set (key : String) (value : Toml) : Entries → Entries
  | [] => [(key, value)]
  | (k, v) :: entries => if k = key then (key, value) :: entries else (k, v) :: set key value entries

/-- Changes the table at the end of a path. Missing tables are made on the way, and an array of tables
stands for its last one. With `dotted`, tables that have a header may not be passed. -/
def descend (dotted : Bool) (change : Origin → Entries → Option Entries) :
    List String → Origin → Entries → Option Entries
  | [], origin, entries => change origin entries
  | key :: path, _, entries =>
    match get? key entries with
    | none => do
      let origin := if dotted then Origin.dotted else Origin.implied
      let below ← descend dotted change path origin []
      return set key (.table origin below) entries
    | some (.table origin below) =>
      if origin = .inline || (dotted && origin = .defined) then none
      else do
        let below ← descend dotted change path origin below
        return set key (.table origin below) entries
    | some (.tables items) => do
      let last ← items.getLast?
      let below ← descend dotted change path .defined last
      return set key (.tables (items.dropLast ++ [below])) entries
    | some _ => none

/-- Adds a key and its value. The keys before the last one of a dotted key must lead to a table that
dotted keys have built. -/
def insert? (path : List String) (key : String) (value : Toml) (entries : Entries) : Option Entries :=
  let add (origin : Origin) (below : Entries) : Option Entries :=
    if decide (origin = .dotted) = path.isEmpty then none
    else if (get? key below).isSome then none
    else some (below ++ [(key, value)])
  descend true add path .defined entries

/-- Opens the table of a header. A table that was only implied so far is defined now. -/
def openTable? (path : List String) (key : String) (entries : Entries) : Option Entries :=
  let create (_ : Origin) (below : Entries) : Option Entries :=
    match get? key below with
    | none => some (set key (.table .defined []) below)
    | some (.table .implied old) => some (set key (.table .defined old) below)
    | some _ => none
  descend false create path .defined entries

/-- Opens a new table in an array of tables. -/
def openTables? (path : List String) (key : String) (entries : Entries) : Option Entries :=
  let create (_ : Origin) (below : Entries) : Option Entries :=
    match get? key below with
    | none => some (set key (.tables [[]]) below)
    | some (.tables items) => some (set key (.tables (items ++ [[]])) below)
    | some _ => none
  descend false create path .defined entries

/-- Adds a key and its value to the table that the last header has opened. -/
def insertUnder? (header path : List String) (key : String) (value : Toml) (entries : Entries) :
    Option Entries :=
  descend false (fun _ below => insert? path key value below) header .defined entries

end Entries

end Toml

end SqlPredicates
