import SqlPredicates.Directory
import SqlPredicates.Rule.Printer
import SqlPredicates.Rulebook
import SqlPredicates.Search.Document
import SqlPredicates.Search.Parser
import SqlPredicates.Search.Printer

/-!
# Commands

Three commands work on rules and search conditions: one prints the structure of a text, one checks
names against a rule, one searches a file. A command takes its options and the files it may read; it
gives what it prints on the two output channels, and either an outcome or an error. Problems of rules
and search conditions are outcomes, problems of options and files are errors. The format of rulebooks is
a parameter.

## Main definitions

* `Outcome`, `CommandError`, `Printed` — what a command ends with
* `Command.describeText`, `Command.checkNames`, `Command.searchFile` — the commands
* `Command.run` — any of them
-/

namespace SqlPredicates

/-- How a command that ran to its end has ended. -/
inductive Outcome where
  | success
  | failure
  deriving DecidableEq, Repr

/-- Why a command did not run to its end. -/
inductive CommandError where
  | unreadableRulebook (path : String) (cause : FileError)
  | unusableRulebook (cause : RulebookError)
  | kindRequired
  | noRule (kind path : String)
  | ruleRequired
  | unreadableDocument (path : String) (cause : FileError)
  deriving DecidableEq, Repr

namespace CommandError

/-- The wording of the error. -/
def message : CommandError → String
  | unreadableRulebook path _ => "cannot read `" ++ path ++ "`"
  | unusableRulebook cause => cause.message
  | kindRequired => "`--kind` is required with `--config`"
  | noRule kind path => "no rule for `" ++ kind ++ "` in `" ++ path ++ "`"
  | ruleRequired => "either `--rule` or `--config` is required"
  | unreadableDocument path _ => "failed to read `" ++ path ++ "`"

/-- The wording of what lies behind the error. -/
def cause? : CommandError → Option String
  | unreadableRulebook _ cause => some cause.message
  | unreadableDocument _ cause => some cause.message
  | _ => none

end CommandError

/-- What a command has printed, and its result. -/
structure Printed (α : Type) where
  out : String
  err : String
  result : α
  deriving DecidableEq

namespace Printed

/-- Nothing printed. -/
def silent {α : Type} (result : α) : Printed α := ⟨"", "", result⟩

/-- A report on what went wrong, which makes a command fail. -/
def failure (report : String) : Printed (Except CommandError Outcome) :=
  ⟨"", report ++ "\n", .ok .failure⟩

end Printed

/-- The colours that a verdict is printed in. -/
inductive Paint where
  | green
  | red
  | boldRed
  deriving DecidableEq, Repr

/-- The control sequence that begins a colour. -/
def Paint.begins : Paint → String
  | .green => "\x1b[32m"
  | .red => "\x1b[31m"
  | .boldRed => "\x1b[31m\x1b[1m"

/-- A text in a colour, if colours are wanted. -/
def Paint.apply (colors : Bool) (paint : Paint) (text : String) : String :=
  if colors then paint.begins ++ text ++ "\x1b[0m" else text

namespace Command

/-! ### Printing the structure of a text -/

/-- The two languages. -/
inductive Grammar where
  | naming
  | contains
  deriving DecidableEq, Repr

/-- What is printed for a text: its canonical text, or its outline. -/
def describe (grammar : Grammar) (canonical : Bool) (text : String) : Except SyntaxError String :=
  match grammar with
  | .naming => (parseRule text).map fun e => if canonical then e.render else e.outline
  | .contains => (parseCondition text).map fun t => if canonical then t.render else t.outline

/-- Prints the structure of a text. -/
def describeText (grammar : Grammar) (canonical : Bool) (text : String) :
    Printed (Except CommandError Outcome) :=
  match describe grammar canonical text with
  | .ok line => ⟨line ++ "\n", "", .ok .success⟩
  | .error e => Printed.failure (e.report (Source.input text))

/-! ### Checking names -/

/-- The options of a check. A rule that is given comes before a rulebook. -/
structure CheckOptions where
  rule : Option String
  rulebook : Option String
  kind : Option String
  schema : String
  names : List String
  deriving DecidableEq, Repr

/-- The rule to check names against: where it comes from, its text, and the message for names that
break it. -/
structure ChosenRule where
  origin : String
  text : String
  message : Option String
  deriving DecidableEq, Repr

/-- Why there is no rule to check names against. -/
inductive NoRule where
  /-- A rule of the rulebook does not compile; the report says so. -/
  | reported (report : String)
  | error (e : CommandError)
  deriving DecidableEq, Repr

/-- The rule for a kind in a rulebook. The rulebook is loaded first, so a rule in it that does not
compile is found even if another rule was asked for, or no kind was given. -/
def ruleFromBook [RulebookFormat] (files : Files) (path : String) (kind : Option String) :
    Except NoRule ChosenRule :=
  match files.text path with
  | .error e => .error (.error (.unreadableRulebook path e))
  | .ok document =>
    match Rulebook.parse document with
    | .error (.invalidRule ruleKind text cause) =>
      .error (.reported (cause.report ⟨ruleKind, text⟩))
    | .error e => .error (.error (.unusableRulebook e))
    | .ok book =>
      match kind with
      | none => .error (.error .kindRequired)
      | some kind =>
        match book.get? kind with
        | none => .error (.error (.noRule kind path))
        | some rule => .ok ⟨rule.kind, rule.text, rule.message⟩

/-- The rule that the options choose. -/
def chooseRule [RulebookFormat] (files : Files) (options : CheckOptions) :
    Except NoRule ChosenRule :=
  match options.rule, options.rulebook with
  | some text, _ => .ok ⟨"<rule>", text, none⟩
  | none, some path => ruleFromBook files path options.kind
  | none, none => .error (.error .ruleRequired)

/-- Checks one name, prints the verdict, and says whether it passed. -/
def checkOne (colors : Bool) (source : Source) (message : Option String) (rule : Expr)
    (object : ObjectName) : Printed Bool :=
  match checkName rule object with
  | .ok true => ⟨Paint.green.apply colors "PASS" ++ " " ++ object.name ++ "\n", "", true⟩
  | .ok false =>
    let remark := match message with
      | some text => ": " ++ text
      | none => ""
    ⟨Paint.red.apply colors "FAIL" ++ " " ++ object.name ++ remark ++ "\n", "", false⟩
  | .error e =>
    ⟨Paint.boldRed.apply colors "ERROR" ++ " " ++ object.name ++ "\n",
      source.report e.message e.span.start ++ "\n", false⟩

/-- Checks objects one after the other, and says whether all of them passed. -/
def checkAll (colors : Bool) (source : Source) (message : Option String) (rule : Expr) :
    List ObjectName → Printed Bool
  | [] => Printed.silent true
  | object :: objects =>
    let first := checkOne colors source message rule object
    let rest := checkAll colors source message rule objects
    ⟨first.out ++ rest.out, first.err ++ rest.err, first.result && rest.result⟩

/-- The objects whose names are checked. -/
def CheckOptions.objects (options : CheckOptions) : List ObjectName :=
  options.names.map fun name => ⟨name, options.kind.getD "", options.schema⟩

/-- Checks names against a rule. -/
def checkNames [RulebookFormat] (files : Files) (colors : Bool) (options : CheckOptions) :
    Printed (Except CommandError Outcome) :=
  match chooseRule files options with
  | .error (.reported report) => Printed.failure report
  | .error (.error e) => Printed.silent (.error e)
  | .ok chosen =>
    let source : Source := ⟨chosen.origin, chosen.text⟩
    match compileRule chosen.text with
    | .error e => Printed.failure (e.report source)
    | .ok rule =>
      let verdicts := checkAll colors source chosen.message rule options.objects
      ⟨verdicts.out, verdicts.err, .ok (if verdicts.result then .success else .failure)⟩

/-! ### Searching a file -/

/-- Says whether a file satisfies a search condition. -/
def searchFile (files : Files) (colors : Bool) (predicate path : String) (near : Nat) :
    Printed (Except CommandError Outcome) :=
  match files.text path with
  | .error e => Printed.silent (.error (.unreadableDocument path e))
  | .ok text =>
    match parseCondition predicate with
    | .error e => Printed.failure (e.report ⟨"<predicate>", predicate⟩)
    | .ok term =>
      if (Document.ofText text).fulfils near term then
        ⟨path ++ ": " ++ Paint.green.apply colors "match" ++ "\n", "", .ok .success⟩
      else
        ⟨path ++ ": " ++ Paint.red.apply colors "no match" ++ "\n", "", .ok .failure⟩

end Command

/-- A command with its options. -/
inductive Command where
  | parse (grammar : Command.Grammar) (canonical : Bool) (text : String)
  | check (options : Command.CheckOptions)
  | search (predicate path : String) (near : Nat)
  deriving DecidableEq, Repr

namespace Command

/-- The file that a command reads. -/
def path? : Command → Option String
  | .parse .. => none
  | .check options => if options.rule.isSome then none else options.rulebook
  | .search _ path _ => some path

/-- Runs a command. -/
def run [RulebookFormat] (files : Files) (colors : Bool) :
    Command → Printed (Except CommandError Outcome)
  | .parse grammar canonical text => describeText grammar canonical text
  | .check options => checkNames files colors options
  | .search predicate path near => searchFile files colors predicate path near

end Command

end SqlPredicates
