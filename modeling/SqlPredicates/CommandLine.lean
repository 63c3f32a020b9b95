import SqlPredicates.Command
import SqlPredicates.Toml.Rulebook

/-!
# The command line

A command line names a command and gives its options and operands. Options can stand before, between
and after operands; `--` makes everything after it an operand. A long option takes its value after
an equals sign or from the next argument, a short one also directly after its letter, and letters of
options without values can be joined. Rulebooks are read as TOML.

An argument that begins with a dash, other than the dash alone, is never the value of an option unless
it is attached to it, and never an operand unless it stands after `--`.

## Main definitions

* `CommandLine.Shape` — the options and operands of a command
* `CommandLine.scan` — the arguments sorted into options and operands
* `CommandLine.parse` — the command that arguments ask for
* `CommandLine.run` — what is printed, and the exit code
-/

namespace SqlPredicates

namespace CommandLine

/-! ### Sorting arguments -/

/-- An option. A flag takes no value, so it has no test for values. -/
structure Choice where
  name : String
  letter : Option Char
  accepts : Option (String → Bool)
  repeatable : Bool

/-- What a command can be given: its options, and a test for each operand. If `more` holds, the last
test is for all further operands too. -/
structure Shape where
  choices : List Choice
  operands : List (String → Bool)
  more : Bool

/-- Why the arguments cannot be used. -/
inductive UsageError where
  | unknownArgument (text : String)
  | missingValue (name : String)
  | unwantedValue (name : String)
  | invalidValue (name value : String)
  | repeated (name : String)
  | unexpectedOperand (text : String)
  | invalidOperand (text : String)
  | missingOperand
  | missingCommand
  | unknownCommand (name : String)
  | missingOption (name : String)
  | conflict (first second : String)
  deriving DecidableEq, Repr

/-- The wording of a usage error. -/
def UsageError.message : UsageError → String
  | unknownArgument text => "unexpected argument `" ++ text ++ "`"
  | missingValue name => "a value is required for `--" ++ name ++ "`"
  | unwantedValue name => "`--" ++ name ++ "` takes no value"
  | invalidValue name value => "invalid value `" ++ value ++ "` for `--" ++ name ++ "`"
  | repeated name => "`--" ++ name ++ "` cannot be used more than once"
  | unexpectedOperand text => "unexpected argument `" ++ text ++ "`"
  | invalidOperand text => "invalid argument `" ++ text ++ "`"
  | missingOperand => "an argument is missing"
  | missingCommand => "a command is missing"
  | unknownCommand name => "unrecognized command `" ++ name ++ "`"
  | missingOption name => "`--" ++ name ++ "` is required"
  | conflict first second => "`--" ++ first ++ "` cannot be used with `--" ++ second ++ "`"

/-- Why the arguments lead to no command. -/
inductive Stop where
  | help
  | usage (e : UsageError)
  deriving DecidableEq, Repr

/-- The options that were given, with their values, and the operands. -/
structure Arguments where
  given : List (String × String)
  operands : List String
  deriving DecidableEq, Repr

/-- Refuses the arguments. -/
def refuse {α : Type} (e : UsageError) : Except Stop α := .error (.usage e)

/-- The option that asks for help. -/
def helpChoice : Choice := ⟨"help", some 'h', none, false⟩

/-- The option that asks for more log output. -/
def verboseChoice : Choice := ⟨"verbose", some 'v', none, true⟩

namespace Shape

/-- The option with a name. -/
def byName? (s : Shape) (name : String) : Option Choice :=
  (s.choices ++ [verboseChoice, helpChoice]).find? fun c => c.name == name

/-- The option with a letter. -/
def byLetter? (s : Shape) (letter : Char) : Option Choice :=
  (s.choices ++ [verboseChoice, helpChoice]).find? fun c => c.letter == some letter

/-- The test for the operand at an index. -/
def operandTest? (s : Shape) (index : Nat) : Option (String → Bool) :=
  match s.operands[index]? with
  | some test => some test
  | none => if s.more then s.operands.getLast? else none

end Shape

namespace Arguments

/-- Records an option. -/
def record (a : Arguments) (c : Choice) (value : String) : Except Stop Arguments :=
  if c.name = "help" then .error .help
  else if (a.given.lookup c.name).isSome && !c.repeatable then refuse (.repeated c.name)
  else .ok { a with given := a.given ++ [(c.name, value)] }

/-- Records an option with its value. -/
def recordValue (a : Arguments) (c : Choice) (accepts : String → Bool) (value : String) :
    Except Stop Arguments :=
  if accepts value then a.record c value else refuse (.invalidValue c.name value)

/-- Records an operand. -/
def addOperand (s : Shape) (a : Arguments) (text : String) : Except Stop Arguments :=
  match s.operandTest? a.operands.length with
  | none => refuse (.unexpectedOperand text)
  | some test =>
    if test text then .ok { a with operands := a.operands ++ [text] }
    else refuse (.invalidOperand text)

/-- Records operands. -/
def addOperands (s : Shape) : Arguments → List String → Except Stop Arguments
  | a, [] => .ok a
  | a, text :: texts => do
    let a ← a.addOperand s text
    addOperands s a texts

end Arguments

/-- What an argument leaves to do: nothing, or taking the next argument as the value of an option. -/
inductive Pending where
  | nothing
  | value (c : Choice) (accepts : String → Bool)

/-- A value after a letter may begin with an equals sign. -/
def attached : List Char → String
  | '=' :: cs => String.ofList cs
  | cs => String.ofList cs

/-- Reads the letters of short options. -/
def letters (s : Shape) : List Char → Arguments → Except Stop (Arguments × Pending)
  | [], a => .ok (a, .nothing)
  | letter :: rest, a =>
    match s.byLetter? letter with
    | none => refuse (.unknownArgument (String.ofList ['-', letter]))
    | some c =>
      match c.accepts with
      | none => do
        let a ← a.record c ""
        letters s rest a
      | some accepts =>
        if rest.isEmpty then .ok (a, .value c accepts)
        else do
          let a ← a.recordValue c accepts (attached rest)
          return (a, .nothing)

/-- Reads a long option. -/
def long (s : Shape) (text : List Char) (a : Arguments) : Except Stop (Arguments × Pending) :=
  let name := String.ofList (text.takeWhile (· ≠ '='))
  match s.byName? name with
  | none => refuse (.unknownArgument ("--" ++ name))
  | some c =>
    match c.accepts, text.dropWhile (· ≠ '=') with
    | none, [] => do
      let a ← a.record c ""
      return (a, .nothing)
    | none, _ :: _ => refuse (.unwantedValue c.name)
    | some accepts, [] => .ok (a, .value c accepts)
    | some accepts, _ :: value => do
      let a ← a.recordValue c accepts (String.ofList value)
      return (a, .nothing)

/-- Whether an argument has the form of an option. -/
def looksLikeOption (text : String) : Bool :=
  match text.toList with
  | '-' :: _ :: _ => true
  | _ => false

/-- Reads an argument that has the form of an option. -/
def option (s : Shape) (text : String) (a : Arguments) : Except Stop (Arguments × Pending) :=
  match text.toList with
  | '-' :: '-' :: name => long s name a
  | '-' :: cs => letters s cs a
  | _ => refuse (.unknownArgument text)

/-- Sorts arguments into options and operands. -/
def scan (s : Shape) : List String → Arguments → Except Stop Arguments
  | [], a => .ok a
  | text :: rest, a =>
    if text = "--" then a.addOperands s rest
    else if looksLikeOption text then do
      let (a, pending) ← option s text a
      match pending with
      | .nothing => scan s rest a
      | .value c accepts =>
        match rest with
        | [] => refuse (.missingValue c.name)
        | value :: rest =>
          if looksLikeOption value then refuse (.missingValue c.name)
          else do
            let a ← a.recordValue c accepts value
            scan s rest a
    else do
      let a ← a.addOperand s text
      scan s rest a

/-- Sorts arguments and makes sure that every operand is there. -/
def arguments (s : Shape) (texts : List String) : Except Stop Arguments := do
  let a ← scan s texts ⟨[], []⟩
  if a.operands.length < s.operands.length then refuse .missingOperand else return a

/-! ### The commands -/

/-- Every text. -/
def anyText (_ : String) : Bool := true

/-- A path is not empty. -/
def isPath (text : String) : Bool := !text.isEmpty

/-- The grammar with a name. -/
def grammar? : String → Option Command.Grammar
  | "naming" => some .naming
  | "contains" => some .contains
  | _ => none

/-- A number of 64 bits in decimal digits, which may have a plus sign. -/
def distance? (text : String) : Option Nat :=
  let digits := match text.toList with
    | '+' :: cs => cs
    | cs => cs
  let n := Binary64.digitsValue digits
  if !digits.isEmpty && digits.all Char.isDigit && n < UInt64.size then some n else none

/-- What `parse` can be given. -/
def parseShape : Shape where
  choices := [⟨"grammar", some 'g', some fun t => (grammar? t).isSome, false⟩,
    ⟨"canonical", none, none, false⟩]
  operands := [anyText]
  more := false

/-- What `check` can be given. -/
def checkShape : Shape where
  choices := [⟨"rule", some 'r', some anyText, false⟩, ⟨"config", some 'c', some isPath, false⟩,
    ⟨"kind", some 'k', some anyText, false⟩, ⟨"schema", some 's', some anyText, false⟩]
  operands := [anyText]
  more := true

/-- What `search` can be given. -/
def searchShape : Shape where
  choices := [⟨"near-distance", none, some fun t => (distance? t).isSome, false⟩]
  operands := [anyText, isPath]
  more := false

/-- The command `parse` with its arguments. -/
def parseCommand (texts : List String) : Except Stop Command := do
  let a ← arguments parseShape texts
  let grammar := ((a.given.lookup "grammar").bind grammar?).getD .naming
  return .parse grammar (a.given.lookup "canonical").isSome (a.operands.headD "")

/-- The command `check` with its arguments: either a rule, or a rulebook and a kind. -/
def checkCommand (texts : List String) : Except Stop Command := do
  let a ← arguments checkShape texts
  let rule := a.given.lookup "rule"
  let rulebook := a.given.lookup "config"
  let kind := a.given.lookup "kind"
  if rule.isSome && rulebook.isSome then refuse (.conflict "rule" "config")
  else if rule.isNone && rulebook.isNone then refuse (.missingOption "rule")
  else if rulebook.isSome && kind.isNone then refuse (.missingOption "kind")
  else return .check ⟨rule, rulebook, kind, (a.given.lookup "schema").getD "dbo", a.operands⟩

/-- The command `search` with its arguments. -/
def searchCommand (texts : List String) : Except Stop Command := do
  let a ← arguments searchShape texts
  let near := ((a.given.lookup "near-distance").bind distance?).getD defaultNearDistance
  match a.operands with
  | predicate :: path :: _ => return .search predicate path near
  | _ => refuse .missingOperand

/-- The names of the commands. -/
def commandNames : List String := ["parse", "check", "search", "help"]

/-- The request for help on a command, or on all of them. No command has commands of its own, so that a
second name is unknown. -/
def helpCommand : List String → Except Stop Command
  | [] => .error .help
  | name :: rest =>
    if commandNames.contains name then
      match rest with
      | [] => .error .help
      | inner :: _ => refuse (.unknownCommand inner)
    else refuse (.unknownCommand name)

/-- What can be given before the command. -/
def outerShape : Shape := ⟨[], [], false⟩

/-- The command that arguments ask for. -/
def parse : List String → Except Stop Command
  | [] => refuse .missingCommand
  | text :: rest =>
    if text = "--" then refuse .missingCommand
    else if looksLikeOption text then do
      let _ ← option outerShape text ⟨[], []⟩
      parse rest
    else match text with
      | "parse" => parseCommand rest
      | "check" => checkCommand rest
      | "search" => searchCommand rest
      | "help" => helpCommand rest
      | name => refuse (.unknownCommand name)

/-! ### Running -/

/-- What a run prints on the two output channels, and its exit code. -/
structure Exit where
  code : Nat
  out : String
  err : String
  deriving DecidableEq, Repr

/-- The text printed on request. -/
def helpText : String :=
  "Check T-SQL object names against naming rules and test CONTAINS predicates\n\n"
    ++ "Commands:\n"
    ++ "  parse [-g naming|contains] [--canonical] TEXT\n"
    ++ "  check (--rule RULE | --config FILE --kind KIND) [--schema SCHEMA] NAMES...\n"
    ++ "  search [--near-distance N] PREDICATE FILE\n"

/-- The printed form of an error of a command, with what lies behind it. -/
def errorText (e : CommandError) : String :=
  "Error: " ++ e.message ++ "\n" ++
    match e.cause? with
    | none => ""
    | some cause => "\nCaused by:\n    " ++ cause ++ "\n"

/-- The exit of a command: `0` for success, `1` for failure and for errors. -/
def exitOf (p : Printed (Except CommandError Outcome)) : Exit :=
  match p.result with
  | .ok .success => ⟨0, p.out, p.err⟩
  | .ok .failure => ⟨1, p.out, p.err⟩
  | .error e => ⟨1, p.out, p.err ++ errorText e⟩

/-- The exit of arguments that lead to no command: `0` for help, `2` for a wrong usage. -/
def exitOfStop : Stop → Exit
  | .help => ⟨0, helpText, ""⟩
  | .usage e => ⟨2, "", "error: " ++ e.message ++ "\n"⟩

/-- Runs a command line. -/
def run (files : Files) (colors : Bool) (args : List String) : Exit :=
  match parse args with
  | .error stop => exitOfStop stop
  | .ok command => exitOf (command.run files colors)

end CommandLine

end SqlPredicates
