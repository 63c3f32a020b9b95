import SqlPredicates.Rule.Checker
import SqlPredicates.Rule.Evaluation
import SqlPredicates.Rule.Parser
import SqlPredicates.Rule.StandardFunctions

/-!
# Compiled rules

A rule is compiled by reading its text and checking the expression against the standard functions. A
compiled rule is then evaluated for objects.

## Main definitions

* `RuleError`, `RuleError.report` — why a text is no rule, and the report on that
* `compileRule` — the expression of a rule
* `checkName` — whether an object satisfies a compiled rule
-/

namespace SqlPredicates

/-- Why a text is no rule. -/
inductive RuleError where
  | unreadable (cause : SyntaxError)
  | rejected (errors : List CheckError)
  deriving DecidableEq, Repr

namespace RuleError

/-- The wording of the error. -/
def message : RuleError → String
  | unreadable cause => cause.message
  | rejected errors => "; ".intercalate (errors.map CheckError.message)

/-- The report on every complaint, each with its line of the rule. -/
def report (source : Source) : RuleError → String
  | unreadable cause => cause.report source
  | rejected errors =>
    "\n".intercalate (errors.map fun e => source.report e.message e.span.start)

end RuleError

/-- Reads and checks a rule. -/
def compileRule (text : String) : Except RuleError Expr :=
  match parseRule text with
  | .error e => .error (.unreadable e)
  | .ok rule =>
    match checkRule Registry.standard rule with
    | [] => .ok rule
    | errors => .error (.rejected errors)

/-- Whether an object satisfies a compiled rule. -/
def checkName (rule : Expr) (object : ObjectName) : Except EvalError Bool :=
  evaluateRule Registry.standard object rule

end SqlPredicates
