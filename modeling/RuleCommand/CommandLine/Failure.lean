import RuleCommand.CommandLine.Arguments

set_option autoImplicit false

/-!
# Failures

Why the program has no command to print. A failure has a headline and the causes behind it.

## Main definitions

* `RuleCommand.Failure` — the failures.
* `RuleCommand.indentLines` — a text whose lines are indented.
* `RuleCommand.Failure.report` — a failure as it is printed.
-/

namespace RuleCommand

/-! ## Causes -/

/-- A reason why there is no command to print. -/
inductive Failure where
  /-- The command line cannot be read. -/
  | arguments (error : ArgumentError)
  /-- Words of the command line are left over. -/
  | unexpected (rest : List String)
  /-- The rule has no command. -/
  | rule (name : String) (error : CompileError)
deriving DecidableEq, Repr

namespace Failure

/-- What failed. -/
def headline : Failure → String
  | arguments error => error.message
  | unexpected rest =>
    "unexpected arguments: [" ++ ", ".intercalate (rest.map quoteText) ++ "]"
  | rule name _ => "compiling rule '" ++ name ++ "'"

/-- The causes behind a failure. A template that cannot be read is both an error of the rule and
an error of its own, so it is told twice. -/
def causes : Failure → List String
  | rule _ (.malformed error) => [error.message, error.message]
  | rule _ error => [error.message]
  | _ => []

end Failure

/-! ## Reports -/

/-- A text with one indentation in front of its first line and another in front of every further
line. -/
def indentLines (first further text : String) : String :=
  first ++ ("\n" ++ further).intercalate ((text.toList.splitOn '\n').map String.ofList)

namespace Failure

/-- A cause in a report: indented, and numbered if there are several. -/
def causeLines (number? : Option Nat) (cause : String) : String :=
  match number? with
  | none => indentLines "    " "    " cause
  | some number => indentLines (alignRight 5 (toString number) ++ ": ") "       " cause

/-- The causes in a report. -/
def causesReport : List String → String
  | [] => ""
  | [cause] => "\n\nCaused by:\n" ++ causeLines none cause
  | causes =>
    "\n\nCaused by:\n" ++
      "\n".intercalate (causes.zipIdx.map fun entry => causeLines (some entry.2) entry.1)

/-- A failure as it is printed. -/
def report (failure : Failure) : String :=
  "Error: " ++ failure.headline ++ causesReport failure.causes ++ "\n"

end Failure

end RuleCommand
