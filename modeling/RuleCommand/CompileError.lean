import RuleCommand.Template.Reading

set_option autoImplicit false

/-!
# Compile errors

Why a rule has no command. Every error has a text for the user and a kind for programs.

## Main definitions

* `RuleCommand.SyntaxError` — a fault of a template in its place.
* `RuleCommand.CompileError` — the reasons why a rule has no command.
* `RuleCommand.CompileError.message` — the text shown for one.
* `RuleCommand.CompileError.kind` — its coarse classification.
-/

namespace RuleCommand

/-! ## Faults in their places -/

/-- A fault of a template in its place. -/
structure SyntaxError where
  /-- What is wrong. -/
  fault : Fault
  /-- Where it is. -/
  position : Position
deriving DecidableEq, Repr

namespace SyntaxError

/-- The error of a reading of a template that ended early. -/
def ofReading? (template : List Char) (reading : Reading) : Option SyntaxError :=
  reading.located?.map fun located => ⟨located.2, Position.ofByte template located.1⟩

/-- What is wrong, without the place. -/
def detail (error : SyntaxError) : String :=
  error.fault.message

/-- The text shown for an error: the place and the fault, the line, and a mark below the character
at fault. -/
def message (error : SyntaxError) : String :=
  let position := error.position
  toString position.line ++ ":" ++ toString position.column ++ ": " ++ error.detail ++ "\n" ++
    position.lineText ++ "\n" ++
    String.ofList (List.replicate (position.column - 1) ' ') ++ "^ near here"

end SyntaxError

/-! ## Errors -/

/-- How the declaration of a dependency file and its use disagree. -/
inductive DepfileMismatch where
  /-- The command refers to a dependency file that the rule does not declare. -/
  | usedWithoutFlag
  /-- The rule declares a dependency file that the command does not refer to. -/
  | flaggedWithoutUse
deriving DecidableEq, Repr

/-- The text shown for a disagreement. -/
def DepfileMismatch.message : DepfileMismatch → String
  | usedWithoutFlag => "$(depfile) used without depfile property"
  | flaggedWithoutUse =>
    "specified depfile=true but did not include a reference to '$\x7bdepfile\x7d' in cmd"

/-- A reason why a rule has no command. -/
inductive CompileError where
  /-- The template cannot be read. -/
  | malformed (error : SyntaxError)
  /-- A location is asked for by a label that the rule does not declare. -/
  | unknownLabel (label : String)
  /-- The location of the only tool is asked for, but the rule declares several tools. -/
  | ambiguousTools (count : Nat)
  /-- The location of the only tool file is asked for, but the rule has several tool files. -/
  | ambiguousToolFiles (count : Nat)
  /-- The one path of a label is asked for, but the label has several. -/
  | multipleFiles (label : String) (count : Nat)
  /-- A location is asked for by a label that has no paths. -/
  | emptyLabel (label : String)
  /-- A variable has no value. -/
  | unknownVariable (name : String)
  /-- The rule produces nothing. -/
  | missingOutput
  /-- The location of the only tool is asked for, but the rule has neither tools nor tool files. -/
  | missingTool
  /-- The dependency file is declared or used, but not both. -/
  | depfileMismatch (mismatch : DepfileMismatch)
  /-- A declared label stands for nothing. -/
  | unresolvedDependency (label : String)
  /-- A label declared as a tool stands for files. -/
  | notATool (label : String)
deriving DecidableEq, Repr

/-- The coarse classification of errors. -/
inductive ErrorKind where
  /-- The template cannot be read. -/
  | malformed
  /-- A label is not declared. -/
  | unknownLabel
  /-- A location does not name exactly the paths that are needed. -/
  | ambiguousReference
  /-- A variable has no value. -/
  | unknownVariable
  /-- The rule produces nothing. -/
  | missingOutput
  /-- The rule has no tool. -/
  | missingTool
  /-- The dependency file is declared or used, but not both. -/
  | depfileMismatch
  /-- A declared label stands for nothing. -/
  | unresolvedDependency
  /-- A label declared as a tool stands for files. -/
  | notATool
deriving DecidableEq, Repr

namespace CompileError

/-- The text shown when a bare location could mean several things. -/
def ambiguousLocation (count : Nat) (what : String) : String :=
  "$(location) is ambiguous: " ++ toString count ++ " " ++ what ++
    " are declared, name one with $(location <label>)"

/-- The text shown for an error. -/
def message : CompileError → String
  | malformed error => error.message
  | unknownLabel label => "unknown location label " ++ quoteText label
  | ambiguousTools count => ambiguousLocation count "tools"
  | ambiguousToolFiles count => ambiguousLocation count "tool files"
  | multipleFiles label count =>
    "label " ++ quoteText label ++ " expands to " ++ toString count ++
      " files, use $(locations " ++ label ++ ")"
  | emptyLabel label => "label " ++ quoteText label ++ " has no files"
  | unknownVariable name => "unknown variable '$(" ++ name ++ ")'"
  | missingOutput => "must have at least one output file"
  | missingTool => "at least one `tools` or `tool_files` is required if $(location) is used"
  | depfileMismatch mismatch => mismatch.message
  | unresolvedDependency label => "unresolved dependency " ++ quoteText label
  | notATool label => quoteText label ++ " is not a host tool provider"

/-- The classification of an error. -/
def kind : CompileError → ErrorKind
  | malformed _ => .malformed
  | unknownLabel _ => .unknownLabel
  | ambiguousTools _ | ambiguousToolFiles _ | multipleFiles _ _ | emptyLabel _ =>
    .ambiguousReference
  | unknownVariable _ => .unknownVariable
  | missingOutput => .missingOutput
  | missingTool => .missingTool
  | depfileMismatch _ => .depfileMismatch
  | unresolvedDependency _ => .unresolvedDependency
  | notATool _ => .notATool

end CompileError

end RuleCommand
