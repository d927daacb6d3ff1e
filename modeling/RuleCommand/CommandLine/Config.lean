import RuleCommand.Compile
import RuleCommand.Template.Token
import RuleCommand.CommandLine.ValueOption

set_option autoImplicit false

/-!
# Configurations

A rule described on the command line, together with what its labels and variables stand for.

## Main definitions

* `RuleCommand.Config` — a configuration.
* `RuleCommand.Config.resolver` — what labels stand for in a configuration.
* `RuleCommand.Config.compile` — the command of the rule in a configuration.
-/

namespace RuleCommand

/-- A rule with what its labels and variables stand for. -/
structure Config where
  /-- The rule. -/
  rule : Rule
  /-- The bindings of variables, in order. -/
  bindings : List (String × String) := []
  /-- The labels of host tools with their paths, in order. -/
  providedTools : List (String × String) := []
  /-- The labels of groups of files with their paths, in order. -/
  providedFiles : List (String × List String) := []
  /-- What to list besides the command, in order. -/
  debugModes : List DebugMode := []
deriving DecidableEq, Repr

namespace Config

/-- The name of a rule that is given none. -/
def defaultName : String :=
  "genrule"

/-- The table of the labels that a configuration provides. Groups of files are entered after the
tools, so that they count for a label that is provided as both. -/
def catalog (config : Config) : Catalog :=
  .ofList
    (config.providedTools.map (fun entry => (entry.1, .tool entry.2)) ++
      config.providedFiles.map (fun entry => (entry.1, .files entry.2)))

/-- What labels stand for. A label that is not provided is a file of the source tree, which stands
for itself, unless it starts with a colon and so names another rule. -/
def resolver (config : Config) : Resolver := fun label =>
  match config.catalog.resolve label with
  | some resource => some resource
  | none => if label.toList.head? = some ':' then none else some (.files [label])

/-- The variables of a configuration. -/
def vars (config : Config) : Variables :=
  .ofList config.bindings

/-- The command of the rule. -/
def compile (config : Config) : Except CompileError String :=
  RuleCommand.compile config.rule config.resolver config.vars

/-- The listing of the dependencies of the rule, or of the error that they have. -/
def dependencyListing (config : Config) : String :=
  match Dependencies.collect config.rule config.resolver with
  | .ok deps => deps.listing
  | .error error => "error: " ++ error.message ++ "\n"

/-- The listing that a debug mode asks for. -/
def listing (config : Config) : DebugMode → String
  | .directives => (Reading.ofText config.rule.command).listing
  | .deps => config.dependencyListing

end Config

end RuleCommand
