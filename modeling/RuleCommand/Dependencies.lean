import RuleCommand.Rule
import RuleCommand.CompileError

set_option autoImplicit false

/-!
# Dependencies of a rule

The labels of a rule are resolved once, before its command is read. A location in the command is
then looked up among the declarations, in this order: each tool under its label; then, for each
reference to tool files and after them for each reference to sources, the group under its label
and each of its paths under itself. The first declaration of a name counts.

## Main definitions

* `RuleCommand.Dependencies` — the resolved references of a rule.
* `RuleCommand.Dependencies.collect` — the resolution of the references of a rule.
* `RuleCommand.Dependencies.declarations` — the names that a location may use, with their paths.
* `RuleCommand.Dependencies.bareLocation`, `RuleCommand.Dependencies.location`,
  `RuleCommand.Dependencies.locations` — the three ways to ask for paths.
-/

namespace RuleCommand

/-- A tool with its label. -/
structure ToolReference where
  /-- The label it is declared by. -/
  label : String
  /-- Its path. -/
  path : String
deriving DecidableEq, Repr

/-- A group of files with its label. -/
structure FileReference where
  /-- The label it is declared by. -/
  label : String
  /-- Its paths, in order. -/
  paths : List String
deriving DecidableEq, Repr

/-- The names that a group of files declares: its label, and each of its paths. -/
def FileReference.declarations (group : FileReference) : List (String × List String) :=
  (group.label, group.paths) :: group.paths.map fun path => (path, [path])

/-- The resolved references of a rule, each kind in the order of its declarations. -/
structure Dependencies where
  /-- The tools. -/
  tools : List ToolReference
  /-- The groups of tool files. -/
  toolFileGroups : List FileReference
  /-- The groups of sources. -/
  sourceGroups : List FileReference
deriving DecidableEq, Repr

namespace Dependencies

/-! ## Resolving -/

/-- A label resolved as a tool. -/
def resolveTool (resolve : Resolver) (label : String) : Except CompileError ToolReference :=
  match resolve label with
  | some (.tool path) => .ok ⟨label, path⟩
  | some (.files _) => .error (.notATool label)
  | none => .error (.unresolvedDependency label)

/-- A label resolved as files. A tool that is used as a file is the file it runs. -/
def resolveFiles (resolve : Resolver) (label : String) : Except CompileError FileReference :=
  match resolve label with
  | some (.tool path) => .ok ⟨label, [path]⟩
  | some (.files paths) => .ok ⟨label, paths⟩
  | none => .error (.unresolvedDependency label)

/-- The resolved references of a rule, or the error of the first that cannot be resolved: tools
come first, then tool files, then sources. -/
def collect (rule : Rule) (resolve : Resolver) : Except CompileError Dependencies := do
  let tools ← rule.tools.mapM (resolveTool resolve)
  let toolFileGroups ← rule.toolFiles.mapM (resolveFiles resolve)
  let sourceGroups ← rule.sources.mapM (resolveFiles resolve)
  return { tools, toolFileGroups, sourceGroups }

/-! ## Looking up -/

/-- The distinct paths of the tool files, each where it occurs first. -/
def toolFiles (deps : Dependencies) : List String :=
  (deps.toolFileGroups.flatMap (·.paths)).eraseDups

/-- The paths of the sources, repetitions included. -/
def sources (deps : Dependencies) : List String :=
  deps.sourceGroups.flatMap (·.paths)

/-- The names that a location may use, with their paths. The first entry for a name counts. -/
def declarations (deps : Dependencies) : List (String × List String) :=
  deps.tools.map (fun tool => (tool.label, [tool.path])) ++
    (deps.toolFileGroups ++ deps.sourceGroups).flatMap FileReference.declarations

/-- The paths of a name, of which there has to be at least one. -/
def pathsOf (deps : Dependencies) (label : String) : Except CompileError (List String) :=
  match deps.declarations.lookup label with
  | none => .error (.unknownLabel label)
  | some [] => .error (.emptyLabel label)
  | some paths => .ok paths

/-- The path of the only tool or, if there is no tool, of the only tool file. -/
def bareLocation (deps : Dependencies) : Except CompileError String :=
  match deps.tools with
  | [tool] => .ok tool.path
  | [] =>
    match deps.toolFiles with
    | [path] => .ok path
    | [] => .error .missingTool
    | paths => .error (.ambiguousToolFiles paths.length)
  | tools => .error (.ambiguousTools tools.length)

/-- The path of a name that has exactly one. -/
def location (deps : Dependencies) (label : String) : Except CompileError String := do
  match ← deps.pathsOf label with
  | [path] => return path
  | paths => throw (.multipleFiles label paths.length)

/-- All paths of a name, separated by spaces. -/
def locations (deps : Dependencies) (label : String) : Except CompileError String :=
  (deps.pathsOf label).map (" ".intercalate ·)

/-! ## Listing -/

/-- The dependencies as a listing: a line for each tool, each tool file and each source. -/
def listing (deps : Dependencies) : String :=
  String.join
    (deps.tools.map (fun tool => "tool " ++ tool.label ++ " -> " ++ tool.path ++ "\n") ++
      deps.toolFiles.map (fun path => "tool_file " ++ path ++ "\n") ++
      deps.sources.map (fun path => "src " ++ path ++ "\n"))

end Dependencies

end RuleCommand
