import RuleCommand.Dependencies

set_option autoImplicit false

/-!
# Collecting dependencies

The references of a rule are taken in one after the other, each resolved when it is its turn. What
was taken in so far is a collection. It keeps a table of the names that a location may use, in which
a name is entered only if the table does not have it yet, and the paths of the tool files, to which
a path is added only if it is not there yet.

## Main definitions

* `RuleCommand.Collection` — what was taken in of the dependencies of a rule.
* `RuleCommand.Collection.enter`, `RuleCommand.Collection.enterGroup` — entries in the table.
* `RuleCommand.Collection.addTool`, `RuleCommand.Collection.addToolFiles`,
  `RuleCommand.Collection.addSources` — a collection with one more reference.
* `RuleCommand.Collection.ofRule` — the collection of all references of a rule.
-/

namespace RuleCommand

/-- What was taken in of the dependencies of a rule. -/
structure Collection where
  /-- The tools. -/
  tools : List ToolReference := []
  /-- The paths of the tool files, each once. -/
  toolFiles : List String := []
  /-- The paths of the sources. -/
  sources : List String := []
  /-- The names that a location may use, with their paths. -/
  table : List (String × List String) := []
deriving DecidableEq, Repr

namespace Collection

/-! ## Entries -/

/-- A table with a name entered in it, unless it has the name. -/
def enter (table : List (String × List String)) (name : String) (paths : List String) :
    List (String × List String) :=
  match table.lookup name with
  | some _ => table
  | none => table ++ [(name, paths)]

/-- A table with a group entered in it under its label, and each of its paths under itself. -/
def enterGroup (table : List (String × List String)) (group : FileReference) :
    List (String × List String) :=
  group.paths.foldl (fun table path => enter table path [path])
    (enter table group.label group.paths)

/-- Paths with one more, unless it is among them. -/
def addPath (paths : List String) (path : String) : List String :=
  if path ∈ paths then paths else paths ++ [path]

/-! ## References -/

/-- A collection with one more tool. -/
def addTool (found : Collection) (tool : ToolReference) : Collection :=
  { found with
    table := enter found.table tool.label [tool.path]
    tools := found.tools ++ [tool] }

/-- A collection with one more group of tool files. -/
def addToolFiles (found : Collection) (group : FileReference) : Collection :=
  { found with
    table := enterGroup found.table group
    toolFiles := group.paths.foldl addPath found.toolFiles }

/-- A collection with one more group of sources. -/
def addSources (found : Collection) (group : FileReference) : Collection :=
  { found with
    table := enterGroup found.table group
    sources := found.sources ++ group.paths }

/-- A collection with the references of several labels. The first that cannot be resolved ends the
collecting. -/
def addAll {α : Type} (resolve : String → Except CompileError α)
    (add : Collection → α → Collection) (labels : List String) (found : Collection) :
    Except CompileError Collection :=
  labels.foldlM (fun found label => return add found (← resolve label)) found

/-- The collection of all references of a rule: tools first, then tool files, then sources. -/
def ofRule (rule : Rule) (resolve : Resolver) : Except CompileError Collection := do
  let found ← addAll (Dependencies.resolveTool resolve) addTool rule.tools {}
  let found ← addAll (Dependencies.resolveFiles resolve) addToolFiles rule.toolFiles found
  addAll (Dependencies.resolveFiles resolve) addSources rule.sources found

end Collection

end RuleCommand
