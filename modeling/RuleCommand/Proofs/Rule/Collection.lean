import Mathlib.Data.List.Induction
import RuleCommand.Collection
import RuleCommand.Proofs.Rule.Declarations

set_option autoImplicit false

/-!
# What is collected

Taking in the references of a rule one after the other comes to the same as resolving all of them
and looking at the declarations afterwards: the table has for each name what its first declaration
gives it, and the paths of the tool files are the distinct ones.

## Main results

* `RuleCommand.Collection.lookup_enterAll` — of the entries for a name the first counts.
* `RuleCommand.Collection.foldl_addPath` — adding paths that are not there keeps first occurrences.
* `RuleCommand.Collection.ofRule_eq` — a rule is collected exactly if its references are resolved.
* `RuleCommand.Collection.exists_ofRule_eq` — what is collected, and what the table has.
-/

namespace RuleCommand

namespace Collection

variable {table entries : List (String × List String)} {found : Collection}

/-! ## Entries -/

/-- A table with entries made one after the other. -/
def enterAll (table entries : List (String × List String)) : List (String × List String) :=
  entries.foldl (fun table entry => enter table entry.1 entry.2) table

@[simp] lemma enterAll_nil : enterAll table [] = table := rfl

@[simp] lemma enterAll_cons {entry : String × List String} :
    enterAll table (entry :: entries) = enterAll (enter table entry.1 entry.2) entries := rfl

lemma enterAll_append {others : List (String × List String)} :
    enterAll table (entries ++ others) = enterAll (enterAll table entries) others :=
  List.foldl_append

/-- An entry counts only if the table did not have the name. -/
lemma lookup_enter {entered name : String} {paths : List String} :
    (enter table entered paths).lookup name =
      (table.lookup name).or (if name = entered then some paths else none) := by
  rw [enter]
  by_cases hname : name = entered
  · subst hname
    rw [if_pos rfl]
    cases hlookup : table.lookup name with
    | none => simp [List.lookup_append, hlookup]
    | some others => simp [hlookup]
  · rw [if_neg hname, Option.or_none]
    cases table.lookup entered with
    | none => simp [List.lookup_append, lookup_cons_eq_ite, hname]
    | some others => rfl

/-- Entries are looked up behind those that the table had, the first of each name. -/
lemma lookup_enterAll {name : String} :
    (enterAll table entries).lookup name = (table.lookup name).or (entries.lookup name) := by
  induction entries generalizing table with
  | nil => simp
  | cons entry entries ih =>
    rw [enterAll_cons, ih, lookup_enter, Option.or_assoc, lookup_cons_eq_ite]
    by_cases hname : name = entry.1 <;> simp [hname]

/-- A group is entered by its declarations. -/
lemma enterGroup_eq (group : FileReference) :
    enterGroup table group = enterAll table group.declarations := by
  rw [enterGroup, FileReference.declarations, enterAll_cons, enterAll, List.foldl_map]

/-! ## Paths -/

/-- Adding paths that are not there yet keeps each at its first occurrence. -/
lemma foldl_addPath (paths : List String) : paths.foldl addPath [] = paths.eraseDups := by
  induction paths using List.reverseRecOn with
  | nil => simp
  | append_singleton paths path ih =>
    rw [List.foldl_append, ih, eraseDups_append_singleton, List.foldl_cons, List.foldl_nil, addPath]
    by_cases hmem : path ∈ paths
    · rw [if_pos (List.mem_eraseDups.mpr hmem), if_pos hmem, List.append_nil]
    · rw [if_neg (mt List.mem_eraseDups.mp hmem), if_neg hmem]

/-! ## References -/

/-- Resolved references are collected one after the other. -/
def ofDependencies (deps : Dependencies) : Collection :=
  deps.sourceGroups.foldl addSources
    (deps.toolFileGroups.foldl addToolFiles (deps.tools.foldl addTool {}))

/-- Resolving each reference when it is its turn comes to the same as resolving all of them
first. -/
lemma addAll_eq {α : Type} (resolve : String → Except CompileError α)
    (add : Collection → α → Collection) (labels : List String) (found : Collection) :
    addAll resolve add labels found = do
      let references ← labels.mapM resolve
      return references.foldl add found := by
  induction labels generalizing found with
  | nil => rfl
  | cons label labels ih =>
    rw [addAll, List.foldlM_cons, List.mapM_cons]
    cases resolve label with
    | error error => rfl
    | ok reference =>
      have hrest := ih (add found reference)
      rw [addAll] at hrest
      change List.foldlM _ (add found reference) labels = _
      rw [hrest]
      cases labels.mapM resolve <;> rfl

/-- **A rule is collected exactly if its references are resolved**, and fails to be with the same
error. -/
theorem ofRule_eq (rule : Rule) (resolve : Resolver) :
    ofRule rule resolve = do
      let deps ← Dependencies.collect rule resolve
      return ofDependencies deps := by
  rw [ofRule, Dependencies.collect]
  simp only [addAll_eq]
  cases rule.tools.mapM (Dependencies.resolveTool resolve) with
  | error error => rfl
  | ok tools =>
    cases rule.toolFiles.mapM (Dependencies.resolveFiles resolve) with
    | error error => rfl
    | ok toolFiles =>
      cases rule.sources.mapM (Dependencies.resolveFiles resolve) <;> rfl

/-! ## What is there in the end -/

lemma foldl_addTool (tools : List ToolReference) (found : Collection) :
    tools.foldl addTool found =
      { found with
        tools := found.tools ++ tools
        table := enterAll found.table (tools.map fun tool => (tool.label, [tool.path])) } := by
  induction tools generalizing found with
  | nil => simp
  | cons tool tools ih => simp [ih, addTool]

lemma foldl_addToolFiles (groups : List FileReference) (found : Collection) :
    groups.foldl addToolFiles found =
      { found with
        toolFiles := (groups.flatMap (·.paths)).foldl addPath found.toolFiles
        table := enterAll found.table (groups.flatMap FileReference.declarations) } := by
  induction groups generalizing found with
  | nil => simp
  | cons group groups ih => simp [ih, addToolFiles, enterGroup_eq, enterAll_append]

lemma foldl_addSources (groups : List FileReference) (found : Collection) :
    groups.foldl addSources found =
      { found with
        sources := found.sources ++ groups.flatMap (·.paths)
        table := enterAll found.table (groups.flatMap FileReference.declarations) } := by
  induction groups generalizing found with
  | nil => simp
  | cons group groups ih => simp [ih, addSources, enterGroup_eq, enterAll_append]

/-- **What is collected of resolved references**: the tools, the distinct paths of the tool files,
the paths of the sources, and the declarations entered one after the other. -/
theorem ofDependencies_eq (deps : Dependencies) :
    ofDependencies deps =
      { tools := deps.tools
        toolFiles := deps.toolFiles
        sources := deps.sources
        table := enterAll [] deps.declarations } := by
  simp [ofDependencies, foldl_addTool, foldl_addToolFiles, foldl_addSources, foldl_addPath,
    Dependencies.toolFiles, Dependencies.sources, Dependencies.declarations, enterAll_append]

/-- If the references of a rule can be resolved, it is collected, and the table has for each name
what its first declaration gives it. -/
theorem exists_ofRule_eq {rule : Rule} {resolve : Resolver} {deps : Dependencies}
    (h : Dependencies.collect rule resolve = .ok deps) :
    ∃ found, ofRule rule resolve = .ok found ∧ found.tools = deps.tools ∧
      found.toolFiles = deps.toolFiles ∧ found.sources = deps.sources ∧
        ∀ name, found.table.lookup name = deps.declarations.lookup name := by
  refine ⟨ofDependencies deps, by rw [ofRule_eq, h]; rfl, ?_⟩
  rw [ofDependencies_eq]
  refine ⟨rfl, rfl, rfl, fun name => ?_⟩
  rw [lookup_enterAll, List.lookup_nil, Option.none_or]

end Collection

end RuleCommand
