import Mathlib.Data.Finset.Card
import Mathlib.Tactic.Lemma
import RuleCommand.Dependencies
import RuleCommand.Proofs.Outcome

set_option autoImplicit false

/-!
# Declarations of a rule

Which references of a rule can be resolved, which names they declare, and what the three ways to
ask for paths find among them, told by the labels of the rule and the resources behind them.

## Main definitions

* `RuleCommand.expansionOf` — the paths that a label stands for.
* `RuleCommand.Rule.labels` — the labels that a rule declares.
* `RuleCommand.Resolvable` — the rules whose references can be resolved.
* `RuleCommand.Rule.resolved` — the resolved references of a rule.
* `RuleCommand.Rule.declarations` — the names that a rule declares, with their paths.
* `RuleCommand.fileDeclarations` — those of them that labels of files declare.
* `RuleCommand.FirstDeclares` — the paths of a name by its first declaration.

## Main results

* `RuleCommand.Dependencies.collect_eq_ok_iff` — when the references of a rule can be resolved.
* `RuleCommand.Resolvable.declarations_resolved` — the names that resolved references declare.
* `RuleCommand.Dependencies.bareLocation_eq_ok_iff`,
  `RuleCommand.Dependencies.location_eq_ok_iff`,
  `RuleCommand.Dependencies.locations_eq_ok_iff` — when a question for paths has an answer.
* `RuleCommand.Dependencies.bareLocation_eq_error_iff`,
  `RuleCommand.Dependencies.location_eq_error_iff`,
  `RuleCommand.Dependencies.locations_eq_error_iff` — why a question for paths has no answer.
-/

namespace RuleCommand

/-! ## References -/

/-- The paths that a resource stands for. -/
def Resource.paths : Resource → List String
  | tool path => [path]
  | files paths => paths

/-- The paths that a label stands for. -/
def expansionOf (resolve : Resolver) (label : String) : List String :=
  ((resolve label).map Resource.paths).getD []

/-- The labels that a rule declares. -/
def Rule.labels (rule : Rule) : List String :=
  rule.tools ++ (rule.toolFiles ++ rule.sources)

/-- The rules whose references can be resolved. -/
structure Resolvable (rule : Rule) (resolve : Resolver) : Prop where
  /-- Each label of a tool stands for a tool. -/
  tools : ∀ label ∈ rule.tools, ∃ path, resolve label = some (.tool path)
  /-- Each label of tool files stands for something. -/
  toolFiles : ∀ label ∈ rule.toolFiles, ∃ resource, resolve label = some resource
  /-- Each label of sources stands for something. -/
  sources : ∀ label ∈ rule.sources, ∃ resource, resolve label = some resource

/-- Each label of a rule stands for something if its references can be resolved. -/
lemma Resolvable.exists_resource {rule : Rule} {resolve : Resolver} (h : Resolvable rule resolve)
    {label : String} (hlabel : label ∈ rule.labels) :
    ∃ resource, resolve label = some resource := by
  rw [Rule.labels, List.mem_append, List.mem_append] at hlabel
  rcases hlabel with htool | htoolFile | hsource
  · obtain ⟨path, hpath⟩ := h.tools label htool
    exact ⟨_, hpath⟩
  · exact h.toolFiles label htoolFile
  · exact h.sources label hsource

/-- A label with the path of the tool that it stands for. -/
def toolOf (resolve : Resolver) (label : String) : ToolReference :=
  ⟨label, (expansionOf resolve label).headD ""⟩

/-- A label with the paths that it stands for. -/
def groupOf (resolve : Resolver) (label : String) : FileReference :=
  ⟨label, expansionOf resolve label⟩

/-- The resolved references of a rule. -/
def Rule.resolved (rule : Rule) (resolve : Resolver) : Dependencies where
  tools := rule.tools.map (toolOf resolve)
  toolFileGroups := rule.toolFiles.map (groupOf resolve)
  sourceGroups := rule.sources.map (groupOf resolve)

/-- The paths of the tool files are those that their labels stand for, in order. -/
lemma Rule.toolFilePaths_resolved (rule : Rule) (resolve : Resolver) :
    (rule.resolved resolve).toolFileGroups.flatMap (·.paths) =
      rule.toolFiles.flatMap (expansionOf resolve) := by
  rw [Rule.resolved, List.flatMap_map]
  rfl

section

variable {resolve : Resolver} {label : String}

lemma expansionOf_of_tool {path : String} (h : resolve label = some (.tool path)) :
    expansionOf resolve label = [path] := by
  rw [expansionOf, h]
  rfl

lemma toolOf_of_tool {path : String} (h : resolve label = some (.tool path)) :
    toolOf resolve label = ⟨label, path⟩ := by
  rw [toolOf, expansionOf_of_tool h]
  rfl

end

namespace Dependencies

variable {resolve : Resolver} {label : String}

/-- A label is resolved as a tool exactly if it stands for one. -/
lemma resolveTool_eq_ok_iff {tool : ToolReference} :
    resolveTool resolve label = .ok tool ↔
      (∃ path, resolve label = some (.tool path)) ∧ tool = toolOf resolve label := by
  rw [resolveTool, toolOf, expansionOf]
  cases resolve label with
  | none => simp
  | some resource => cases resource <;> simp [Resource.paths, eq_comm]

/-- A label is resolved as files exactly if it stands for something. -/
lemma resolveFiles_eq_ok_iff {group : FileReference} :
    resolveFiles resolve label = .ok group ↔
      (∃ resource, resolve label = some resource) ∧ group = groupOf resolve label := by
  rw [resolveFiles, groupOf, expansionOf]
  cases resolve label with
  | none => simp
  | some resource => cases resource <;> simp [Resource.paths, eq_comm]

/-- **The references of a rule can be resolved** exactly if each label of a tool stands for a tool
and each label of files for something. -/
theorem collect_eq_ok_iff {rule : Rule} {resolve : Resolver} {deps : Dependencies} :
    collect rule resolve = .ok deps ↔ Resolvable rule resolve ∧ deps = rule.resolved resolve := by
  have htools : ∀ labels tools, List.mapM (resolveTool resolve) labels = .ok tools ↔
      (∀ label ∈ labels, ∃ path, resolve label = some (.tool path)) ∧
        tools = labels.map (toolOf resolve) := by
    intro labels tools
    rw [mapM_eq_ok_iff fun label tool h => (resolveTool_eq_ok_iff.mp h).2]
    simp only [resolveTool_eq_ok_iff, exists_and_left, exists_eq, and_true]
  have hfiles : ∀ labels groups, List.mapM (resolveFiles resolve) labels = .ok groups ↔
      (∀ label ∈ labels, ∃ resource, resolve label = some resource) ∧
        groups = labels.map (groupOf resolve) := by
    intro labels groups
    rw [mapM_eq_ok_iff fun label group h => (resolveFiles_eq_ok_iff.mp h).2]
    simp only [resolveFiles_eq_ok_iff, exists_and_left, exists_eq, and_true]
  simp only [collect, bind_eq_ok_iff, htools, hfiles]
  constructor
  · rintro ⟨_, ⟨tools, rfl⟩, _, ⟨toolFiles, rfl⟩, _, ⟨sources, rfl⟩, h⟩
    cases h
    exact ⟨⟨tools, toolFiles, sources⟩, rfl⟩
  · rintro ⟨⟨tools, toolFiles, sources⟩, rfl⟩
    exact ⟨_, ⟨tools, rfl⟩, _, ⟨toolFiles, rfl⟩, _, ⟨sources, rfl⟩, rfl⟩

end Dependencies

/-! ## Names -/

/-- The names that a rule declares, with their paths: each tool under its label; then, for each
label of tool files and after them for each label of sources, what it stands for under the label,
and each path of it under itself. -/
def Rule.declarations (rule : Rule) (resolve : Resolver) : List (String × List String) :=
  rule.tools.map (fun label => (label, expansionOf resolve label)) ++
    (rule.toolFiles ++ rule.sources).flatMap fun label =>
      (label, expansionOf resolve label) ::
        (expansionOf resolve label).map fun path => (path, [path])

/-- The names that labels of files declare, with their paths. -/
def fileDeclarations (resolve : Resolver) (labels : List String) : List (String × List String) :=
  labels.flatMap fun label =>
    (label, expansionOf resolve label) ::
      (expansionOf resolve label).map fun path => (path, [path])

/-- A rule declares the names of its tools, and then those of its files. -/
lemma Rule.declarations_eq (rule : Rule) (resolve : Resolver) :
    rule.declarations resolve =
      rule.tools.map (fun label => (label, expansionOf resolve label)) ++
        fileDeclarations resolve (rule.toolFiles ++ rule.sources) :=
  rfl

/-- Labels of files declare themselves with what they stand for, and what they stand for as
itself. -/
lemma mem_fileDeclarations {resolve : Resolver} {labels : List String} {name : String}
    {paths : List String} :
    (name, paths) ∈ fileDeclarations resolve labels ↔
      name ∈ labels ∧ paths = expansionOf resolve name ∨
        name ∈ labels.flatMap (expansionOf resolve) ∧ paths = [name] := by
  simp only [fileDeclarations, List.mem_flatMap, List.mem_cons, List.mem_map, Prod.mk.injEq]
  constructor
  · rintro ⟨label, hlabel, ⟨rfl, rfl⟩ | ⟨path, hpath, rfl, rfl⟩⟩
    · exact .inl ⟨hlabel, rfl⟩
    · exact .inr ⟨⟨label, hlabel, hpath⟩, rfl⟩
  · rintro (⟨hlabel, rfl⟩ | ⟨⟨label, hlabel, hpath⟩, rfl⟩)
    · exact ⟨name, hlabel, .inl ⟨rfl, rfl⟩⟩
    · exact ⟨label, hlabel, .inr ⟨name, hpath, rfl, rfl⟩⟩

/-- The paths of a name by its first declaration. -/
def FirstDeclares (declarations : List (String × List String)) (name : String)
    (paths : List String) : Prop :=
  ∃ before after, declarations = before ++ (name, paths) :: after ∧
    ∀ entry ∈ before, entry.1 ≠ name

/-- The names that resolved references declare are those of the rule. -/
theorem Resolvable.declarations_resolved {rule : Rule} {resolve : Resolver}
    (h : Resolvable rule resolve) :
    (rule.resolved resolve).declarations = rule.declarations resolve := by
  have htools : (rule.tools.map (toolOf resolve)).map (fun tool => (tool.label, [tool.path])) =
      rule.tools.map fun label => (label, expansionOf resolve label) := by
    rw [List.map_map]
    refine List.map_congr_left fun label hlabel => ?_
    obtain ⟨path, hpath⟩ := h.tools label hlabel
    rw [Function.comp_apply, toolOf_of_tool hpath, expansionOf_of_tool hpath]
  rw [Dependencies.declarations, Rule.resolved, Rule.declarations, htools, ← List.map_append,
    List.flatMap_map]
  rfl

/-- The paths of a declared name are among those that the labels of the rule stand for. -/
lemma exists_label_of_mem_declarations {rule : Rule} {resolve : Resolver}
    {entry : String × List String} (hentry : entry ∈ rule.declarations resolve) {path : String}
    (hpath : path ∈ entry.2) :
    ∃ label ∈ rule.tools ++ (rule.toolFiles ++ rule.sources), path ∈ expansionOf resolve label := by
  rw [Rule.declarations, List.mem_append, List.mem_map, List.mem_flatMap] at hentry
  rcases hentry with ⟨label, hlabel, rfl⟩ | ⟨label, hlabel, hentry⟩
  · exact ⟨label, List.mem_append_left _ hlabel, hpath⟩
  · refine ⟨label, List.mem_append_right _ hlabel, ?_⟩
    rw [List.mem_cons, List.mem_map] at hentry
    rcases hentry with rfl | ⟨only, honly, rfl⟩
    · exact hpath
    · rwa [List.mem_singleton.mp hpath]

/-! ## Paths -/

lemma lookup_eq_some_iff_firstDeclares {declarations : List (String × List String)}
    {name : String} {paths : List String} :
    declarations.lookup name = some paths ↔ FirstDeclares declarations name paths := by
  rw [List.lookup_eq_some_iff, FirstDeclares]
  simp only [bne_iff_ne, @ne_comm _ name]

lemma lookup_eq_none_iff_undeclared {declarations : List (String × List String)} {name : String} :
    declarations.lookup name = none ↔ ∀ entry ∈ declarations, entry.1 ≠ name := by
  rw [List.lookup_eq_none_iff]
  simp only [bne_iff_ne, @ne_comm _ name]

/-- The distinct entries of a list are a single one exactly if that is its only entry. -/
lemma eraseDups_eq_singleton_iff {paths : List String} {path : String} :
    paths.eraseDups = [path] ↔ ∀ q, q ∈ paths ↔ q = path := by
  constructor
  · intro h q
    rw [← List.mem_eraseDups, h, List.mem_singleton]
  · intro h
    cases paths with
    | nil => simpa using h path
    | cons first others =>
      obtain rfl : first = path := (h first).mp List.mem_cons_self
      have hothers : others.filter (fun q => !q == first) = [] := by
        rw [List.filter_eq_nil_iff]
        intro q hq
        simp [(h q).mp (List.mem_cons_of_mem first hq)]
      rw [List.eraseDups_cons, hothers, List.eraseDups_nil]

/-- The distinct entries of a list do not repeat. -/
lemma nodup_eraseDups (paths : List String) : paths.eraseDups.Nodup := by
  induction hlength : paths.length using Nat.strongRecOn generalizing paths with
  | ind n ih =>
    cases paths with
    | nil => simp
    | cons path paths =>
      rw [List.eraseDups_cons, List.nodup_cons, List.mem_eraseDups]
      have hshort := List.length_filter_le (fun q => !q == path) paths
      rw [List.length_cons] at hlength
      exact ⟨by simp, ih _ (by omega) _ rfl⟩

/-- A last entry is a distinct one if it does not occur before. -/
lemma eraseDups_append_singleton (paths : List String) (path : String) :
    (paths ++ [path]).eraseDups = paths.eraseDups ++ if path ∈ paths then [] else [path] := by
  rw [List.eraseDups_append]
  by_cases hmem : path ∈ paths
  · simp [List.removeAll, hmem]
  · simp [List.removeAll, hmem, List.eraseDups_cons]

/-- There are as many distinct entries as the list has members. -/
lemma length_eraseDups (paths : List String) : paths.eraseDups.length = paths.toFinset.card := by
  rw [← List.toFinset_card_of_nodup (nodup_eraseDups paths)]
  congr 1
  ext path
  simp

namespace Dependencies

variable {deps : Dependencies} {label : String}

/-- A name has paths exactly if its first declaration gives it some. -/
lemma pathsOf_eq_ok_iff {paths : List String} :
    deps.pathsOf label = .ok paths ↔ FirstDeclares deps.declarations label paths ∧ paths ≠ [] := by
  rw [← lookup_eq_some_iff_firstDeclares, pathsOf]
  cases deps.declarations.lookup label with
  | none => simp
  | some found =>
    cases found with
    | nil => simp [eq_comm]
    | cons path others =>
      simp only [Except.ok.injEq, Option.some.injEq]
      refine ⟨?_, And.left⟩
      rintro rfl
      exact ⟨rfl, List.cons_ne_nil path others⟩

/-- A name has one path exactly if its first declaration gives it that path only. -/
theorem location_eq_ok_iff {path : String} :
    deps.location label = .ok path ↔ FirstDeclares deps.declarations label [path] := by
  rw [location, bind_eq_ok_iff]
  simp only [pathsOf_eq_ok_iff]
  constructor
  · rintro ⟨paths, ⟨hpaths, -⟩, h⟩
    split at h
    · cases h
      exact hpaths
    · simp [throw, throwThe, MonadExceptOf.throw] at h
  · intro h
    exact ⟨[path], ⟨h, by simp⟩, rfl⟩

/-- A name has paths to be listed exactly if its first declaration gives it some. -/
theorem locations_eq_ok_iff {text : String} :
    deps.locations label = .ok text ↔ ∃ paths, FirstDeclares deps.declarations label paths ∧
      paths ≠ [] ∧ text = " ".intercalate paths := by
  rw [locations]
  constructor
  · intro h
    cases hpaths : deps.pathsOf label with
    | error e => simp [hpaths, Except.map] at h
    | ok paths =>
      rw [hpaths] at h
      cases h
      obtain ⟨hfirst, hne⟩ := pathsOf_eq_ok_iff.mp hpaths
      exact ⟨paths, hfirst, hne, rfl⟩
  · rintro ⟨paths, hfirst, hne, rfl⟩
    rw [pathsOf_eq_ok_iff.mpr ⟨hfirst, hne⟩]
    rfl

/-- There is an only path exactly if there is one tool, or no tool and one distinct tool file. -/
theorem bareLocation_eq_ok_iff {path : String} :
    deps.bareLocation = .ok path ↔ (∃ label, deps.tools = [⟨label, path⟩]) ∨
      deps.tools = [] ∧ ∀ q, q ∈ deps.toolFileGroups.flatMap (·.paths) ↔ q = path := by
  rw [← eraseDups_eq_singleton_iff, bareLocation, toolFiles]
  cases htools : deps.tools with
  | nil =>
    simp only [reduceCtorEq, exists_false, true_and, false_or]
    generalize (deps.toolFileGroups.flatMap (·.paths)).eraseDups = paths
    rcases paths with _ | ⟨first, _ | ⟨second, others⟩⟩
    · simp
    · simp
    · simp
  | cons tool others =>
    cases others with
    | nil =>
      obtain ⟨label, toolPath⟩ := tool
      simp
    | cons other others => simp

/-- A name has no paths exactly if it is not declared, or its first declaration gives it none. -/
lemma pathsOf_eq_error_iff {error : CompileError} :
    deps.pathsOf label = .error error ↔
      (∀ entry ∈ deps.declarations, entry.1 ≠ label) ∧ error = .unknownLabel label ∨
        FirstDeclares deps.declarations label [] ∧ error = .emptyLabel label := by
  rw [← lookup_eq_none_iff_undeclared, ← lookup_eq_some_iff_firstDeclares, pathsOf]
  cases deps.declarations.lookup label with
  | none => simp [eq_comm]
  | some paths => cases paths <;> simp [eq_comm]

/-- A name has no location exactly if it has no paths or has several. -/
theorem location_eq_error_iff {error : CompileError} :
    deps.location label = .error error ↔ deps.pathsOf label = .error error ∨
      ∃ paths, FirstDeclares deps.declarations label paths ∧ 2 ≤ paths.length ∧
        error = .multipleFiles label paths.length := by
  rw [location]
  constructor
  · intro h
    cases hpaths : deps.pathsOf label with
    | error e =>
      rw [hpaths] at h
      cases h
      exact .inl rfl
    | ok paths =>
      obtain ⟨hfirst, hne⟩ := pathsOf_eq_ok_iff.mp hpaths
      rw [hpaths] at h
      rcases paths with _ | ⟨path, _ | ⟨other, others⟩⟩
      · exact absurd rfl hne
      · cases h
      · cases h
        exact .inr ⟨_, hfirst, by simp, rfl⟩
  · rintro (h | ⟨paths, hfirst, hlength, rfl⟩)
    · rw [h]
      rfl
    · rcases paths with _ | ⟨path, _ | ⟨other, others⟩⟩
      · simp at hlength
      · simp at hlength
      · rw [pathsOf_eq_ok_iff.mpr ⟨hfirst, by simp⟩]
        rfl

/-- A name has no paths to be listed exactly if it has no paths. -/
theorem locations_eq_error_iff {error : CompileError} :
    deps.locations label = .error error ↔ deps.pathsOf label = .error error := by
  rw [locations]
  cases deps.pathsOf label with
  | error e => simp [Except.map]
  | ok paths => simp [Except.map]

/-- There is no only path exactly if there are several tools, or no tools and either no distinct
tool file or several. -/
theorem bareLocation_eq_error_iff {error : CompileError} :
    deps.bareLocation = .error error ↔
      2 ≤ deps.tools.length ∧ error = .ambiguousTools deps.tools.length ∨
        deps.tools = [] ∧
          let paths := (deps.toolFileGroups.flatMap (·.paths)).toFinset
          paths = ∅ ∧ error = .missingTool ∨
            2 ≤ paths.card ∧ error = .ambiguousToolFiles paths.card := by
  simp only [← Finset.card_eq_zero, ← length_eraseDups]
  rw [bareLocation, toolFiles]
  rcases deps.tools with _ | ⟨tool, _ | ⟨other, others⟩⟩
  · generalize (deps.toolFileGroups.flatMap (·.paths)).eraseDups = paths
    rcases paths with _ | ⟨first, _ | ⟨second, others⟩⟩
    · simp [eq_comm]
    · simp
    · simp [eq_comm]
  · simp
  · simp [eq_comm]

end Dependencies

end RuleCommand
