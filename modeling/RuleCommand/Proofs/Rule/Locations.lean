import RuleCommand.Proofs.Rule.Collection
import RuleCommand.Proofs.Rule.Order

set_option autoImplicit false

/-!
# Locations

What the three ways to ask for paths answer, for every rule whose references can be resolved. A name
stands for the paths of its first declaration, so a tool is always found under its label. The only
path is that of the only tool; without tools it depends on the set of the paths of tool files alone.

## Main definitions

* `RuleCommand.NamesPaths` — the answers for a name.
* `RuleCommand.OnlyPath` — the answer to the question for the only path.
* `RuleCommand.firstOccurrences` — the entries of a list, each where it occurs first.

## Main results

* `RuleCommand.eraseDups_eq_firstOccurrences` — the distinct entries of a list, in order.
* `RuleCommand.locations_by_first_declaration` — what a name stands for.
* `RuleCommand.collected_files_and_only_path` — what is collected of files, and the only path.
-/

namespace RuleCommand

variable {rule : Rule} {resolve : Resolver} {deps : Dependencies}

/-! ## Names -/

/-- The answers for a name among declarations: that to the question for its one path, and that to
the question for all its paths. -/
inductive NamesPaths (declarations : List (String × List String)) (name : String) :
    Except CompileError String → Except CompileError String → Prop
  /-- A name that is not declared is unknown. -/
  | undeclared : (∀ entry ∈ declarations, entry.1 ≠ name) →
      NamesPaths declarations name (.error (.unknownLabel name)) (.error (.unknownLabel name))
  /-- A name that is first declared without paths is empty. -/
  | none : FirstDeclares declarations name [] →
      NamesPaths declarations name (.error (.emptyLabel name)) (.error (.emptyLabel name))
  /-- A name that is first declared with one path stands for it. -/
  | one {path : String} : FirstDeclares declarations name [path] →
      NamesPaths declarations name (.ok path) (.ok path)
  /-- A name that is first declared with several paths stands for all of them only. -/
  | several {paths : List String} : FirstDeclares declarations name paths → 2 ≤ paths.length →
      NamesPaths declarations name (.error (.multipleFiles name paths.length))
        (.ok (" ".intercalate paths))

/-- Every name has answers. -/
lemma exists_namesPaths (declarations : List (String × List String)) (name : String) :
    ∃ one all, NamesPaths declarations name one all := by
  cases hlookup : declarations.lookup name with
  | none => exact ⟨_, _, .undeclared (lookup_eq_none_iff_undeclared.mp hlookup)⟩
  | some paths =>
    have hfirst := lookup_eq_some_iff_firstDeclares.mp hlookup
    rcases paths with _ | ⟨path, _ | ⟨other, others⟩⟩
    · exact ⟨_, _, .none hfirst⟩
    · exact ⟨_, _, .one hfirst⟩
    · exact ⟨_, _, .several hfirst (by simp)⟩

/-- The answers for a name are those that are computed. -/
lemma NamesPaths.location_eq {name : String} {one all : Except CompileError String}
    (h : NamesPaths deps.declarations name one all) :
    deps.location name = one ∧ deps.locations name = all := by
  cases h with
  | undeclared hnone =>
    have hpaths := Dependencies.pathsOf_eq_error_iff.mpr (.inl ⟨hnone, rfl⟩)
    exact ⟨Dependencies.location_eq_error_iff.mpr (.inl hpaths),
      Dependencies.locations_eq_error_iff.mpr hpaths⟩
  | none hfirst =>
    have hpaths := Dependencies.pathsOf_eq_error_iff.mpr (.inr ⟨hfirst, rfl⟩)
    exact ⟨Dependencies.location_eq_error_iff.mpr (.inl hpaths),
      Dependencies.locations_eq_error_iff.mpr hpaths⟩
  | one hfirst =>
    exact ⟨Dependencies.location_eq_ok_iff.mpr hfirst,
      Dependencies.locations_eq_ok_iff.mpr ⟨_, hfirst, by simp, by simp⟩⟩
  | several hfirst hlength =>
    refine ⟨Dependencies.location_eq_error_iff.mpr (.inr ⟨_, hfirst, hlength, rfl⟩),
      Dependencies.locations_eq_ok_iff.mpr ⟨_, hfirst, ?_, rfl⟩⟩
    rintro rfl
    simp at hlength

/-- The computed answers are the answers for a name. -/
lemma namesPaths_iff {name : String} {one all : Except CompileError String} :
    NamesPaths deps.declarations name one all ↔
      deps.location name = one ∧ deps.locations name = all := by
  refine ⟨NamesPaths.location_eq, ?_⟩
  rintro ⟨rfl, rfl⟩
  obtain ⟨one, all, h⟩ := exists_namesPaths deps.declarations name
  obtain ⟨hone, hall⟩ := h.location_eq
  rwa [hone, hall]

/-- The label of a tool is first declared by a tool, with the path of the tool. -/
lemma Resolvable.firstDeclares_tool (h : Resolvable rule resolve) {label : String}
    (hlabel : label ∈ rule.tools) :
    ∃ path, resolve label = some (.tool path) ∧
      FirstDeclares (rule.declarations resolve) label [path] := by
  obtain ⟨path, hpath⟩ := h.tools label hlabel
  refine ⟨path, hpath, ?_⟩
  have hentry : (rule.tools.map fun label => (label, expansionOf resolve label)).lookup label =
      some [path] := by
    refine (consistent_tools resolve rule.tools).lookup_eq_some_iff.mpr ?_
    rw [← expansionOf_of_tool hpath]
    exact List.mem_map_of_mem hlabel
  rw [← lookup_eq_some_iff_firstDeclares, Rule.declarations_eq, List.lookup_append, hentry]
  rfl

/-- **A name stands for the paths of its first declaration**: tools declare their labels, then each
group of tool files, and after them each group of sources, declares its label and then each of its
paths. In particular a tool is found under its label whatever files are called. The table that is
filled name by name has the same entries.

**Proof sketch.** The answers are told by the declarations of the resolved references
(`namesPaths_iff`), which are those of the rule. A table in which a name is entered only if it is
not there has the first entry of each name (`Collection.lookup_enterAll`). -/
theorem locations_by_first_declaration (hcollect : Dependencies.collect rule resolve = .ok deps) :
    (∀ name one all, deps.location name = one ∧ deps.locations name = all ↔
      NamesPaths (rule.declarations resolve) name one all) ∧
      (∀ label ∈ rule.tools, ∃ path, resolve label = some (.tool path) ∧
        deps.location label = .ok path ∧ deps.locations label = .ok path) ∧
        ∃ found, Collection.ofRule rule resolve = .ok found ∧ ∀ name,
          found.table.lookup name = (rule.declarations resolve).lookup name := by
  obtain ⟨h, rfl⟩ := Dependencies.collect_eq_ok_iff.mp hcollect
  have hdeclarations := h.declarations_resolved
  refine ⟨fun name one all => ?_, fun label hlabel => ?_, ?_⟩
  · rw [← hdeclarations, namesPaths_iff]
  · obtain ⟨path, hpath, hfirst⟩ := h.firstDeclares_tool hlabel
    rw [← hdeclarations] at hfirst
    exact ⟨path, hpath, (NamesPaths.one hfirst).location_eq⟩
  · obtain ⟨found, hfound, -, -, -, htable⟩ := Collection.exists_ofRule_eq hcollect
    rw [hdeclarations] at htable
    exact ⟨found, hfound, htable⟩

/-- A group holds a file that is called like a tool, and one whose name is the label of a group that
is declared behind it. -/
theorem locations_by_first_declaration_of_collisions :
    let resolve : Resolver := (Catalog.ofList
      [("t", .tool "bin/t"), ("g", .files ["t", "a"]), ("a", .files []), ("e", .files [])]).resolve
    let rule : Rule := ⟨"gen", "", ["out"], ["a", "e"], ["t"], ["g"], false⟩
    let deps := rule.resolved resolve
    Dependencies.collect rule resolve = .ok deps ∧
      (deps.location "t" = .ok "bin/t" ∧ deps.locations "t" = .ok "bin/t") ∧
      (deps.location "g" = .error (.multipleFiles "g" 2) ∧ deps.locations "g" = .ok "t a") ∧
      (deps.location "a" = .ok "a" ∧ deps.locations "a" = .ok "a") ∧
      (deps.location "e" = .error (.emptyLabel "e") ∧
        deps.locations "e" = .error (.emptyLabel "e")) ∧
      (deps.location "b" = .error (.unknownLabel "b") ∧
        deps.locations "b" = .error (.unknownLabel "b")) := by
  intro resolve rule deps
  have hcollect : Dependencies.collect rule resolve = .ok deps := rfl
  obtain ⟨hnames, htools, -⟩ := locations_by_first_declaration hcollect
  obtain ⟨path, hpath, htool⟩ := htools "t" (by simp [rule])
  cases hpath
  refine ⟨hcollect, htool, (hnames _ _ _).mpr ?_, (hnames _ _ _).mpr ?_, (hnames _ _ _).mpr ?_,
    (hnames _ _ _).mpr ?_⟩
  · have hgroup : FirstDeclares (rule.declarations resolve) "g" ["t", "a"] :=
      lookup_eq_some_iff_firstDeclares.mp rfl
    exact .several hgroup (by decide)
  · exact .one (lookup_eq_some_iff_firstDeclares.mp rfl)
  · exact .none (lookup_eq_some_iff_firstDeclares.mp rfl)
  · exact .undeclared (lookup_eq_none_iff_undeclared.mp rfl)

/-! ## Distinct paths -/

/-- The entries of a list, each where it occurs first. -/
def firstOccurrences (paths : List String) : List String :=
  (paths.zipIdx.filter fun entry => paths.idxOf entry.1 = entry.2).map (·.1)

/-- A last entry counts if it does not occur before. -/
lemma firstOccurrences_append_singleton (paths : List String) (path : String) :
    firstOccurrences (paths ++ [path]) =
      firstOccurrences paths ++ if path ∈ paths then [] else [path] := by
  have hbefore : (paths.zipIdx.filter fun entry => (paths ++ [path]).idxOf entry.1 = entry.2) =
      paths.zipIdx.filter fun entry => paths.idxOf entry.1 = entry.2 := by
    refine List.filter_congr fun entry hentry => ?_
    rw [List.idxOf_append_of_mem (List.fst_mem_of_mem_zipIdx hentry)]
  rw [firstOccurrences, firstOccurrences, List.zipIdx_append, List.filter_append, hbefore,
    List.map_append]
  congr 1
  by_cases hmem : path ∈ paths
  · have hlt := List.idxOf_lt_length_iff.mpr hmem
    simp [List.idxOf_append_of_mem hmem, hmem, hlt.ne]
  · simp [List.idxOf_append_of_notMem hmem, hmem]

/-- The distinct entries of a list are its first occurrences. -/
lemma eraseDups_eq_firstOccurrences (paths : List String) :
    paths.eraseDups = firstOccurrences paths := by
  induction paths using List.reverseRecOn with
  | nil => rfl
  | append_singleton paths path ih =>
    rw [firstOccurrences_append_singleton, ← ih, eraseDups_append_singleton]

/-! ## The only path -/

/-- The answer to the question for the only path, by the paths of the tools in order and the set of
the paths of tool files. -/
inductive OnlyPath (tools : List String) (files : Finset String) :
    Except CompileError String → Prop
  /-- The only tool is meant, whatever the tool files. -/
  | tool {path : String} : tools = [path] → OnlyPath tools files (.ok path)
  /-- Of several tools none is meant, even if they are the same. -/
  | severalTools : 2 ≤ tools.length →
      OnlyPath tools files (.error (.ambiguousTools tools.length))
  /-- Without tools the only tool file is meant. -/
  | toolFile {path : String} : tools = [] → files = {path} → OnlyPath tools files (.ok path)
  /-- Without tools and tool files nothing is meant. -/
  | noToolFile : tools = [] → files = ∅ → OnlyPath tools files (.error .missingTool)
  /-- Of several tool files none is meant. -/
  | severalToolFiles : tools = [] → 2 ≤ files.card →
      OnlyPath tools files (.error (.ambiguousToolFiles files.card))

/-- There is always an answer to the question for the only path. -/
lemma exists_onlyPath (tools : List String) (files : Finset String) :
    ∃ answer, OnlyPath tools files answer := by
  rcases tools with _ | ⟨path, _ | ⟨other, others⟩⟩
  · rcases lt_trichotomy files.card 1 with hnone | hone | hseveral
    · exact ⟨_, .noToolFile rfl (Finset.card_eq_zero.mp (Nat.lt_one_iff.mp hnone))⟩
    · obtain ⟨path, hfiles⟩ := Finset.card_eq_one.mp hone
      exact ⟨_, .toolFile rfl hfiles⟩
    · exact ⟨_, .severalToolFiles rfl hseveral⟩
  · exact ⟨_, .tool rfl⟩
  · exact ⟨_, .severalTools (by simp)⟩

/-- The answer to the question for the only path is the one that is computed. -/
lemma OnlyPath.bareLocation_eq {answer : Except CompileError String}
    (h : OnlyPath (deps.tools.map (·.path)) (deps.toolFileGroups.flatMap (·.paths)).toFinset
      answer) : deps.bareLocation = answer := by
  cases h with
  | tool h =>
    obtain ⟨⟨label, _⟩, htools, rfl⟩ := List.map_eq_singleton_iff.mp h
    exact Dependencies.bareLocation_eq_ok_iff.mpr (.inl ⟨label, htools⟩)
  | severalTools h =>
    rw [List.length_map] at h ⊢
    exact Dependencies.bareLocation_eq_error_iff.mpr (.inl ⟨h, rfl⟩)
  | toolFile hnone h =>
    refine Dependencies.bareLocation_eq_ok_iff.mpr
      (.inr ⟨List.map_eq_nil_iff.mp hnone, fun path => ?_⟩)
    rw [← List.mem_toFinset, h, Finset.mem_singleton]
  | noToolFile hnone h =>
    exact Dependencies.bareLocation_eq_error_iff.mpr
      (.inr ⟨List.map_eq_nil_iff.mp hnone, .inl ⟨h, rfl⟩⟩)
  | severalToolFiles hnone h =>
    exact Dependencies.bareLocation_eq_error_iff.mpr
      (.inr ⟨List.map_eq_nil_iff.mp hnone, .inr ⟨h, rfl⟩⟩)

/-- The computed answer is the answer to the question for the only path. -/
lemma onlyPath_iff {answer : Except CompileError String} :
    OnlyPath (deps.tools.map (·.path)) (deps.toolFileGroups.flatMap (·.paths)).toFinset answer ↔
      deps.bareLocation = answer := by
  refine ⟨OnlyPath.bareLocation_eq, ?_⟩
  rintro rfl
  obtain ⟨answer, h⟩ := exists_onlyPath (deps.tools.map (·.path))
    (deps.toolFileGroups.flatMap (·.paths)).toFinset
  rwa [h.bareLocation_eq]

/-- The labels of tools stand for the paths of the resolved tools. -/
lemma Resolvable.map_tools (h : Resolvable rule resolve) :
    rule.tools.map resolve =
      ((rule.resolved resolve).tools.map (·.path)).map fun path => some (.tool path) := by
  rw [Rule.resolved, List.map_map, List.map_map]
  refine List.map_congr_left fun label hlabel => ?_
  obtain ⟨path, hpath⟩ := h.tools label hlabel
  rw [Function.comp_apply, Function.comp_apply, toolOf_of_tool hpath, hpath]

/-- **What is collected of files, and the only path.** The paths of sources are kept with
repetitions, those of tool files where they occur first. The only path is that of the only tool, or
without tools that of the only tool file, however often and in however many groups it is declared;
so without tools it is the same for all tool files with the same set of paths. Taking in the
references one after the other gives the same tools and files.

**Proof sketch.** The answer is told by the resolved tools and the set of the paths of the resolved
tool files (`onlyPath_iff`). Distinct entries are first occurrences by induction on the list from
its end (`eraseDups_eq_firstOccurrences`), and so are paths that are added only if they are not
there (`Collection.foldl_addPath`). -/
theorem collected_files_and_only_path (hcollect : Dependencies.collect rule resolve = .ok deps) :
    deps.sources = rule.sources.flatMap (expansionOf resolve) ∧
      deps.toolFiles.Nodup ∧
      deps.toolFiles = firstOccurrences (rule.toolFiles.flatMap (expansionOf resolve)) ∧
      (∃ toolPaths, rule.tools.map resolve = toolPaths.map (fun path => some (.tool path)) ∧
        ∀ answer, deps.bareLocation = answer ↔
          OnlyPath toolPaths (rule.toolFiles.flatMap (expansionOf resolve)).toFinset answer) ∧
      (∀ (other : Rule) (resolver : Resolver) (others : Dependencies),
        rule.tools = [] → other.tools = [] →
          Dependencies.collect other resolver = .ok others →
            (other.toolFiles.flatMap (expansionOf resolver)).toFinset =
              (rule.toolFiles.flatMap (expansionOf resolve)).toFinset →
                others.bareLocation = deps.bareLocation) ∧
      ∃ found, Collection.ofRule rule resolve = .ok found ∧ found.tools = deps.tools ∧
        found.toolFiles = deps.toolFiles ∧ found.sources = deps.sources := by
  obtain ⟨h, rfl⟩ := Dependencies.collect_eq_ok_iff.mp hcollect
  have hfiles := rule.toolFilePaths_resolved resolve
  refine ⟨?_, nodup_eraseDups _, ?_, ⟨_, h.map_tools, fun answer => ?_⟩, ?_, ?_⟩
  · rw [Dependencies.sources, Rule.resolved, List.flatMap_map]
    rfl
  · rw [Dependencies.toolFiles, hfiles, eraseDups_eq_firstOccurrences]
  · rw [← onlyPath_iff, hfiles]
  · intro other resolver others hrule hother hcollect hset
    obtain ⟨-, rfl⟩ := Dependencies.collect_eq_ok_iff.mp hcollect
    have hnone : (rule.resolved resolve).tools = [] := List.map_eq_nil_iff.mpr hrule
    have hnone' : (other.resolved resolver).tools = [] := List.map_eq_nil_iff.mpr hother
    rw [← onlyPath_iff, other.toolFilePaths_resolved, hset, hnone', ← hnone, ← hfiles]
    exact onlyPath_iff.mpr rfl
  · obtain ⟨found, hfound, htools, htoolFiles, hsources, -⟩ := Collection.exists_ofRule_eq hcollect
    exact ⟨found, hfound, htools, htoolFiles, hsources⟩

/-- A path comes from two groups and from a tool that is used as a file, and the same paths come
from one group in another order. -/
theorem collected_files_and_only_path_of_groups :
    let resolve : Resolver := (Catalog.ofList
      [("g", .files ["a", "b"]), ("h", .files ["b"]), ("t", .tool "a"),
        ("k", .files ["b", "a"])]).resolve
    let rule : Rule := ⟨"gen", "", ["out"], ["h", "g"], [], ["g", "h", "t"], false⟩
    let other : Rule := ⟨"gen", "", ["out"], [], [], ["k"], false⟩
    let deps := rule.resolved resolve
    let others := other.resolved resolve
    Dependencies.collect rule resolve = .ok deps ∧ Dependencies.collect other resolve = .ok others ∧
      deps.sources = ["b", "a", "b"] ∧ deps.toolFiles = ["a", "b"] ∧
      deps.bareLocation = .error (.ambiguousToolFiles 2) ∧
      others.bareLocation = deps.bareLocation := by
  intro resolve rule other deps others
  have hcollect : Dependencies.collect rule resolve = .ok deps := rfl
  have hother : Dependencies.collect other resolve = .ok others := rfl
  obtain ⟨hsources, -, hfiles, ⟨toolPaths, htools, honly⟩, hsame, -⟩ :=
    collected_files_and_only_path hcollect
  have hnone : toolPaths = [] := List.map_eq_nil_iff.mp htools.symm
  exact ⟨hcollect, hother, hsources, hfiles,
    (honly _).mpr (.severalToolFiles hnone (by decide)),
    hsame other resolve others rfl rfl hother (by decide)⟩

end RuleCommand
