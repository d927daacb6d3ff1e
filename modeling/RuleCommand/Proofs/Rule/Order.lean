import RuleCommand.Proofs.Rule.Dependence

set_option autoImplicit false

/-!
# The order of declarations

A name means what its first declaration gives it, so it can matter in which order a rule lists what
it needs. Tools come before files in any case, and two tools of one label are one tool. What is left
are labels of files: each declares itself and every path that it stands for. As long as no such path
is a label that stands for something else, all declarations of a name agree, and the order does not
matter.

## Main definitions

* `RuleCommand.Consistent` — declarations that agree on each name.
* `RuleCommand.CollisionFree` — labels of files that declare nothing in two ways.

## Main results

* `RuleCommand.Consistent.lookup_eq` — in consistent declarations the order does not matter.
* `RuleCommand.Dependencies.bareLocation_congr` — the only path depends on the number of tools and
  the set of the paths of tool files.
* `RuleCommand.compile_eq_of_perm` — the order of declarations does not matter without collisions.
-/

namespace RuleCommand

variable {rule : Rule} {resolve : Resolver} {vars : Variables}

/-! ## Consistent declarations -/

/-- Declarations that give each name one list of paths only. -/
def Consistent (declarations : List (String × List String)) : Prop :=
  ∀ name paths others, (name, paths) ∈ declarations → (name, others) ∈ declarations →
    paths = others

namespace Consistent

variable {declarations : List (String × List String)} {name : String}

/-- In consistent declarations it does not matter where a name is declared. -/
lemma lookup_eq_some_iff (h : Consistent declarations) {paths : List String} :
    declarations.lookup name = some paths ↔ (name, paths) ∈ declarations := by
  rw [lookup_eq_some_iff_firstDeclares]
  constructor
  · rintro ⟨before, after, rfl, -⟩
    simp
  · intro hmem
    cases hlookup : declarations.lookup name with
    | none => exact absurd rfl (lookup_eq_none_iff_undeclared.mp hlookup _ hmem)
    | some others =>
      have hfirst := lookup_eq_some_iff_firstDeclares.mp hlookup
      obtain ⟨before, after, hsplit, -⟩ := id hfirst
      have hothers : (name, others) ∈ declarations := by simp [hsplit]
      rwa [h name paths others hmem hothers]

/-- Consistent declarations with the same entries give a name the same paths. -/
lemma lookup_eq (h : Consistent declarations) {others : List (String × List String)}
    (hentries : ∀ entry, entry ∈ declarations ↔ entry ∈ others) :
    declarations.lookup name = others.lookup name := by
  have hothers : Consistent others := fun name paths more hpaths hmore =>
    h name paths more ((hentries _).mpr hpaths) ((hentries _).mpr hmore)
  refine Option.ext fun paths => ?_
  rw [h.lookup_eq_some_iff, hothers.lookup_eq_some_iff, hentries]

end Consistent

/-! ## Labels and paths -/

/-- Labels of files of which none is a path that a label stands for, unless it stands for itself
only. -/
def CollisionFree (resolve : Resolver) (labels : List String) : Prop :=
  ∀ label ∈ labels, ∀ path ∈ expansionOf resolve label, path ∈ labels →
    expansionOf resolve path = [path]

/-- Labels without collisions declare each name with one list of paths only. -/
lemma CollisionFree.consistent {labels : List String} (h : CollisionFree resolve labels) :
    Consistent (fileDeclarations resolve labels) := by
  have hboth : ∀ name ∈ labels, name ∈ labels.flatMap (expansionOf resolve) →
      expansionOf resolve name = [name] := by
    intro name hname hpath
    obtain ⟨label, hlabel, hmem⟩ := List.mem_flatMap.mp hpath
    exact h label hlabel name hmem hname
  intro name paths others hpaths hothers
  rw [mem_fileDeclarations] at hpaths hothers
  rcases hpaths with ⟨hname, rfl⟩ | ⟨hname, rfl⟩
  · rcases hothers with ⟨-, rfl⟩ | ⟨hpath, rfl⟩
    · rfl
    · exact hboth name hname hpath
  · rcases hothers with ⟨hlabel, rfl⟩ | ⟨-, rfl⟩
    · exact (hboth name hlabel hname).symm
    · rfl

/-- Tools declare each label with one path only. -/
lemma consistent_tools (resolve : Resolver) (labels : List String) :
    Consistent (labels.map fun label => (label, expansionOf resolve label)) := by
  intro name paths others hpaths hothers
  simp only [List.mem_map, Prod.mk.injEq] at hpaths hothers
  obtain ⟨_, -, rfl, rfl⟩ := hpaths
  obtain ⟨_, -, rfl, rfl⟩ := hothers
  rfl

/-- A name is looked up among the tools first, and among the files only if no tool has it, so the
order of each kind is all that could matter. -/
lemma lookup_declarations_eq_of_perm {other : Rule}
    (hfree : CollisionFree resolve (rule.toolFiles ++ rule.sources))
    (htools : other.tools.Perm rule.tools)
    (hfiles : (other.toolFiles ++ other.sources).Perm (rule.toolFiles ++ rule.sources))
    (name : String) :
    (other.declarations resolve).lookup name = (rule.declarations resolve).lookup name := by
  have htoolEntries : ∀ entry,
      entry ∈ rule.tools.map (fun label => (label, expansionOf resolve label)) ↔
        entry ∈ other.tools.map fun label => (label, expansionOf resolve label) :=
    fun entry => (htools.map _).symm.mem_iff
  have hfileEntries : ∀ entry,
      entry ∈ fileDeclarations resolve (rule.toolFiles ++ rule.sources) ↔
        entry ∈ fileDeclarations resolve (other.toolFiles ++ other.sources) :=
    fun entry => (hfiles.flatMap_right _).symm.mem_iff
  rw [Rule.declarations_eq, Rule.declarations_eq, List.lookup_append, List.lookup_append,
    (consistent_tools resolve rule.tools).lookup_eq htoolEntries,
    hfree.consistent.lookup_eq hfileEntries]

/-! ## Paths -/

namespace Dependencies

variable {deps other : Dependencies}

/-- The only path is the same for tools in another order and tool files with the same paths. -/
lemma bareLocation_congr (htools : deps.tools.Perm other.tools)
    (hfiles : ∀ path, path ∈ deps.toolFileGroups.flatMap (·.paths) ↔
      path ∈ other.toolFileGroups.flatMap (·.paths)) :
    deps.bareLocation = other.bareLocation := by
  have hone : ∀ tool, deps.tools = [tool] ↔ other.tools = [tool] := by
    intro tool
    rw [← List.perm_singleton, ← List.perm_singleton]
    exact ⟨htools.symm.trans, htools.trans⟩
  have hnone : deps.tools = [] ↔ other.tools = [] := by
    rw [← List.perm_nil, ← List.perm_nil]
    exact ⟨htools.symm.trans, htools.trans⟩
  have hpaths : (deps.toolFileGroups.flatMap (·.paths)).toFinset =
      (other.toolFileGroups.flatMap (·.paths)).toFinset := by
    ext path
    rw [List.mem_toFinset, List.mem_toFinset, hfiles]
  cases hdeps : deps.bareLocation with
  | ok path =>
    rw [bareLocation_eq_ok_iff] at hdeps
    simp only [hone, hnone, hfiles] at hdeps
    exact (bareLocation_eq_ok_iff.mpr hdeps).symm
  | error e =>
    rw [bareLocation_eq_error_iff, htools.length_eq, hnone, hpaths] at hdeps
    exact (bareLocation_eq_error_iff.mpr hdeps).symm

/-- A name has the same paths if it is looked up the same. -/
lemma pathsOf_congr {name : String}
    (h : deps.declarations.lookup name = other.declarations.lookup name) :
    deps.pathsOf name = other.pathsOf name := by
  rw [pathsOf, pathsOf, h]

end Dependencies

/-- A directive has the same value, or the same error, if the three ways to ask for paths have the
same answers. -/
lemma value_congr {deps other : Dependencies} (hbare : deps.bareLocation = other.bareLocation)
    (hpaths : ∀ name, deps.pathsOf name = other.pathsOf name) (d : Directive) :
    d.value deps vars = d.value other vars := by
  obtain ⟨kind, argument⟩ := d
  cases kind with
  | bareLocation => exact hbare
  | location => simp only [Directive.value, Dependencies.location, hpaths]
  | locations => simp only [Directive.value, Dependencies.locations, hpaths]
  | inputs | outputs | depfile | outputDir | var => rfl

/-! ## Commands -/

/-- **The order of declarations does not matter** unless a path that a label of files stands for is
itself a label of files and stands for something else: however the tools, the tool files and the
sources of a rule are put in order, its command is the same, or its error.

**Proof sketch.** The references of the rule can be resolved in any order. A name is looked up among
the tools before it is looked up among the files, and each kind gives a name the same paths wherever
it declares it (`lookup_declarations_eq_of_perm`). The only path depends on the number of the tools
and on the set of the paths of tool files (`Dependencies.bareLocation_congr`). -/
theorem compile_eq_of_perm {deps : Dependencies}
    (hcollect : Dependencies.collect rule resolve = .ok deps)
    (hfree : CollisionFree resolve (rule.toolFiles ++ rule.sources))
    {tools toolFiles sources : List String} (htools : tools.Perm rule.tools)
    (htoolFiles : toolFiles.Perm rule.toolFiles) (hsources : sources.Perm rule.sources)
    (vars : Variables) :
    compile { rule with tools, toolFiles, sources } resolve vars = compile rule resolve vars := by
  obtain ⟨h, -⟩ := Dependencies.collect_eq_ok_iff.mp hcollect
  have hother : Resolvable { rule with tools, toolFiles, sources } resolve :=
    ⟨fun label hlabel => h.tools label (htools.mem_iff.mp hlabel),
      fun label hlabel => h.toolFiles label (htoolFiles.mem_iff.mp hlabel),
      fun label hlabel => h.sources label (hsources.mem_iff.mp hlabel)⟩
  refine compile_congr Iff.rfl rfl ?_
  rw [hother.expansion_eq, h.expansion_eq]
  refine expand_congr fun d _ => value_congr ?_ (fun name => ?_) d
  · refine Dependencies.bareLocation_congr (htools.map _) fun path => ?_
    rw [Rule.toolFilePaths_resolved, Rule.toolFilePaths_resolved]
    exact (htoolFiles.flatMap_right _).mem_iff
  · refine Dependencies.pathsOf_congr ?_
    rw [hother.declarations_resolved, h.declarations_resolved]
    exact lookup_declarations_eq_of_perm hfree htools (htoolFiles.append hsources) name

/-- Where a path is the label of another path, the order decides which of the two the name means. -/
example :
    let resolve : Resolver := (Catalog.ofList [("g", .files ["x"]), ("x", .files ["y"])]).resolve
    (Rule.resolved ⟨"gen", "", [], ["g", "x"], [], [], false⟩ resolve).location "x" = .ok "x" ∧
      (Rule.resolved ⟨"gen", "", [], ["x", "g"], [], [], false⟩ resolve).location "x" = .ok "y" :=
  ⟨rfl, rfl⟩

/-- A group of two files, of which one is also declared on its own and stands for itself. -/
theorem compile_eq_of_perm_of_group :
    let resolve : Resolver := (Catalog.ofList
      [("t", .tool "bin/t"), ("g", .files ["a", "b"]), ("a", .files ["a"]),
        ("s", .files [])]).resolve
    compile ⟨"gen", "$(locations g)$(location)", ["out"], ["a", "s"], ["t"], ["g", "a"], false⟩
        resolve {} = .ok "'a bbin/t'" ∧
      compile ⟨"gen", "$(locations g)$(location)", ["out"], ["s", "a"], ["t"], ["a", "g"], false⟩
        resolve {} = .ok "'a bbin/t'" := by
  intro resolve
  have group : (Piece.ofDirective "locations g".toList ⟨.locations, some "g"⟩).IsWritten :=
    .directive (by decide) rfl
  have bare : (Piece.ofDirective "location".toList ⟨.bareLocation, none⟩).IsWritten :=
    .directive (by decide) rfl
  have hreading : Reading.ofText "$(locations g)$(location)" =
      ⟨[.ofDirective "locations g".toList ⟨.locations, some "g"⟩,
        .ofDirective "location".toList ⟨.bareLocation, none⟩], none⟩ :=
    reads_iff.mp (.piece group (by simp [Lexeme.isLiteral, Piece.ofDirective])
      (.piece bare (by simp) .done))
  let rule : Rule :=
    ⟨"gen", "$(locations g)$(location)", ["out"], ["a", "s"], ["t"], ["g", "a"], false⟩
  have hexpand : expand rule.command (rule.resolved resolve) {} = .ok ⟨"a bbin/t", false⟩ := by
    rw [expand, hreading]
    rfl
  have hcollect : Dependencies.collect rule resolve = .ok (rule.resolved resolve) := rfl
  have hfree : CollisionFree resolve (rule.toolFiles ++ rule.sources) := by
    unfold CollisionFree
    decide
  have h := compile_eq_ok_of_expand (by simp [rule]) hcollect hexpand rfl (by decide)
  exact ⟨h, (compile_eq_of_perm hcollect hfree (.refl _) (.swap _ _ _) (.swap _ _ _) {}).trans h⟩

end RuleCommand
