import RuleCommand.CommandLine.Config
import RuleCommand.Proofs.Rule.Dependence

set_option autoImplicit false

/-!
# What labels and names stand for

A configuration provides groups of files and host tools in two lists, and binds variables in a
third. In each of them the last entry for a key counts, and a group of files counts more than a
tool. A label that is provided by neither stands for itself, unless it starts with a colon. So it is
known which labels a rule can be rejected for, and only the order of the entries for one key
matters.

## Main definitions

* `RuleCommand.LastBinds`, `RuleCommand.Lacks` — the last entry for a key, and no entry for it.
* `RuleCommand.Config.StandsFor` — what a label stands for in a configuration.
* `RuleCommand.SameRuns` — lists in which the entries for each key are the same, in the same order.
* `RuleCommand.Config.Reordered` — configurations with entries in another order.

## Main results

* `RuleCommand.Config.resolver_eq_iff` — what is found for a label is what it stands for.
* `RuleCommand.exists_offends_of_compile` — a rule is rejected for a label only because of a
  reference that cannot be resolved.
* `RuleCommand.Config.Reordered.compile_eq` — the order of entries for different keys does not
  matter.
* `RuleCommand.labels_resolved_by_last_entries` — what labels and names stand for, and what follows
  for the command of a configuration.
-/

namespace RuleCommand

/-! ## Entries -/

section

variable {β γ : Type} {entries others : List (String × β)} {key : String} {value : β}

/-- The last entry for a key gives it a value. -/
def LastBinds (entries : List (String × β)) (key : String) (value : β) : Prop :=
  ∃ before after, entries = before ++ (key, value) :: after ∧ ∀ entry ∈ after, entry.1 ≠ key

/-- There is no entry for a key. -/
def Lacks (entries : List (String × β)) (key : String) : Prop :=
  ∀ entry ∈ entries, entry.1 ≠ key

/-- The first entry of a reversed list is the last one of the list. -/
lemma lookup_reverse_eq_some_iff :
    entries.reverse.lookup key = some value ↔ LastBinds entries key value := by
  rw [List.lookup_eq_some_iff]
  simp only [bne_iff_ne, @ne_comm _ key]
  constructor
  · rintro ⟨after, before, hsplit, hafter⟩
    refine ⟨before.reverse, after.reverse, ?_, by simpa using hafter⟩
    rw [← List.reverse_inj, hsplit]
    simp
  · rintro ⟨before, after, rfl, hafter⟩
    exact ⟨after.reverse, before.reverse, by simp, by simpa using hafter⟩

lemma lookup_reverse_eq_none_iff : entries.reverse.lookup key = none ↔ Lacks entries key := by
  rw [List.lookup_eq_none_iff]
  simp only [bne_iff_ne, @ne_comm _ key, List.mem_reverse, Lacks]

/-- A key has the same entry if the values are made into others. -/
lemma lookup_map_snd (f : β → γ) :
    (entries.map fun entry => (entry.1, f entry.2)).lookup key = (entries.lookup key).map f := by
  induction entries with
  | nil => rfl
  | cons entry entries ih =>
    rw [List.map_cons, lookup_cons_eq_ite, lookup_cons_eq_ite, ih]
    split <;> rfl

/-- The value of a key is that of the first of its entries. -/
lemma lookup_eq_head?_filter :
    entries.lookup key = (entries.filter (·.1 = key)).head?.map (·.2) := by
  induction entries with
  | nil => rfl
  | cons entry entries ih =>
    rw [lookup_cons_eq_ite]
    by_cases hkey : key = entry.1
    · simp [hkey]
    · rw [if_neg hkey, List.filter_cons_of_neg (by simpa [eq_comm] using hkey), ih]

/-- The entries for each key are the same, in the same order. Entries for different keys may have
changed places. -/
def SameRuns (entries others : List (String × β)) : Prop :=
  ∀ key, others.filter (·.1 = key) = entries.filter (·.1 = key)

/-- Neighbours for different keys may change places. -/
lemma SameRuns.swap {entry other : String × β} (h : entry.1 ≠ other.1)
    (before after : List (String × β)) :
    SameRuns (before ++ entry :: other :: after) (before ++ other :: entry :: after) := by
  intro key
  rw [List.filter_append, List.filter_append, List.append_cancel_left_eq]
  by_cases hentry : entry.1 = key
  · have hother : ¬other.1 = key := fun hother => h (hentry.trans hother.symm)
    simp [hentry, hother]
  · simp [List.filter_cons, hentry]

/-- The last entry for a key does not depend on the places of entries for other keys. -/
lemma SameRuns.lookup_reverse (h : SameRuns entries others) (key : String) :
    others.reverse.lookup key = entries.reverse.lookup key := by
  rw [lookup_eq_head?_filter, lookup_eq_head?_filter, List.filter_reverse, List.filter_reverse,
    h key]

end

/-! ## Labels -/

namespace Config

variable {config other : Config} {label : String}

/-- What a label stands for in a configuration. -/
inductive StandsFor (config : Config) (label : String) : Option Resource → Prop
  /-- The last group of files that is provided for it. -/
  | files {paths : List String} :
      LastBinds config.providedFiles label paths → StandsFor config label (some (.files paths))
  /-- Without a group of files, the last tool that is provided for it. -/
  | tool {path : String} :
      Lacks config.providedFiles label → LastBinds config.providedTools label path →
        StandsFor config label (some (.tool path))
  /-- Without both, itself, unless it starts with a colon. -/
  | itself :
      Lacks config.providedFiles label → Lacks config.providedTools label →
        label.toList.head? ≠ some ':' → StandsFor config label (some (.files [label]))
  /-- Without both, nothing if it starts with a colon. -/
  | nothing :
      Lacks config.providedFiles label → Lacks config.providedTools label →
        label.toList.head? = some ':' → StandsFor config label none

/-- Groups of files are looked for before tools, and the latest entries first. -/
lemma resolve_catalog (config : Config) (label : String) :
    config.catalog.resolve label =
      ((config.providedFiles.reverse.lookup label).map .files).or
        ((config.providedTools.reverse.lookup label).map .tool) := by
  rw [Catalog.resolve, catalog, Catalog.ofList, List.reverse_append, ← List.map_reverse,
    ← List.map_reverse, List.lookup_append, lookup_map_snd, lookup_map_snd]

/-- Each label stands for something, or for nothing. -/
lemma exists_standsFor (config : Config) (label : String) :
    ∃ answer, config.StandsFor label answer := by
  cases hfiles : config.providedFiles.reverse.lookup label with
  | some paths => exact ⟨_, .files (lookup_reverse_eq_some_iff.mp hfiles)⟩
  | none =>
    rw [lookup_reverse_eq_none_iff] at hfiles
    cases htools : config.providedTools.reverse.lookup label with
    | some path => exact ⟨_, .tool hfiles (lookup_reverse_eq_some_iff.mp htools)⟩
    | none =>
      rw [lookup_reverse_eq_none_iff] at htools
      by_cases hcolon : label.toList.head? = some ':'
      · exact ⟨_, .nothing hfiles htools hcolon⟩
      · exact ⟨_, .itself hfiles htools hcolon⟩

/-- What a label stands for is found for it. -/
lemma StandsFor.resolver_eq {answer : Option Resource} (h : config.StandsFor label answer) :
    config.resolver label = answer := by
  rw [resolver, resolve_catalog]
  cases h with
  | files hfiles =>
    rw [lookup_reverse_eq_some_iff.mpr hfiles]
    rfl
  | tool hfiles htools =>
    rw [lookup_reverse_eq_none_iff.mpr hfiles, lookup_reverse_eq_some_iff.mpr htools]
    rfl
  | itself hfiles htools hcolon =>
    rw [lookup_reverse_eq_none_iff.mpr hfiles, lookup_reverse_eq_none_iff.mpr htools]
    exact if_neg hcolon
  | nothing hfiles htools hcolon =>
    rw [lookup_reverse_eq_none_iff.mpr hfiles, lookup_reverse_eq_none_iff.mpr htools]
    exact if_pos hcolon

/-- **What is found for a label is what it stands for.** -/
theorem resolver_eq_iff {answer : Option Resource} :
    config.resolver label = answer ↔ config.StandsFor label answer := by
  refine ⟨?_, StandsFor.resolver_eq⟩
  rintro rfl
  obtain ⟨answer, h⟩ := config.exists_standsFor label
  rwa [h.resolver_eq]

/-- A name has the value of its last binding. -/
lemma lookup_vars_eq_some_iff {name value : String} :
    config.vars.lookup name = some value ↔ LastBinds config.bindings name value :=
  lookup_reverse_eq_some_iff

/-- Configurations with entries in another order, in which those for one key stand as they stood. -/
structure Reordered (config other : Config) : Prop where
  /-- The rule is the same. -/
  rule : other.rule = config.rule
  /-- Tools may be provided in another order. -/
  providedTools : SameRuns config.providedTools other.providedTools
  /-- Groups of files may be provided in another order. -/
  providedFiles : SameRuns config.providedFiles other.providedFiles
  /-- Variables may be bound in another order. -/
  bindings : SameRuns config.bindings other.bindings

/-- **The order of entries for different keys does not matter.**

**Proof sketch.** The last entry for each key is the same (`SameRuns.lookup_reverse`), so each label
stands for the same and each name has the same value. -/
theorem Reordered.compile_eq (h : config.Reordered other) : other.compile = config.compile := by
  have hresolver : ∀ label, other.resolver label = config.resolver label := by
    intro label
    rw [resolver, resolver, resolve_catalog, resolve_catalog, h.providedFiles.lookup_reverse,
      h.providedTools.lookup_reverse]
  rw [compile, compile, h.rule]
  exact (Rule.Alike.refl _).compile_eq (fun label _ => hresolver label)
    fun name _ => h.bindings.lookup_reverse name

end Config

/-! ## Rejections -/

section

variable {rule : Rule} {resolve : Resolver} {vars : Variables} {error : CompileError}

/-- The labels that a rule refers to are declared, and those of tools are declared as tools. -/
lemma mem_of_mem_references {use : Use} {label : String} (h : (use, label) ∈ rule.references) :
    label ∈ rule.labels ∧ (use = .tool → label ∈ rule.tools) := by
  simp only [Rule.references, Rule.labels, List.mem_append, List.mem_map, Prod.mk.injEq] at h ⊢
  rcases h with ⟨_, hlabel, rfl, rfl⟩ | ⟨_, hlabel, rfl, rfl⟩ | ⟨_, hlabel, rfl, rfl⟩
  · exact ⟨.inl hlabel, fun _ => hlabel⟩
  · exact ⟨.inr (.inl hlabel), by simp⟩
  · exact ⟨.inr (.inr hlabel), by simp⟩

/-- What fails in a template is no reference of the rule. -/
lemma FirstFailure.kind_ne {text : List Char} (h : FirstFailure rule resolve vars text error) :
    error.kind ≠ .unresolvedDependency ∧ error.kind ≠ .notATool := by
  cases h with
  | fault _ _ => exact ⟨nofun, nofun⟩
  | directive _ _ _ _ hlacks =>
    cases hlacks with
    | severalTools _ | missingTool _ _ | severalToolFiles _ _ _ | multipleFiles _ _ | var _ =>
      exact ⟨nofun, nofun⟩
    | location hpaths | locations hpaths =>
      cases hpaths with
      | unknownLabel _ | emptyLabel _ => exact ⟨nofun, nofun⟩

/-- A rule is rejected for a label that stands for nothing, or for files in the place of a tool,
only if that is the error of its references. -/
lemma firstBad_of_compile (h : compile rule resolve vars = .error error)
    (hkind : error.kind = .unresolvedDependency ∨ error.kind = .notATool) :
    FirstBad (Offends resolve) rule.references error := by
  rcases compile_eq_error_iff.mp h with ⟨-, rfl⟩ | ⟨-, hreference | ⟨-, htemplate | hdepfile⟩⟩
  · simp [CompileError.kind] at hkind
  · exact hreference
  · obtain ⟨hunresolved, hnotATool⟩ := htemplate.kind_ne
    exact (hkind.elim hunresolved hnotATool).elim
  · obtain ⟨expansion, -, hcheck⟩ := hdepfile
    rcases checkDepfile_eq_error_iff.mp hcheck with ⟨-, -, rfl⟩ | ⟨-, -, rfl⟩
    · simp [CompileError.kind] at hkind
    · simp [CompileError.kind] at hkind

/-- Such a rule has a reference that cannot be resolved for that reason. -/
lemma exists_offends_of_compile (h : compile rule resolve vars = .error error)
    (hkind : error.kind = .unresolvedDependency ∨ error.kind = .notATool) :
    ∃ use label, (use, label) ∈ rule.references ∧ Offends resolve (use, label) error := by
  obtain ⟨before, ⟨use, label⟩, after, hsplit, -, hoffends⟩ := firstBad_of_compile h hkind
  exact ⟨use, label, by simp [hsplit], hoffends⟩

end

/-! ## Configurations -/

/-- **Labels and names stand for what their last entries say.** A label stands for the last group
of files that is provided for it, else for the last such tool, else for itself unless it starts with
a colon; and a name has the value of its last binding. So a rule is rejected for a label that stands
for nothing only if the label is declared, starts with a colon, and is provided by neither list; and
for a label that is no tool only if the label is declared as a tool, and a group of files is
provided for it or it stands for itself. Entries for different keys may change their places in a
list: the command stays the same, or the error.

**Proof sketch.** Labels are found by their last entries (`Config.resolver_eq_iff`). The two errors
are those of a reference that cannot be resolved (`exists_offends_of_compile`), and what its label
stands for tells the rest. Lists with the same entries for each key have the same last entries
(`Config.Reordered.compile_eq`). -/
theorem labels_resolved_by_last_entries (config : Config) :
    (∀ label answer, config.resolver label = answer ↔ config.StandsFor label answer) ∧
    (∀ name value, config.vars.lookup name = some value ↔ LastBinds config.bindings name value) ∧
    (∀ label, config.compile = .error (.unresolvedDependency label) →
      label ∈ config.rule.labels ∧ label.toList.head? = some ':' ∧
        Lacks config.providedTools label ∧ Lacks config.providedFiles label) ∧
    (∀ label, config.compile = .error (.notATool label) →
      label ∈ config.rule.tools ∧
        ((∃ paths, (label, paths) ∈ config.providedFiles) ∨
          Lacks config.providedTools label ∧ Lacks config.providedFiles label ∧
            label.toList.head? ≠ some ':')) ∧
    ∀ other : Config, config.Reordered other → other.compile = config.compile := by
  refine ⟨fun _ _ => Config.resolver_eq_iff, fun _ _ => Config.lookup_vars_eq_some_iff,
    fun label h => ?_, fun label h => ?_, fun _ => Config.Reordered.compile_eq⟩
  · obtain ⟨use, _, hmem, hoffends⟩ := exists_offends_of_compile h (.inl rfl)
    cases hoffends with
    | unresolved hnone =>
      cases Config.resolver_eq_iff.mp hnone with
      | nothing hfiles htools hcolon =>
        exact ⟨(mem_of_mem_references hmem).1, hcolon, htools, hfiles⟩
  · obtain ⟨use, _, hmem, hoffends⟩ := exists_offends_of_compile h (.inr rfl)
    cases hoffends with
    | @notATool _ paths hfound =>
      refine ⟨(mem_of_mem_references hmem).2 rfl, ?_⟩
      cases Config.resolver_eq_iff.mp hfound with
      | files hlast =>
        obtain ⟨before, after, hsplit, -⟩ := hlast
        exact .inl ⟨paths, hsplit ▸ List.mem_append_right before List.mem_cons_self⟩
      | itself hfiles htools hcolon => exact .inr ⟨htools, hfiles, hcolon⟩

/-- A label is provided as a tool once and as a group of files twice: the last group counts, so the
label is no tool, also when its entries change places with those of another label. A label with a
colon is not provided at all. -/
theorem labels_resolved_by_last_entries_of_conflicts :
    let rule : Rule := ⟨"gen", "$(x)", ["out"], [], ["t"], [], false⟩
    let config : Config :=
      { rule, bindings := [("x", "1"), ("y", "2"), ("x", "3")], providedTools := [("t", "bin/t")]
        providedFiles := [("t", ["a"]), (":g", ["c"]), ("t", ["b"])] }
    let other : Config :=
      { config with bindings := [("y", "2"), ("x", "1"), ("x", "3")]
                    providedFiles := [("t", ["a"]), ("t", ["b"]), (":g", ["c"])] }
    let unprovided : Config := { config with rule := { rule with tools := [], sources := [":h"] } }
    config.StandsFor "t" (some (.files ["b"])) ∧ config.vars.lookup "x" = some "3" ∧
      config.compile = .error (.notATool "t") ∧
      (∃ paths, ("t", paths) ∈ config.providedFiles) ∧
      unprovided.compile = .error (.unresolvedDependency ":h") ∧
      Lacks unprovided.providedFiles ":h" ∧
      config.Reordered other ∧ other.compile = .error (.notATool "t") := by
  intro rule config other unprovided
  obtain ⟨hresolver, hvars, -, hnotATool, hreordered⟩ := labels_resolved_by_last_entries config
  obtain ⟨-, -, hunresolved, -, -⟩ := labels_resolved_by_last_entries unprovided
  have hcompile : config.compile = .error (.notATool "t") := rfl
  have hunprovided : unprovided.compile = .error (.unresolvedDependency ":h") := rfl
  have hother : config.Reordered other := {
    rule := rfl
    providedTools := fun _ => rfl
    providedFiles := .swap (by decide) [("t", ["a"])] []
    bindings := .swap (by decide) [] [("x", "3")] }
  have htool := (hnotATool "t" hcompile).2.resolve_right fun h =>
    h.1 ("t", "bin/t") List.mem_cons_self rfl
  exact ⟨(hresolver _ _).mp rfl, (hvars _ _).mpr ⟨[("x", "1"), ("y", "2")], [], rfl, by simp⟩,
    hcompile, htool, hunprovided, (hunresolved _ hunprovided).2.2.2, hother,
    (hreordered other hother).trans hcompile⟩

end RuleCommand
