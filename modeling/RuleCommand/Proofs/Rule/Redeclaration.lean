import RuleCommand.Proofs.Rule.Order

set_option autoImplicit false

/-!
# References that are declared again

A reference to files may be declared more than once. The first time, it declares its label and each
of its paths, so the next time there is nothing left for it to declare; its paths are among those of
the tool files already; and if it cannot be resolved, that was found out the first time. So a rule
has the same command, or the same error, with the repetition and without it.

## Main definitions

* `RuleCommand.Redeclares` — a rule that declares a reference to files once more.

## Main results

* `RuleCommand.lookup_append_of_declared` — a declaration of names that are in use does not count.
* `RuleCommand.Redeclares.expansion_eq` — what is expanded does not depend on a repetition.
* `RuleCommand.compile_redeclares` — neither does the command of a rule, nor its error.
-/

namespace RuleCommand

variable {rule other : Rule} {resolve : Resolver}

/-- A rule that declares a reference to files once more, anywhere behind its first declaration.
Tool files are declared before sources, wherever they stand among the tool files. -/
inductive Redeclares (rule : Rule) : Rule → Prop
  /-- A label of tool files is repeated behind itself. -/
  | toolFile {label : String} {before after : List String} :
      rule.toolFiles = before ++ after → label ∈ before →
        Redeclares rule { rule with toolFiles := before ++ label :: after }
  /-- A label of tool files, or of sources that stand before, is repeated among the sources. -/
  | source {label : String} {before after : List String} :
      rule.sources = before ++ after → label ∈ rule.toolFiles ∨ label ∈ before →
        Redeclares rule { rule with sources := before ++ label :: after }

/-! ## Names -/

/-- Declarations of names that are in use do not count. -/
lemma lookup_append_of_declared {before group after : List (String × List String)}
    (h : ∀ entry ∈ group, entry ∈ before) (name : String) :
    (before ++ (group ++ after)).lookup name = (before ++ after).lookup name := by
  rw [List.lookup_append, List.lookup_append, List.lookup_append]
  cases hbefore : before.lookup name with
  | some paths => rfl
  | none =>
    have hgroup : group.lookup name = none := by
      rw [lookup_eq_none_iff_undeclared] at hbefore ⊢
      exact fun entry hentry => hbefore entry (h entry hentry)
    rw [hgroup, Option.none_or]

/-- A label of files that is declared again declares nothing. -/
lemma lookup_fileDeclarations_insert {before after : List String} {label : String}
    (hlabel : label ∈ before) (name : String) :
    (fileDeclarations resolve (before ++ label :: after)).lookup name =
      (fileDeclarations resolve (before ++ after)).lookup name := by
  have happend : ∀ labels others, fileDeclarations resolve (labels ++ others) =
      fileDeclarations resolve labels ++ fileDeclarations resolve others :=
    fun labels others => List.flatMap_append
  have hgroup : ∀ entry ∈ fileDeclarations resolve [label],
      entry ∈ fileDeclarations resolve before := by
    intro entry hentry
    obtain ⟨found, hfound, hmem⟩ := List.mem_flatMap.mp hentry
    rw [List.mem_singleton] at hfound
    exact List.mem_flatMap.mpr ⟨label, hlabel, hfound ▸ hmem⟩
  rw [← List.singleton_append, happend, happend, happend, lookup_append_of_declared hgroup]

/-! ## Rules -/

namespace Redeclares

/-- Among all the files of a rule, the repetition stands behind the first declaration. -/
lemma exists_files (h : Redeclares rule other) :
    ∃ before label after, label ∈ before ∧ rule.toolFiles ++ rule.sources = before ++ after ∧
      other.toolFiles ++ other.sources = before ++ label :: after := by
  cases h with
  | @toolFile label before after hsplit hlabel =>
    exact ⟨before, label, after ++ rule.sources, hlabel, by simp [hsplit], by simp⟩
  | @source label before after hsplit hlabel =>
    refine ⟨rule.toolFiles ++ before, label, after, ?_, by simp [hsplit], by simp⟩
    exact List.mem_append.mpr hlabel

lemma tools_eq (h : Redeclares rule other) : other.tools = rule.tools := by
  cases h <;> rfl

lemma command_eq (h : Redeclares rule other) : other.command = rule.command := by
  cases h <;> rfl

/-- The tool files are the same, some of them repeated. -/
lemma mem_toolFiles (h : Redeclares rule other) (label : String) :
    label ∈ other.toolFiles ↔ label ∈ rule.toolFiles := by
  cases h with
  | toolFile hsplit hlabel =>
    rw [hsplit]
    simp only [List.mem_append, List.mem_cons]
    constructor
    · rintro (hmem | rfl | hmem)
      · exact .inl hmem
      · exact .inl hlabel
      · exact .inr hmem
    · rintro (hmem | hmem)
      · exact .inl hmem
      · exact .inr (.inr hmem)
  | source _ _ => exact Iff.rfl

/-- The references can be resolved with the repetition if they can be without it. -/
lemma resolvable (h : Redeclares rule other) (hrule : Resolvable rule resolve) :
    Resolvable other resolve := by
  have hfiles : ∀ label ∈ other.toolFiles ++ other.sources,
      ∃ resource, resolve label = some resource := by
    obtain ⟨before, again, after, hagain, hsplit, hother⟩ := h.exists_files
    have hall : ∀ label ∈ before ++ after, ∃ resource, resolve label = some resource := by
      rw [← hsplit]
      exact fun label hlabel => hrule.exists_resource (List.mem_append_right _ hlabel)
    intro label hlabel
    rw [hother, List.mem_append, List.mem_cons] at hlabel
    rcases hlabel with hmem | rfl | hmem
    · exact hall label (List.mem_append_left _ hmem)
    · exact hall label (List.mem_append_left _ hagain)
    · exact hall label (List.mem_append_right _ hmem)
  rw [List.forall_mem_append] at hfiles
  refine ⟨fun label hlabel => ?_, hfiles.1, hfiles.2⟩
  rw [h.tools_eq] at hlabel
  exact hrule.tools label hlabel

/-- The first reference that cannot be resolved is the same. -/
lemma firstBad_references (h : Redeclares rule other) {error : CompileError} :
    FirstBad (Offends resolve) other.references error ↔
      FirstBad (Offends resolve) rule.references error := by
  obtain ⟨before, label, after, hlabel, hsplit, hother⟩ := h.exists_files
  have hmem : (Use.file, label) ∈ rule.tools.map (fun label => (Use.tool, label)) ++
      before.map fun label => (Use.file, label) :=
    List.mem_append_right _ (List.mem_map_of_mem hlabel)
  rw [Rule.references, Rule.references, ← List.map_append, ← List.map_append, hsplit, hother,
    h.tools_eq, List.map_append, List.map_append, List.map_cons, ← List.append_assoc,
    ← List.append_assoc, firstBad_insert hmem]

/-- A name stands for the same paths. -/
lemma lookup_declarations (h : Redeclares rule other) (name : String) :
    (other.declarations resolve).lookup name = (rule.declarations resolve).lookup name := by
  obtain ⟨before, label, after, hlabel, hsplit, hother⟩ := h.exists_files
  rw [Rule.declarations_eq, Rule.declarations_eq, List.lookup_append, List.lookup_append,
    h.tools_eq, hsplit, hother, lookup_fileDeclarations_insert hlabel]

/-- **What is expanded does not depend on a repetition**, nor does the error if there is one.

**Proof sketch.** If a reference cannot be resolved, the first such one is the same. Otherwise names
stand for the same paths, and the only path depends on the set of the paths of tool files, to which
the repetition adds nothing. -/
lemma expansion_eq (h : Redeclares rule other) (resolve : Resolver) (vars : Variables) :
    other.expansion resolve vars = rule.expansion resolve vars := by
  cases hcollect : Dependencies.collect rule resolve with
  | error error =>
    have hother : Dependencies.collect other resolve = .error error := by
      rw [collect_eq_error_iff] at hcollect ⊢
      exact h.firstBad_references.mpr hcollect
    rw [Rule.expansion, Rule.expansion, hcollect, hother]
    rfl
  | ok deps =>
    obtain ⟨hrule, -⟩ := Dependencies.collect_eq_ok_iff.mp hcollect
    have hother := h.resolvable hrule
    rw [hother.expansion_eq, hrule.expansion_eq, h.command_eq]
    refine expand_congr fun d _ => value_congr ?_ (fun name => ?_) d
    · refine Dependencies.bareLocation_congr ?_ fun path => ?_
      · rw [Rule.resolved, Rule.resolved, h.tools_eq]
      · rw [Rule.toolFilePaths_resolved, Rule.toolFilePaths_resolved]
        simp only [List.mem_flatMap, h.mem_toolFiles]
    · apply Dependencies.pathsOf_congr
      rw [hother.declarations_resolved, hrule.declarations_resolved]
      exact h.lookup_declarations name

end Redeclares

/-- **Declaring a reference to files again changes nothing**: neither the command of a rule nor its
error.

**Proof sketch.** A repetition leaves the outputs and the dependency file of the rule alone, so only
the expansion could change, and that does not (`Redeclares.expansion_eq`). -/
theorem compile_redeclares (h : Redeclares rule other) (resolve : Resolver) (vars : Variables) :
    compile other resolve vars = compile rule resolve vars := by
  have hexpansion := h.expansion_eq resolve vars
  cases h with
  | toolFile _ _ => exact compile_congr Iff.rfl rfl hexpansion
  | source _ _ => exact compile_congr Iff.rfl rfl hexpansion

/-- A group of tool files is declared again behind a file of its own, and then once more among the
sources; and a label that stands for nothing is repeated. -/
theorem compile_redeclares_of_group :
    let resolve : Resolver := (Catalog.ofList
      [("g", .files ["a", "b"]), ("a", .files ["c"]), ("h", .files ["a"])]).resolve
    compile ⟨"gen", "$(locations g)$(location a)", ["out"], ["h"], [], ["g", "a"], false⟩
        resolve {} = .ok "'a ba'" ∧
      compile ⟨"gen", "$(locations g)$(location a)", ["out"], ["h"], [], ["g", "a", "g"], false⟩
        resolve {} = .ok "'a ba'" ∧
      compile ⟨"gen", "$(locations g)$(location a)", ["out"], ["a", "h"], [], ["g", "a"], false⟩
        resolve {} = .ok "'a ba'" ∧
      compile ⟨"gen", "$", ["out"], ["x", "y", "x"], [], [], false⟩ resolve {} =
        .error (.unresolvedDependency "x") := by
  intro resolve
  have group : (Piece.ofDirective "locations g".toList ⟨.locations, some "g"⟩).IsWritten :=
    .directive (by decide) rfl
  have member : (Piece.ofDirective "location a".toList ⟨.location, some "a"⟩).IsWritten :=
    .directive (by decide) rfl
  have hreading : Reading.ofText "$(locations g)$(location a)" =
      ⟨[.ofDirective "locations g".toList ⟨.locations, some "g"⟩,
        .ofDirective "location a".toList ⟨.location, some "a"⟩], none⟩ :=
    reads_iff.mp (.piece group (by simp [Lexeme.isLiteral, Piece.ofDirective])
      (.piece member (by simp) .done))
  let rule : Rule :=
    ⟨"gen", "$(locations g)$(location a)", ["out"], ["h"], [], ["g", "a"], false⟩
  have hcollect : Dependencies.collect rule resolve = .ok (rule.resolved resolve) := rfl
  have hexpand : expand rule.command (rule.resolved resolve) {} = .ok ⟨"a ba", false⟩ := by
    rw [expand, hreading]
    rfl
  have h := compile_eq_ok_of_expand (by simp [rule]) hcollect hexpand rfl (by decide)
  have htoolFile : Redeclares rule { rule with toolFiles := ["g", "a"] ++ "g" :: [] } :=
    .toolFile rfl (by simp)
  have hsource : Redeclares rule { rule with sources := [] ++ "a" :: ["h"] } :=
    .source rfl (.inl (by simp [rule]))
  refine ⟨h, (compile_redeclares htoolFile resolve {}).trans h,
    (compile_redeclares hsource resolve {}).trans h, ?_⟩
  let missing : Rule := ⟨"gen", "$", ["out"], ["x", "y"], [], [], false⟩
  have hmissing : Redeclares missing { missing with sources := ["x", "y"] ++ "x" :: [] } :=
    .source rfl (.inr (by simp))
  exact compile_redeclares hmissing resolve {}

end RuleCommand
