import Mathlib.Tactic.Choose
import RuleCommand.Compile
import RuleCommand.Proofs.Rule.Declarations
import RuleCommand.Proofs.Rule.Expansion

set_option autoImplicit false

/-!
# Which rules are compiled

Compiling a rule goes through four stages: its outputs are checked, its references are resolved,
its template is read and expanded, and the use of the dependency file is checked. Here the rules
that pass all of them are told by one condition, without the stages, together with the command that
they get.

## Main definitions

* `RuleCommand.HasValue` — the value of a directive, told by the declarations of a rule.
* `RuleCommand.IsExpansion` — the template of a rule with a value in the place of each directive.
* `RuleCommand.Acceptable` — the rules that are compiled.

## Main results

* `RuleCommand.value_resolved_eq_ok_iff` — the value that is computed is the one that is told.
* `RuleCommand.compile_eq_ok_iff` — the four stages in sequence.
* `RuleCommand.compile_succeeds_iff_acceptable` — the rules that are compiled, and their commands.
-/

namespace RuleCommand

variable {rule : Rule} {resolve : Resolver} {vars : Variables}

/-! ## Values -/

/-- The value of a directive in the command of a rule. -/
inductive HasValue (rule : Rule) (resolve : Resolver) (vars : Variables) :
    Directive → String → Prop
  /-- A bare location is the path of the tool, if exactly one is declared. -/
  | onlyTool {label path : String} :
      rule.tools = [label] → resolve label = some (.tool path) →
        HasValue rule resolve vars ⟨.bareLocation, none⟩ path
  /-- Without tools, a bare location is the one distinct path that tool files stand for. -/
  | onlyToolFile {path : String} :
      rule.tools = [] → (∀ q, q ∈ rule.toolFiles.flatMap (expansionOf resolve) ↔ q = path) →
        HasValue rule resolve vars ⟨.bareLocation, none⟩ path
  /-- The location of a name is its only path by its first declaration. -/
  | location {name path : String} :
      FirstDeclares (rule.declarations resolve) name [path] →
        HasValue rule resolve vars ⟨.location, some name⟩ path
  /-- The locations of a name are its paths by its first declaration, at least one. -/
  | locations {name : String} {paths : List String} :
      FirstDeclares (rule.declarations resolve) name paths → paths ≠ [] →
        HasValue rule resolve vars ⟨.locations, some name⟩ (" ".intercalate paths)
  /-- The inputs are put in later. -/
  | inputs : HasValue rule resolve vars ⟨.inputs, none⟩ Placeholder.inputs.text
  /-- The outputs are put in later. -/
  | outputs : HasValue rule resolve vars ⟨.outputs, none⟩ Placeholder.outputFiles.text
  /-- The dependency file is put in later. -/
  | depfile : HasValue rule resolve vars ⟨.depfile, none⟩ Placeholder.depfile.text
  /-- The directory of the outputs is put in later. -/
  | outputDir : HasValue rule resolve vars ⟨.outputDir, none⟩ Placeholder.outputDir.text
  /-- A variable has the value that its name is bound to. -/
  | var {name value : String} :
      vars.lookup name = some value → HasValue rule resolve vars ⟨.var, some name⟩ value

/-- There is an only path for a rule exactly if it declares one tool, or no tool and tool files
with one distinct path. -/
lemma bareLocation_resolved_eq_ok_iff (h : Resolvable rule resolve) {path : String} :
    (rule.resolved resolve).bareLocation = .ok path ↔
      (∃ label, rule.tools = [label] ∧ resolve label = some (.tool path)) ∨
        rule.tools = [] ∧ ∀ q, q ∈ rule.toolFiles.flatMap (expansionOf resolve) ↔ q = path := by
  have htool : (∃ label, (rule.resolved resolve).tools = [⟨label, path⟩]) ↔
      ∃ label, rule.tools = [label] ∧ resolve label = some (.tool path) := by
    constructor
    · rintro ⟨_, htools⟩
      obtain ⟨label, hlabel, htool⟩ := List.map_eq_singleton_iff.mp htools
      obtain ⟨_, hresolve⟩ := h.tools label (by simp [hlabel])
      rw [toolOf_of_tool hresolve, ToolReference.mk.injEq] at htool
      obtain ⟨-, rfl⟩ := htool
      exact ⟨label, hlabel, hresolve⟩
    · rintro ⟨label, hlabel, hresolve⟩
      exact ⟨label, by rw [Rule.resolved, hlabel, List.map_singleton, toolOf_of_tool hresolve]⟩
  have hnone : (rule.resolved resolve).tools = [] ↔ rule.tools = [] := List.map_eq_nil_iff
  rw [Dependencies.bareLocation_eq_ok_iff, htool, hnone, Rule.toolFilePaths_resolved]

/-- A variable has a value exactly if its name is bound to it. -/
lemma value_var_eq_ok_iff {deps : Dependencies} {name text : String} :
    Directive.value deps vars ⟨.var, some name⟩ = .ok text ↔ vars.lookup name = some text := by
  rw [Directive.value]
  cases hlookup : vars.lookup name with
  | none => simp [hlookup]
  | some value => simp [hlookup]

/-- **The value that is computed is the one that is told**, for directives as they are read. -/
theorem value_resolved_eq_ok_iff (h : Resolvable rule resolve) {d : Directive}
    (hd : d.argument.isSome = d.kind.takesArgument) {text : String} :
    d.value (rule.resolved resolve) vars = .ok text ↔ HasValue rule resolve vars d text := by
  constructor
  · intro hvalue
    obtain ⟨kind, argument⟩ := d
    cases argument with
    | none =>
      cases kind with
      | bareLocation =>
        rcases (bareLocation_resolved_eq_ok_iff h).mp hvalue with
          ⟨label, hlabel, hresolve⟩ | ⟨hnone, hpath⟩
        · exact .onlyTool hlabel hresolve
        · exact .onlyToolFile hnone hpath
      | inputs =>
        cases hvalue
        exact .inputs
      | outputs =>
        cases hvalue
        exact .outputs
      | depfile =>
        cases hvalue
        exact .depfile
      | outputDir =>
        cases hvalue
        exact .outputDir
      | location | locations | var => cases hd
    | some name =>
      cases kind with
      | location =>
        have hfirst := Dependencies.location_eq_ok_iff.mp hvalue
        rw [h.declarations_resolved] at hfirst
        exact .location hfirst
      | locations =>
        obtain ⟨paths, hfirst, hne, rfl⟩ := Dependencies.locations_eq_ok_iff.mp hvalue
        rw [h.declarations_resolved] at hfirst
        exact .locations hfirst hne
      | var => exact .var (value_var_eq_ok_iff.mp hvalue)
      | bareLocation | inputs | outputs | depfile | outputDir => cases hd
  · intro hvalue
    cases hvalue with
    | onlyTool hlabel hresolve =>
      exact (bareLocation_resolved_eq_ok_iff h).mpr (.inl ⟨_, hlabel, hresolve⟩)
    | onlyToolFile hnone hpath =>
      exact (bareLocation_resolved_eq_ok_iff h).mpr (.inr ⟨hnone, hpath⟩)
    | location hfirst =>
      rw [← h.declarations_resolved] at hfirst
      exact Dependencies.location_eq_ok_iff.mpr hfirst
    | locations hfirst hne =>
      rw [← h.declarations_resolved] at hfirst
      exact Dependencies.locations_eq_ok_iff.mpr ⟨_, hfirst, hne, rfl⟩
    | inputs => rfl
    | outputs => rfl
    | depfile => rfl
    | outputDir => rfl
    | var hlookup => exact value_var_eq_ok_iff.mpr hlookup

/-! ## Expansions -/

/-- A template of a rule with the bytes of each directive exchanged for its value. -/
def IsExpansion (rule : Rule) (resolve : Resolver) (vars : Variables) (text : String) : Prop :=
  ∃ value : Directive → String,
    (∀ d ∈ (Reading.ofText rule.command).directives, HasValue rule resolve vars d (value d)) ∧
      splice rule.command.toList ((Reading.ofText rule.command).edits value) = .ok text.toList

/-- Whether the template of a rule refers to the dependency file. -/
def Rule.RefersToDepfile (rule : Rule) : Prop :=
  ∃ d ∈ (Reading.ofText rule.command).directives, d.kind = .depfile

/-- The computed expansion of a template that is read to its end is the template with its edits. -/
lemma expand_resolved_eq_ok_iff (h : Resolvable rule resolve) {expansion : Expansion} :
    expand rule.command (rule.resolved resolve) vars = .ok expansion ↔
      (Reading.ofText rule.command).fault? = none ∧
        IsExpansion rule resolve vars expansion.text ∧
          (expansion.usesDepfile = true ↔ rule.RefersToDepfile) := by
  have hvalues : ∀ value : Directive → String,
      (∀ d ∈ (Reading.ofText rule.command).directives,
        d.value (rule.resolved resolve) vars = .ok (value d)) ↔
      ∀ d ∈ (Reading.ofText rule.command).directives, HasValue rule resolve vars d (value d) :=
    fun value => forall₂_congr fun d hd =>
      value_resolved_eq_ok_iff h (Reading.isSome_argument_of_mem_directives hd)
  rw [expand_eq_ok_iff]
  refine and_congr_right fun hfault => ?_
  rw [IsExpansion, Rule.RefersToDepfile, ← exists_and_right]
  refine exists_congr fun value => ?_
  rw [hvalues, Reading.splice_eq_ok_iff hfault, and_assoc]

/-- A template that is read to its end has at most one expansion. -/
lemma IsExpansion.unique (h : Resolvable rule resolve)
    (hfault : (Reading.ofText rule.command).fault? = none) {text other : String}
    (htext : IsExpansion rule resolve vars text) (hother : IsExpansion rule resolve vars other) :
    text = other := by
  classical
  have hexpand : ∀ {x : String}, IsExpansion rule resolve vars x →
      expand rule.command (rule.resolved resolve) vars =
        .ok ⟨x, decide rule.RefersToDepfile⟩ := fun hx =>
    (expand_resolved_eq_ok_iff h).mpr ⟨hfault, hx, decide_eq_true_iff⟩
  have heq := (hexpand htext).symm.trans (hexpand hother)
  rw [Except.ok.injEq, Expansion.mk.injEq] at heq
  exact heq.1

/-- A template whose directives have values has an expansion. -/
lemma exists_isExpansion (hfault : (Reading.ofText rule.command).fault? = none)
    (hvalues : ∀ d ∈ (Reading.ofText rule.command).directives,
      ∃ text, HasValue rule resolve vars d text) :
    ∃ text, IsExpansion rule resolve vars text := by
  choose! value hvalue using hvalues
  exact ⟨_, value, hvalue, (Reading.splice_eq_ok_iff hfault).mpr rfl⟩

/-- Where a template refers to the dependency file, its expansion holds the placeholder. -/
lemma IsExpansion.isInfix_depfile (hfault : (Reading.ofText rule.command).fault? = none)
    {text : String} (htext : IsExpansion rule resolve vars text) (h : rule.RefersToDepfile) :
    Placeholder.depfile.text.toList <:+: text.toList := by
  obtain ⟨value, hvalue, hsplice⟩ := htext
  obtain ⟨d, hd, hkind⟩ := h
  have hinfix := Reading.isInfix_exchanged hd value
  rw [← (Reading.splice_eq_ok_iff hfault).mp hsplice] at hinfix
  have hdepfile : value d = Placeholder.depfile.text := by
    have hd := hvalue d hd
    generalize value d = text at hd
    cases hd with
    | depfile => rfl
    | _ => cases hkind
  rwa [hdepfile] at hinfix

/-! ## Compiling -/

lemma checkOutputs_eq_ok_iff : checkOutputs rule = .ok () ↔ rule.outputs ≠ [] := by
  rw [checkOutputs]
  split <;> simp_all

/-- The use of the dependency file passes if it is as declared, and if without the declaration the
placeholder does not occur at all. -/
lemma checkDepfile_eq_ok_iff {expansion : Expansion} :
    checkDepfile rule expansion = .ok () ↔
      (rule.depfile = false → expansion.usesDepfile = false ∧
        ¬Placeholder.depfile.text.toList <:+: expansion.text.toList) ∧
      (rule.depfile = true → expansion.usesDepfile = true) := by
  rw [checkDepfile, ← String.contains_string_iff]
  cases rule.depfile <;> cases expansion.usesDepfile <;>
    cases expansion.text.contains Placeholder.depfile.text <;> simp

/-- The four stages in sequence. -/
theorem compile_eq_ok_iff {command : String} :
    compile rule resolve vars = .ok command ↔
      rule.outputs ≠ [] ∧ Resolvable rule resolve ∧ ∃ expansion,
        expand rule.command (rule.resolved resolve) vars = .ok expansion ∧
          checkDepfile rule expansion = .ok () ∧ command = ShellWord.quote expansion.text := by
  simp only [compile, bind_eq_ok_iff, Dependencies.collect_eq_ok_iff]
  constructor
  · rintro ⟨_, houtputs, _, ⟨hresolvable, rfl⟩, expansion, hexpand, _, hdepfile, h⟩
    cases h
    exact ⟨checkOutputs_eq_ok_iff.mp houtputs, hresolvable, expansion, hexpand, hdepfile, rfl⟩
  · rintro ⟨houtputs, hresolvable, expansion, hexpand, hdepfile, rfl⟩
    exact ⟨_, checkOutputs_eq_ok_iff.mpr houtputs, _, ⟨hresolvable, rfl⟩, expansion, hexpand, _,
      hdepfile, rfl⟩

/-- A rule without a dependency file has its expansion as command if that does not mention one. -/
lemma compile_eq_ok_of_expand {deps : Dependencies} {text : String} (houtputs : rule.outputs ≠ [])
    (hcollect : Dependencies.collect rule resolve = .ok deps)
    (hexpand : expand rule.command deps vars = .ok ⟨text, false⟩) (hdepfile : rule.depfile = false)
    (habsent : ¬Placeholder.depfile.text.toList <:+: text.toList) :
    compile rule resolve vars = .ok (ShellWord.quote text) := by
  obtain ⟨hresolvable, rfl⟩ := Dependencies.collect_eq_ok_iff.mp hcollect
  refine compile_eq_ok_iff.mpr ⟨houtputs, hresolvable, ⟨text, false⟩, hexpand, ?_, rfl⟩
  exact checkDepfile_eq_ok_iff.mpr ⟨fun _ => ⟨rfl, habsent⟩, by simp [hdepfile]⟩

/-- The rules that are compiled. -/
structure Acceptable (rule : Rule) (resolve : Resolver) (vars : Variables) : Prop where
  /-- The rule produces something. -/
  outputs : rule.outputs ≠ []
  /-- Each label of a tool stands for a tool, and each label of files for something. -/
  resolvable : Resolvable rule resolve
  /-- The whole template is read. -/
  readable : (Reading.ofText rule.command).fault? = none
  /-- Each directive has a value. -/
  values : ∀ d ∈ (Reading.ofText rule.command).directives,
    ∃ text, HasValue rule resolve vars d text
  /-- Without a declared dependency file the placeholder does not occur in the expanded template,
  wherever it could come from. -/
  absent : rule.depfile = false → ∀ text, IsExpansion rule resolve vars text →
    ¬Placeholder.depfile.text.toList <:+: text.toList
  /-- A declared dependency file is referred to. -/
  present : rule.depfile = true → rule.RefersToDepfile

/-- **The rules that are compiled** are the acceptable ones, and the command of such a rule is its
template with the bytes of each directive exchanged for its value, quoted as one word.

**Proof sketch.** The four stages in sequence (`compile_eq_ok_iff`) pass an expansion on, which is
the only one there is (`expand_resolved_eq_ok_iff`, `IsExpansion.unique`). The check of the
dependency file looks for a reference or the placeholder; a reference always leaves the placeholder
in the expansion, so the placeholder decides. -/
theorem compile_succeeds_iff_acceptable (rule : Rule) (resolve : Resolver) (vars : Variables) :
    ((∃ command, compile rule resolve vars = .ok command) ↔ Acceptable rule resolve vars) ∧
      ∀ command, compile rule resolve vars = .ok command →
        ∃ text, IsExpansion rule resolve vars text ∧
          (∀ other, IsExpansion rule resolve vars other → other = text) ∧
            command = ShellWord.quote text := by
  refine ⟨⟨?_, fun h => ?_⟩, fun command h => ?_⟩
  · rintro ⟨command, h⟩
    obtain ⟨houtputs, hresolvable, expansion, hexpand, hdepfile, -⟩ := compile_eq_ok_iff.mp h
    obtain ⟨hfault, hexpansion, huses⟩ := (expand_resolved_eq_ok_iff hresolvable).mp hexpand
    obtain ⟨habsent, hpresent⟩ := checkDepfile_eq_ok_iff.mp hdepfile
    obtain ⟨value, hvalue, -⟩ := id hexpansion
    refine ⟨houtputs, hresolvable, hfault, fun d hd => ⟨value d, hvalue d hd⟩, ?_,
      fun hflag => huses.mp (hpresent hflag)⟩
    intro hflag text htext
    rw [htext.unique hresolvable hfault hexpansion]
    exact (habsent hflag).2
  · obtain ⟨text, htext⟩ := exists_isExpansion h.readable h.values
    classical
    refine ⟨_, compile_eq_ok_iff.mpr ⟨h.outputs, h.resolvable,
      ⟨text, decide rule.RefersToDepfile⟩, ?_, ?_, rfl⟩⟩
    · exact (expand_resolved_eq_ok_iff h.resolvable).mpr ⟨h.readable, htext, decide_eq_true_iff⟩
    · refine checkDepfile_eq_ok_iff.mpr ⟨fun hflag => ?_, fun hflag => ?_⟩
      · have habsent := h.absent hflag text htext
        refine ⟨decide_eq_false fun hrefers => ?_, habsent⟩
        exact habsent (htext.isInfix_depfile h.readable hrefers)
      · exact decide_eq_true (h.present hflag)
  · obtain ⟨-, hresolvable, expansion, hexpand, -, rfl⟩ := compile_eq_ok_iff.mp h
    obtain ⟨hfault, hexpansion, -⟩ := (expand_resolved_eq_ok_iff hresolvable).mp hexpand
    exact ⟨expansion.text, hexpansion,
      fun other hother => hother.unique hresolvable hfault hexpansion, rfl⟩

end RuleCommand
