import RuleCommand.Proofs.Rule.Acceptance
import RuleCommand.Proofs.Rule.Concatenation
import RuleCommand.Proofs.Template.Tiling

set_option autoImplicit false

/-!
# Why a rule is rejected

Several things can be wrong with a rule at once, of which one is reported. They are ordered: first
comes that the rule has no outputs, then its references in the order in which they are declared,
then its template from left to right, and last how it declares and uses the dependency file. A rule
is rejected with the earliest thing that is wrong, and whatever comes later has no say in it.

## Main definitions

* `RuleCommand.Offends` — a reference that cannot be resolved, with its error.
* `RuleCommand.LacksValue` — a directive without a value, with its error.
* `RuleCommand.FirstFailure` — the earliest failure in a template.
* `RuleCommand.RejectedWith` — the error that a rule is rejected with.

## Main results

* `RuleCommand.collect_eq_error_iff` — the error of the first reference that cannot be resolved.
* `RuleCommand.value_resolved_eq_error_iff` — the error that is computed for a directive is the one
  that is told.
* `RuleCommand.expand_resolved_eq_error_iff` — the error of the earliest failure in a template.
* `RuleCommand.compile_eq_error_iff_rejectedWith` — the error that is reported for a rule.
-/

namespace RuleCommand

variable {rule : Rule} {resolve : Resolver} {vars : Variables} {error : CompileError}

/-! ## References -/

/-- What a label is declared for. -/
inductive Use where
  /-- Something that runs. -/
  | tool
  /-- Something that is read, or used as a tool without running. -/
  | file
deriving DecidableEq, Repr

/-- The references of a rule: the tools, then the tool files, then the sources. -/
def Rule.references (rule : Rule) : List (Use × String) :=
  rule.tools.map (fun label => (.tool, label)) ++
    (rule.toolFiles.map (fun label => (.file, label)) ++
      rule.sources.map fun label => (.file, label))

/-- A reference that cannot be resolved, with its error. -/
inductive Offends (resolve : Resolver) : Use × String → CompileError → Prop
  /-- A label that is declared as a tool stands for files. -/
  | notATool {label : String} {paths : List String} :
      resolve label = some (.files paths) → Offends resolve (.tool, label) (.notATool label)
  /-- A label stands for nothing. -/
  | unresolved {use : Use} {label : String} :
      resolve label = none → Offends resolve (use, label) (.unresolvedDependency label)

lemma resolveTool_eq_error_iff {label : String} :
    Dependencies.resolveTool resolve label = .error error ↔
      Offends resolve (.tool, label) error := by
  rw [Dependencies.resolveTool]
  constructor
  · intro h
    split at h
    · cases h
    · next hlabel =>
      cases h
      exact .notATool hlabel
    · next hlabel =>
      cases h
      exact .unresolved hlabel
  · rintro (hlabel | hlabel)
    · rw [hlabel]
    · rw [hlabel]

lemma resolveFiles_eq_error_iff {label : String} :
    Dependencies.resolveFiles resolve label = .error error ↔
      Offends resolve (.file, label) error := by
  rw [Dependencies.resolveFiles]
  constructor
  · intro h
    split at h
    · cases h
    · cases h
    · next hlabel =>
      cases h
      exact .unresolved hlabel
  · rintro (hlabel | hlabel)
    rw [hlabel]

/-- **The error of the references of a rule** is that of the first which cannot be resolved. -/
theorem collect_eq_error_iff :
    Dependencies.collect rule resolve = .error error ↔
      FirstBad (Offends resolve) rule.references error := by
  simp only [Dependencies.collect, bind_eq_error_iff, pure, Except.pure, reduceCtorEq, and_false,
    exists_false, or_false, exists_and_right, mapM_eq_error_iff, exists_mapM_eq_ok_iff,
    resolveTool_eq_error_iff, resolveFiles_eq_error_iff, ne_eq, Rule.references, firstBad_append,
    firstBad_map, List.forall_mem_map]

/-! ## Directives -/

/-- A name without paths in the command of a rule, with its error. -/
inductive LacksPaths (rule : Rule) (resolve : Resolver) (name : String) : CompileError → Prop
  /-- The name is not declared. -/
  | unknownLabel :
      (∀ entry ∈ rule.declarations resolve, entry.1 ≠ name) →
        LacksPaths rule resolve name (.unknownLabel name)
  /-- The first declaration of the name gives it no paths. -/
  | emptyLabel :
      FirstDeclares (rule.declarations resolve) name [] →
        LacksPaths rule resolve name (.emptyLabel name)

/-- A directive without a value in the command of a rule, with its error. -/
inductive LacksValue (rule : Rule) (resolve : Resolver) (vars : Variables) :
    Directive → CompileError → Prop
  /-- A bare location could mean several tools. -/
  | severalTools :
      2 ≤ rule.tools.length →
        LacksValue rule resolve vars ⟨.bareLocation, none⟩ (.ambiguousTools rule.tools.length)
  /-- Without tools, a bare location means nothing if the tool files stand for no path. -/
  | missingTool :
      rule.tools = [] → (rule.toolFiles.flatMap (expansionOf resolve)).toFinset = ∅ →
        LacksValue rule resolve vars ⟨.bareLocation, none⟩ .missingTool
  /-- Without tools, a bare location could mean several distinct paths of tool files. -/
  | severalToolFiles {paths : Finset String} :
      rule.tools = [] → (rule.toolFiles.flatMap (expansionOf resolve)).toFinset = paths →
        2 ≤ paths.card →
          LacksValue rule resolve vars ⟨.bareLocation, none⟩ (.ambiguousToolFiles paths.card)
  /-- A name has no path. -/
  | location {name : String} {error : CompileError} :
      LacksPaths rule resolve name error →
        LacksValue rule resolve vars ⟨.location, some name⟩ error
  /-- A name of which the one path is asked for has several by its first declaration. -/
  | multipleFiles {name : String} {paths : List String} :
      FirstDeclares (rule.declarations resolve) name paths → 2 ≤ paths.length →
        LacksValue rule resolve vars ⟨.location, some name⟩ (.multipleFiles name paths.length)
  /-- A name has no paths. -/
  | locations {name : String} {error : CompileError} :
      LacksPaths rule resolve name error →
        LacksValue rule resolve vars ⟨.locations, some name⟩ error
  /-- The name of a variable is not bound. -/
  | var {name : String} :
      vars.lookup name = none →
        LacksValue rule resolve vars ⟨.var, some name⟩ (.unknownVariable name)

/-- There is no only path for a rule exactly if a bare location could mean several things or means
nothing. -/
lemma bareLocation_resolved_eq_error_iff (vars : Variables) :
    (rule.resolved resolve).bareLocation = .error error ↔
      LacksValue rule resolve vars ⟨.bareLocation, none⟩ error := by
  have htools : (rule.resolved resolve).tools = [] ↔ rule.tools = [] := List.map_eq_nil_iff
  have hlength : (rule.resolved resolve).tools.length = rule.tools.length := List.length_map _
  rw [Dependencies.bareLocation_eq_error_iff, htools, hlength, Rule.toolFilePaths_resolved]
  constructor
  · rintro (⟨hseveral, rfl⟩ | ⟨hnone, ⟨hempty, rfl⟩ | ⟨hseveral, rfl⟩⟩)
    · exact .severalTools hseveral
    · exact .missingTool hnone hempty
    · exact .severalToolFiles hnone rfl hseveral
  · intro h
    cases h with
    | severalTools hseveral => exact .inl ⟨hseveral, rfl⟩
    | missingTool hnone hempty => exact .inr ⟨hnone, .inl ⟨hempty, rfl⟩⟩
    | severalToolFiles hnone hpaths hseveral =>
      subst hpaths
      exact .inr ⟨hnone, .inr ⟨hseveral, rfl⟩⟩

/-- A name has no paths in a rule exactly if it is not declared, or its first declaration gives it
none. -/
lemma pathsOf_resolved_eq_error_iff (h : Resolvable rule resolve) {name : String} :
    (rule.resolved resolve).pathsOf name = .error error ↔ LacksPaths rule resolve name error := by
  rw [Dependencies.pathsOf_eq_error_iff, h.declarations_resolved]
  constructor
  · rintro (⟨hundeclared, rfl⟩ | ⟨hfirst, rfl⟩)
    · exact .unknownLabel hundeclared
    · exact .emptyLabel hfirst
  · rintro (hundeclared | hfirst)
    · exact .inl ⟨hundeclared, rfl⟩
    · exact .inr ⟨hfirst, rfl⟩

/-- **The error that is computed for a directive is the one that is told**, for directives as they
are read. -/
theorem value_resolved_eq_error_iff (h : Resolvable rule resolve) {d : Directive}
    (hd : d.argument.isSome = d.kind.takesArgument) :
    d.value (rule.resolved resolve) vars = .error error ↔
      LacksValue rule resolve vars d error := by
  constructor
  · intro hvalue
    obtain ⟨kind, argument⟩ := d
    cases argument with
    | none =>
      cases kind with
      | bareLocation => exact (bareLocation_resolved_eq_error_iff vars).mp hvalue
      | inputs | outputs | depfile | outputDir => cases hvalue
      | location | locations | var => cases hd
    | some name =>
      cases kind with
      | location =>
        rcases Dependencies.location_eq_error_iff.mp hvalue with
          hpaths | ⟨paths, hfirst, hseveral, rfl⟩
        · exact .location ((pathsOf_resolved_eq_error_iff h).mp hpaths)
        · rw [h.declarations_resolved] at hfirst
          exact .multipleFiles hfirst hseveral
      | locations =>
        have hpaths := Dependencies.locations_eq_error_iff.mp hvalue
        exact .locations ((pathsOf_resolved_eq_error_iff h).mp hpaths)
      | var =>
        obtain ⟨hlookup, rfl⟩ := value_var_eq_error_iff.mp hvalue
        exact .var hlookup
      | bareLocation | inputs | outputs | depfile | outputDir => cases hd
  · intro hlacks
    cases hlacks with
    | severalTools hseveral =>
      exact (bareLocation_resolved_eq_error_iff vars).mpr (.severalTools hseveral)
    | missingTool hnone hempty =>
      exact (bareLocation_resolved_eq_error_iff vars).mpr (.missingTool hnone hempty)
    | severalToolFiles hnone hpaths hseveral =>
      exact (bareLocation_resolved_eq_error_iff vars).mpr
        (.severalToolFiles hnone hpaths hseveral)
    | location hpaths =>
      exact Dependencies.location_eq_error_iff.mpr
        (.inl ((pathsOf_resolved_eq_error_iff h).mpr hpaths))
    | multipleFiles hfirst hseveral =>
      rw [← h.declarations_resolved] at hfirst
      exact Dependencies.location_eq_error_iff.mpr (.inr ⟨_, hfirst, hseveral, rfl⟩)
    | locations hpaths =>
      exact Dependencies.locations_eq_error_iff.mpr
        ((pathsOf_resolved_eq_error_iff h).mpr hpaths)
    | var hlookup => exact value_var_eq_error_iff.mpr ⟨hlookup, rfl⟩

/-! ## Templates -/

/-- Written pieces whose directives have values in the command of a rule. -/
structure InOrder (rule : Rule) (resolve : Resolver) (vars : Variables) (pieces : List Piece) :
    Prop where
  /-- Each piece stands for what it writes. -/
  written : ∀ piece ∈ pieces, piece.IsWritten
  /-- Each directive has a value. -/
  values : ∀ piece ∈ pieces, ∀ d, piece.lexeme = .directive d →
    ∃ text, HasValue rule resolve vars d text

/-- The earliest failure in a template, with its error. What stands behind it may be anything. -/
inductive FirstFailure (rule : Rule) (resolve : Resolver) (vars : Variables) :
    List Char → CompileError → Prop
  /-- A directive has no value, and everything before it is in order. -/
  | directive {before : List Piece} {piece : Piece} {d : Directive} {error : CompileError}
      (rest : List Char) :
      InOrder rule resolve vars before → piece.IsWritten → piece.lexeme = .directive d →
        LacksValue rule resolve vars d error →
          FirstFailure rule resolve vars
            (before.flatMap (·.source) ++ (piece.source ++ rest)) error
  /-- No piece starts at a dollar sign, and everything before it is in order. -/
  | fault {before : List Piece} {rest : List Char} {fault : Fault} :
      InOrder rule resolve vars before → pieceAfterDollar rest = .error fault →
        FirstFailure rule resolve vars (before.flatMap (·.source) ++ '$' :: rest)
          (.malformed ⟨fault, Position.ofByte (before.flatMap (·.source) ++ '$' :: rest)
            (byteLength (before.flatMap (·.source)) + fault.lead)⟩)

/-- Written pieces are in order exactly if none of them is without a value. -/
lemma inOrder_iff (h : Resolvable rule resolve) {pieces : List Piece}
    (written : ∀ piece ∈ pieces, piece.IsWritten) :
    InOrder rule resolve vars pieces ↔
      ∀ piece ∈ pieces, ∀ e, piece.lexeme.value (rule.resolved resolve) vars ≠ .error e := by
  constructor
  · intro horder piece hpiece e hvalue
    obtain ⟨d, hlexeme, hd⟩ := exists_of_value_eq_error hvalue
    obtain ⟨text, htext⟩ := horder.values piece hpiece d hlexeme
    have hok := (value_resolved_eq_ok_iff h ((written piece hpiece).isSome_argument hlexeme)).mpr
      htext
    rw [hd] at hok
    cases hok
  · intro hvalues
    refine ⟨written, fun piece hpiece d hlexeme => ?_⟩
    have hvalue := hvalues piece hpiece
    rw [hlexeme] at hvalue
    cases hd : d.value (rule.resolved resolve) vars with
    | error e => exact absurd hd (hvalue e)
    | ok text =>
      exact ⟨text, (value_resolved_eq_ok_iff h
        ((written piece hpiece).isSome_argument hlexeme)).mp hd⟩

/-- A failure that is told by the text of a template is found where it is told.

**Proof sketch.** What stands in order before the failure is read as it is written
(`Reading.ofChars_append_of_isWritten`), whatever stands behind. -/
lemma FirstFailure.expand_eq (h : Resolvable rule resolve) {template : String}
    (hfailure : FirstFailure rule resolve vars template.toList error) :
    expand template (rule.resolved resolve) vars = .error error := by
  rw [expand_eq_error_iff_textOf]
  generalize htext : template.toList = text at hfailure
  cases hfailure with
  | @directive before piece d _ rest horder hwritten hlexeme hlacks =>
    have written : ∀ p ∈ before ++ [piece], p.IsWritten := by
      intro p hp
      rcases List.mem_append.mp hp with hp | hp
      · exact horder.written p hp
      · rwa [List.mem_singleton.mp hp]
    have hreading : Reading.ofText template =
        .prepend (before ++ [piece]) (Reading.ofChars rest) := by
      rw [← Reading.ofChars_append_of_isWritten written, Reading.ofText, htext]
      simp
    have hvalue : piece.lexeme.value (rule.resolved resolve) vars = .error error := by
      rw [hlexeme]
      exact (value_resolved_eq_error_iff h (hwritten.isSome_argument hlexeme)).mpr hlacks
    rw [hreading, textOf_prepend, List.append_assoc]
    exact .inl (textOf_eq_error_iff.mpr
      ⟨before, piece, _, rfl, (inOrder_iff h horder.written).mp horder, hvalue⟩)
  | @fault before rest fault horder herror =>
    have hreading : Reading.ofText template = .prepend before ⟨[], some fault⟩ := by
      have hrest : Reading.ofChars ('$' :: rest) = ⟨[], some fault⟩ := by
        rw [Reading.ofChars_dollar, herror]
      rw [← hrest, ← Reading.ofChars_append_of_isWritten horder.written, Reading.ofText, htext]
    have hlocated : (Reading.prepend before ⟨[], some fault⟩).located? =
        some (byteLength (before.flatMap (·.source)) + fault.lead, fault) := by
      rw [Reading.located?, Reading.fault?_prepend, Reading.source_prepend]
      simp [Reading.source]
    rw [hreading, textOf_prepend, List.append_nil, SyntaxError.ofReading?, hlocated]
    exact .inr ⟨exists_textOf_eq_ok_iff.mpr ((inOrder_iff h horder.written).mp horder), _, rfl, rfl⟩

/-- **The error of a template** is that of its earliest failure, from left to right.

**Proof sketch.** The pieces are given their values one by one, and only if all of them have one the
fault that ended the reading is reported. -/
theorem expand_resolved_eq_error_iff (h : Resolvable rule resolve) {template : String} :
    expand template (rule.resolved resolve) vars = .error error ↔
      FirstFailure rule resolve vars template.toList error := by
  refine ⟨fun herror => ?_, fun hfailure => hfailure.expand_eq h⟩
  rw [expand_eq_error_iff_textOf, textOf_eq_error_iff, exists_textOf_eq_ok_iff] at herror
  have hreads := reads_ofText template
  obtain ⟨rest, htemplate, hrest⟩ := hreads.eq_source_append
  rcases herror with
    ⟨before, piece, after, hpieces, hbefore, hvalue⟩ | ⟨hvalues, syntaxError, herror, rfl⟩
  · obtain ⟨d, hlexeme, hd⟩ := exists_of_value_eq_error hvalue
    have written : ∀ p ∈ before ++ piece :: after, p.IsWritten := hpieces ▸ hreads.isWritten
    have hwritten := written piece (by simp)
    have horder : InOrder rule resolve vars before :=
      (inOrder_iff h fun p hp => written p (by simp [hp])).mpr hbefore
    have hsource : template.toList = before.flatMap (·.source) ++
        (piece.source ++ (after.flatMap (·.source) ++ rest)) := by
      rw [htemplate, Reading.source, hpieces]
      simp
    rw [hsource]
    exact .directive _ horder hwritten hlexeme
      ((value_resolved_eq_error_iff h (hwritten.isSome_argument hlexeme)).mp hd)
  · have horder : InOrder rule resolve vars (Reading.ofText template).pieces :=
      (inOrder_iff h hreads.isWritten).mpr hvalues
    obtain ⟨⟨offset, fault⟩, hlocated, rfl⟩ := Option.map_eq_some_iff.mp herror
    obtain ⟨behind, htext, hfault, rfl⟩ := hreads.exists_of_located? hlocated
    have hfailure := FirstFailure.fault horder hfault
    rwa [← Reading.source, ← htext] at hfailure

/-! ## Rules -/

/-- The error that a rule is rejected with. Each case requires that what comes before it is in
order. -/
inductive RejectedWith (rule : Rule) (resolve : Resolver) (vars : Variables) :
    CompileError → Prop
  /-- The rule produces nothing. -/
  | missingOutput : rule.outputs = [] → RejectedWith rule resolve vars .missingOutput
  /-- A reference cannot be resolved. -/
  | reference {error : CompileError} :
      rule.outputs ≠ [] → FirstBad (Offends resolve) rule.references error →
        RejectedWith rule resolve vars error
  /-- The template fails. -/
  | template {error : CompileError} :
      rule.outputs ≠ [] → Resolvable rule resolve →
        FirstFailure rule resolve vars rule.command.toList error →
          RejectedWith rule resolve vars error
  /-- Without a declared dependency file, the placeholder stands in the expanded template. -/
  | usedWithoutFlag {text : String} :
      rule.outputs ≠ [] → Resolvable rule resolve →
        (Reading.ofText rule.command).fault? = none → IsExpansion rule resolve vars text →
          rule.depfile = false → Placeholder.depfile.text.toList <:+: text.toList →
            RejectedWith rule resolve vars (.depfileMismatch .usedWithoutFlag)
  /-- A declared dependency file is not referred to. -/
  | flaggedWithoutUse {text : String} :
      rule.outputs ≠ [] → Resolvable rule resolve →
        (Reading.ofText rule.command).fault? = none → IsExpansion rule resolve vars text →
          rule.depfile = true → ¬rule.RefersToDepfile →
            RejectedWith rule resolve vars (.depfileMismatch .flaggedWithoutUse)

lemma checkOutputs_eq_error_iff :
    checkOutputs rule = .error error ↔ rule.outputs = [] ∧ error = .missingOutput := by
  rw [checkOutputs]
  split <;> simp_all [eq_comm]

/-- The use of the dependency file fails if the placeholder comes up without the declaration, or if
there is no reference in spite of it. -/
lemma checkDepfile_eq_error_iff {expansion : Expansion} :
    checkDepfile rule expansion = .error error ↔
      (rule.depfile = false ∧ (expansion.usesDepfile = true ∨
          Placeholder.depfile.text.toList <:+: expansion.text.toList) ∧
        error = .depfileMismatch .usedWithoutFlag) ∨
      (rule.depfile = true ∧ expansion.usesDepfile = false ∧
        error = .depfileMismatch .flaggedWithoutUse) := by
  rw [checkDepfile, ← String.contains_string_iff]
  cases rule.depfile <;> cases expansion.usesDepfile <;>
    cases expansion.text.contains Placeholder.depfile.text <;> simp [eq_comm]

/-- The stages fail in sequence: each is reached if those before it succeed. -/
lemma compile_eq_error_iff :
    compile rule resolve vars = .error error ↔
      rule.outputs = [] ∧ error = .missingOutput ∨
      rule.outputs ≠ [] ∧
        (FirstBad (Offends resolve) rule.references error ∨
        Resolvable rule resolve ∧
          (FirstFailure rule resolve vars rule.command.toList error ∨
          ∃ expansion, expand rule.command (rule.resolved resolve) vars = .ok expansion ∧
            checkDepfile rule expansion = .error error)) := by
  rw [compile, bind_eq_error_iff, checkOutputs_eq_error_iff]
  refine or_congr_right ?_
  constructor
  · rintro ⟨_, houtputs, h⟩
    refine ⟨checkOutputs_eq_ok_iff.mp houtputs, ?_⟩
    rcases bind_eq_error_iff.mp h with hcollect | ⟨deps, hcollect, h⟩
    · exact .inl (collect_eq_error_iff.mp hcollect)
    obtain ⟨hresolvable, rfl⟩ := Dependencies.collect_eq_ok_iff.mp hcollect
    refine .inr ⟨hresolvable, ?_⟩
    rcases bind_eq_error_iff.mp h with hexpand | ⟨expansion, hexpand, h⟩
    · exact .inl ((expand_resolved_eq_error_iff hresolvable).mp hexpand)
    rcases bind_eq_error_iff.mp h with hdepfile | ⟨_, -, h⟩
    · exact .inr ⟨expansion, hexpand, hdepfile⟩
    · cases h
  · rintro ⟨houtputs, h⟩
    refine ⟨_, checkOutputs_eq_ok_iff.mpr houtputs, bind_eq_error_iff.mpr ?_⟩
    rcases h with hoffence | ⟨hresolvable, h⟩
    · exact .inl (collect_eq_error_iff.mpr hoffence)
    have hcollect := Dependencies.collect_eq_ok_iff.mpr ⟨hresolvable, rfl⟩
    refine .inr ⟨_, hcollect, bind_eq_error_iff.mpr ?_⟩
    rcases h with hfailure | ⟨expansion, hexpand, hdepfile⟩
    · exact .inl ((expand_resolved_eq_error_iff hresolvable).mpr hfailure)
    · exact .inr ⟨expansion, hexpand, bind_eq_error_iff.mpr (.inl hdepfile)⟩

/-- A template that has an expansion is expanded to it. -/
lemma IsExpansion.exists_expand_eq (h : Resolvable rule resolve)
    (hfault : (Reading.ofText rule.command).fault? = none) {text : String}
    (htext : IsExpansion rule resolve vars text) :
    ∃ usesDepfile, expand rule.command (rule.resolved resolve) vars = .ok ⟨text, usesDepfile⟩ ∧
      (usesDepfile = true ↔ rule.RefersToDepfile) := by
  classical
  exact ⟨decide rule.RefersToDepfile,
    (expand_resolved_eq_ok_iff h).mpr ⟨hfault, htext, decide_eq_true_iff⟩, decide_eq_true_iff⟩

/-- **The error that is reported for a rule** is that of the earliest thing that is wrong with it.
In particular, the error of a reference has nothing to do with the template, the variables and the
dependency file.

**Proof sketch.** The stages fail in sequence (`compile_eq_error_iff`), each with the error that is
told. Without a declared dependency file the last check looks for a reference or the placeholder,
but a reference always leaves the placeholder in the expansion. -/
theorem compile_eq_error_iff_rejectedWith (rule : Rule) (resolve : Resolver) (vars : Variables) :
    (∀ error, compile rule resolve vars = .error error ↔ RejectedWith rule resolve vars error) ∧
    ∀ error, rule.outputs ≠ [] → FirstBad (Offends resolve) rule.references error →
      ∀ (command : String) (depfile : Bool) (others : Variables),
        compile { rule with command, depfile } resolve others = .error error := by
  refine ⟨fun error => ?_, fun error houtputs hoffence command depfile others =>
    compile_eq_error_iff.mpr (.inr ⟨houtputs, .inl hoffence⟩)⟩
  rw [compile_eq_error_iff]
  constructor
  · rintro (⟨houtputs, rfl⟩ |
      ⟨houtputs, hoffence | ⟨hresolvable, hfailure | ⟨expansion, hexpand, hdepfile⟩⟩⟩)
    · exact .missingOutput houtputs
    · exact .reference houtputs hoffence
    · exact .template houtputs hresolvable hfailure
    · obtain ⟨hfault, hexpansion, huses⟩ := (expand_resolved_eq_ok_iff hresolvable).mp hexpand
      rcases checkDepfile_eq_error_iff.mp hdepfile with
        ⟨hflag, hused, rfl⟩ | ⟨hflag, hunused, rfl⟩
      · have htoken : Placeholder.depfile.text.toList <:+: expansion.text.toList := by
          rcases hused with hused | htoken
          · exact hexpansion.isInfix_depfile hfault (huses.mp hused)
          · exact htoken
        exact .usedWithoutFlag houtputs hresolvable hfault hexpansion hflag htoken
      · refine .flaggedWithoutUse houtputs hresolvable hfault hexpansion hflag fun hrefers => ?_
        rw [huses.mpr hrefers] at hunused
        cases hunused
  · intro h
    cases h with
    | missingOutput houtputs => exact .inl ⟨houtputs, rfl⟩
    | reference houtputs hoffence => exact .inr ⟨houtputs, .inl hoffence⟩
    | template houtputs hresolvable hfailure =>
      exact .inr ⟨houtputs, .inr ⟨hresolvable, .inl hfailure⟩⟩
    | @usedWithoutFlag text houtputs hresolvable hfault hexpansion hflag htoken =>
      obtain ⟨usesDepfile, hexpand, -⟩ := hexpansion.exists_expand_eq hresolvable hfault
      have hdepfile : checkDepfile rule ⟨text, usesDepfile⟩ =
          .error (.depfileMismatch .usedWithoutFlag) :=
        checkDepfile_eq_error_iff.mpr (.inl ⟨hflag, .inr htoken, rfl⟩)
      exact .inr ⟨houtputs, .inr ⟨hresolvable, .inr ⟨_, hexpand, hdepfile⟩⟩⟩
    | @flaggedWithoutUse text houtputs hresolvable hfault hexpansion hflag hunused =>
      obtain ⟨usesDepfile, hexpand, huses⟩ := hexpansion.exists_expand_eq hresolvable hfault
      have hfalse : usesDepfile = false := eq_false_of_ne_true fun htrue => hunused (huses.mp htrue)
      have hdepfile : checkDepfile rule ⟨text, usesDepfile⟩ =
          .error (.depfileMismatch .flaggedWithoutUse) :=
        checkDepfile_eq_error_iff.mpr (.inr ⟨hflag, hfalse, rfl⟩)
      exact .inr ⟨houtputs, .inr ⟨hresolvable, .inr ⟨_, hexpand, hdepfile⟩⟩⟩

/-- Files that are declared as a tool come before a label that stands for nothing, whatever the
template is; and a variable that is not bound comes before the dollar sign behind it. -/
theorem compile_eq_error_of_several :
    (∀ (command : String) (depfile : Bool) (vars : Variables),
      compile ⟨"gen", command, ["out"], [], ["files"], ["nothing"], depfile⟩
          (fun label => if label = "files" then some (.files []) else none) vars =
        .error (.notATool "files")) ∧
    compile { name := "gen", command := "$(x)$", outputs := ["out"] } (fun _ => none) {} =
      .error (.unknownVariable "x") := by
  constructor
  · have hoffence : FirstBad
        (Offends fun label => if label = "files" then some (.files []) else none)
        [(.tool, "files"), (.file, "nothing")] (.notATool "files") :=
      ⟨[], (.tool, "files"), _, rfl, by simp, .notATool rfl⟩
    exact (compile_eq_error_iff_rejectedWith
      ⟨"gen", "", ["out"], [], ["files"], ["nothing"], false⟩ _ {}).2 _ (by simp) hoffence
  · have written : (Piece.ofDirective "x".toList ⟨.var, some "x"⟩).IsWritten :=
      .directive (by decide) rfl
    have horder : InOrder { name := "gen", command := "$(x)$", outputs := ["out"] }
        (fun _ => none) {} [] := ⟨by simp, by simp⟩
    have hfailure := FirstFailure.directive ['$'] horder written rfl (.var rfl)
    exact ((compile_eq_error_iff_rejectedWith _ _ _).1 _).mpr
      (.template (by simp) ⟨by simp, by simp, by simp⟩ hfailure)

end RuleCommand
