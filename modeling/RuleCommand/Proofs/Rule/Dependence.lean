import Mathlib.Logic.Function.Basic
import RuleCommand.Proofs.Rule.Rejection
import RuleCommand.Proofs.Template.Canonical

set_option autoImplicit false

/-!
# What the command of a rule depends on

Two calls that may differ in many ways have the same command, or the same error, if they agree on
what is asked for. Of a template that is read to its end only the lexemes count, so it may as well
be written in its canonical form. Of a resolver only the answers for declared labels count, and of
the variables only the values of names that the template refers to, which are never the names of
other directives.

## Main definitions

* `RuleCommand.Rule.expansion` — the expansion of the command of a rule.
* `RuleCommand.Rule.Alike` — rules that differ at most in their names and in what they produce.

## Main results

* `RuleCommand.expand_congr`, `RuleCommand.expand_eq_of_lexemes` — what an expansion depends on.
* `RuleCommand.compile_congr` — what a command depends on beside the expansion.
* `RuleCommand.Rule.Alike.compile_eq` — what a rule, a resolver and variables have to agree on.
* `RuleCommand.expand_canonical` — a canonical template means what the template means that it was
  made from.
* `RuleCommand.compile_eq_of_agreement` — what a rule does not mention has no say in its command.
-/

namespace RuleCommand

variable {rule : Rule} {resolve : Resolver} {vars : Variables}

/-! ## Templates -/

section

variable {deps otherDeps : Dependencies} {otherVars : Variables}

/-- Directives with the same values leave the same expansion behind, or the same error. -/
lemma expand_congr {template : String}
    (h : ∀ d ∈ (Reading.ofText template).directives,
      d.value deps vars = d.value otherDeps otherVars) :
    expand template deps vars = expand template otherDeps otherVars := by
  have hvalues : ∀ piece ∈ (Reading.ofText template).pieces,
      piece.lexeme.value deps vars = piece.lexeme.value otherDeps otherVars := by
    intro piece hpiece
    cases hlexeme : piece.lexeme with
    | literal text => rfl
    | escape => rfl
    | directive d => exact h d (Reading.mem_directives.mpr ⟨piece, hpiece, hlexeme⟩)
  rw [expand, expand, mapM_congr hvalues]

/-- A template is expanded lexeme by lexeme, up to the fault, if any. -/
lemma expand_eq_lexemes (template : String) (deps : Dependencies) (vars : Variables) :
    expand template deps vars = do
      let values ← (Reading.ofText template).lexemes.mapM fun lexeme => lexeme.value deps vars
      match SyntaxError.ofReading? template.toList (Reading.ofText template) with
      | some error => throw (.malformed error)
      | none => return ⟨String.join values,
          (Reading.ofText template).lexemes.any fun lexeme => lexeme.hasKind .depfile⟩ := by
  rw [expand, Reading.lexemes_eq, List.mapM_map, List.any_map]
  rfl

/-- A template that is read to its end is expanded lexeme by lexeme. -/
lemma expand_eq_of_fault?_eq_none {template : String}
    (h : (Reading.ofText template).fault? = none) :
    expand template deps vars = do
      let values ← (Reading.ofText template).lexemes.mapM fun lexeme => lexeme.value deps vars
      return ⟨String.join values,
        (Reading.ofText template).lexemes.any fun lexeme => lexeme.hasKind .depfile⟩ := by
  rw [expand_eq_lexemes, SyntaxError.ofReading?_eq_none_iff.mpr h]

/-- Templates that are read to their ends as the same lexemes have the same expansion, or the same
error. -/
lemma expand_eq_of_lexemes {template other : String}
    (h : (Reading.ofText template).fault? = none) (hother : (Reading.ofText other).fault? = none)
    (hlexemes : (Reading.ofText other).lexemes = (Reading.ofText template).lexemes) :
    expand other deps vars = expand template deps vars := by
  rw [expand_eq_of_fault?_eq_none h, expand_eq_of_fault?_eq_none hother, hlexemes]

end

/-- **A canonical template means what the template means that it was made from**: it is read to its
end as the same lexemes, making it canonical again changes nothing, and it has the same expansion,
or the same error, whatever the dependencies and variables are.

**Proof sketch.** Readable directives are read back from their plainest form
(`Reading.ofText_canonical`), and only lexemes count for an expansion (`expand_eq_of_lexemes`). -/
theorem expand_canonical {template : String} (h : (Reading.ofText template).fault? = none) :
    let canonical := (Reading.ofText template).canonical
    (Reading.ofText canonical).fault? = none ∧
      (Reading.ofText canonical).lexemes = (Reading.ofText template).lexemes ∧
      (Reading.ofText canonical).canonical = canonical ∧
      ∀ (deps : Dependencies) (vars : Variables),
        expand canonical deps vars = expand template deps vars := by
  intro canonical
  have hfault : (Reading.ofText canonical).fault? = none := by rw [Reading.ofText_canonical]
  have hlexemes : (Reading.ofText canonical).lexemes = (Reading.ofText template).lexemes :=
    Reading.lexemes_canonical template
  have hagain : (Reading.ofText canonical).canonical = canonical := by
    rw [Reading.canonical, hlexemes]
    rfl
  exact ⟨hfault, hlexemes, hagain, fun deps vars => expand_eq_of_lexemes h hfault hlexemes⟩

/-- A location with more blanks than it needs, and a label that holds a blank and a dollar sign. -/
theorem expand_canonical_of_blanks :
    (Reading.ofText "$( location\t :a $b )$$x").canonical = "$(location :a $b)$$x" ∧
      (Reading.ofText "$(location :a $b)$$x").fault? = none ∧
      ∀ (deps : Dependencies) (vars : Variables),
        expand "$(location :a $b)$$x" deps vars =
          expand "$( location\t :a $b )$$x" deps vars := by
  have written : (Piece.ofDirective " location\t :a $b ".toList
      ⟨.location, some ":a $b"⟩).IsWritten :=
    .directive (by decide) rfl
  have plain : (Piece.plain ['x']).IsWritten := .plain (by decide) (by decide)
  have hreading : Reading.ofText "$( location\t :a $b )$$x" =
      ⟨[.ofDirective " location\t :a $b ".toList ⟨.location, some ":a $b"⟩, .dollar,
        .plain ['x']], none⟩ :=
    reads_iff.mp (.piece written (by simp [Lexeme.isLiteral, Piece.ofDirective])
      (.piece .dollar (by simp [Lexeme.isLiteral, Piece.dollar]) (.piece plain (by simp) .done)))
  have hcanonical : (Reading.ofText "$( location\t :a $b )$$x").canonical =
      "$(location :a $b)$$x" := by
    rw [hreading]
    rfl
  have hwhole : (Reading.ofText "$( location\t :a $b )$$x").fault? = none := by rw [hreading]
  obtain ⟨hfault, -, -, hexpand⟩ := expand_canonical hwhole
  rw [hcanonical] at hfault hexpand
  exact ⟨hcanonical, hfault, hexpand⟩

/-! ## References -/

/-- Only the answers for declared labels count for the references of a rule. -/
lemma collect_congr {other : Resolver} (h : ∀ label ∈ rule.labels, resolve label = other label) :
    Dependencies.collect rule resolve = Dependencies.collect rule other := by
  have htools : ∀ label ∈ rule.tools,
      Dependencies.resolveTool resolve label = Dependencies.resolveTool other label := by
    intro label hlabel
    rw [Dependencies.resolveTool, Dependencies.resolveTool, h label (by simp [Rule.labels, hlabel])]
  have hfiles : ∀ label ∈ rule.toolFiles ++ rule.sources,
      Dependencies.resolveFiles resolve label = Dependencies.resolveFiles other label := by
    intro label hlabel
    rw [Dependencies.resolveFiles, Dependencies.resolveFiles,
      h label (List.mem_append_right _ hlabel)]
  rw [List.forall_mem_append] at hfiles
  rw [Dependencies.collect, Dependencies.collect, mapM_congr htools, mapM_congr hfiles.1,
    mapM_congr hfiles.2]

/-! ## Rules -/

/-- The expansion of the command of a rule. -/
def Rule.expansion (rule : Rule) (resolve : Resolver) (vars : Variables) :
    Except CompileError Expansion := do
  let deps ← Dependencies.collect rule resolve
  expand rule.command deps vars

/-- A rule whose references can be resolved has the expansion of its template. -/
lemma Resolvable.expansion_eq (h : Resolvable rule resolve) (vars : Variables) :
    rule.expansion resolve vars = expand rule.command (rule.resolved resolve) vars := by
  rw [Rule.expansion, Dependencies.collect_eq_ok_iff.mpr ⟨h, rfl⟩]
  rfl

/-- Beside its expansion, what counts of a rule is whether it produces anything and whether it
declares a dependency file. -/
lemma compile_congr {other : Rule} {otherResolve : Resolver} {otherVars : Variables}
    (houtputs : rule.outputs = [] ↔ other.outputs = []) (hdepfile : rule.depfile = other.depfile)
    (hexpansion : rule.expansion resolve vars = other.expansion otherResolve otherVars) :
    compile rule resolve vars = compile other otherResolve otherVars := by
  have hcompile : ∀ (r : Rule) (p : Resolver) (v : Variables), compile r p v = (do
      checkOutputs r
      let expansion ← r.expansion p v
      checkDepfile r expansion
      return ShellWord.quote expansion.text) := by
    intro r p v
    rw [compile, Rule.expansion]
    simp only [bind_assoc]
  have hcheckOutputs : checkOutputs rule = checkOutputs other := by
    rw [checkOutputs, checkOutputs]
    simp only [houtputs]
  have hcheckDepfile : checkDepfile rule = checkDepfile other := by
    funext expansion
    rw [checkDepfile, checkDepfile, hdepfile]
  rw [hcompile, hcompile, hcheckOutputs, hcheckDepfile, hexpansion]

/-! ## Names -/

/-- Directives of a template are readable. -/
lemma Reading.isReadable_of_mem_directives {template : String} {d : Directive}
    (hd : d ∈ (ofText template).directives) : d.IsReadable := by
  obtain ⟨piece, hpiece, hlexeme⟩ := mem_directives.mp hd
  have hmem : .directive d ∈ (ofText template).lexemes := by
    rw [lexemes_eq]
    exact List.mem_map.mpr ⟨piece, hpiece, hlexeme⟩
  exact Directive.isReadable_of_mem_lexemes hmem

/-- Only the name of a variable is looked up among the variables. -/
lemma value_congr_vars {deps : Dependencies} {others : Variables} {d : Directive}
    (h : ∀ name, d = ⟨.var, some name⟩ → vars.lookup name = others.lookup name)
    (hd : d.argument.isSome = d.kind.takesArgument) :
    d.value deps vars = d.value deps others := by
  obtain ⟨kind, argument⟩ := d
  cases kind with
  | var =>
    obtain ⟨name, rfl⟩ := Option.isSome_iff_exists.mp hd
    simp only [Directive.value, Option.getD_some, h name rfl]
  | bareLocation | location | locations | inputs | outputs | depfile | outputDir => rfl

/-- Rules that may differ in their names, and in what they produce as long as both produce
something or both nothing. -/
structure Rule.Alike (rule other : Rule) : Prop where
  /-- Both produce something, or both nothing. -/
  outputs : rule.outputs = [] ↔ other.outputs = []
  /-- They run the same tools. -/
  tools : rule.tools = other.tools
  /-- They use the same files as tools. -/
  toolFiles : rule.toolFiles = other.toolFiles
  /-- They read the same files. -/
  sources : rule.sources = other.sources
  /-- They have the same template. -/
  command : rule.command = other.command
  /-- Both declare a dependency file, or neither does. -/
  depfile : rule.depfile = other.depfile

/-- A rule is like itself. -/
lemma Rule.Alike.refl (rule : Rule) : rule.Alike rule :=
  ⟨Iff.rfl, rfl, rfl, rfl, rfl, rfl⟩

/-- Like rules have the same command, or the same error, if the resolvers agree on the declared
labels and the variables on the names that are referred to. -/
lemma Rule.Alike.compile_eq {other : Rule} {otherResolve : Resolver} {otherVars : Variables}
    (halike : rule.Alike other)
    (hresolve : ∀ label ∈ rule.labels, resolve label = otherResolve label)
    (hvars : ∀ name, ⟨.var, some name⟩ ∈ (Reading.ofText rule.command).directives →
      vars.lookup name = otherVars.lookup name) :
    compile rule resolve vars = compile other otherResolve otherVars := by
  have hcollect : Dependencies.collect rule resolve = Dependencies.collect other otherResolve := by
    rw [collect_congr hresolve, Dependencies.collect, Dependencies.collect, halike.tools,
      halike.toolFiles, halike.sources]
  have hexpand : ∀ deps, expand rule.command deps vars = expand other.command deps otherVars := by
    intro deps
    rw [← halike.command]
    exact expand_congr fun d hd => value_congr_vars (fun name hname => hvars name (hname ▸ hd))
      (Reading.isSome_argument_of_mem_directives hd)
  refine compile_congr halike.outputs halike.depfile ?_
  rw [Rule.expansion, Rule.expansion, hcollect]
  simp only [hexpand]

/-- **What a rule does not mention has no say in its command**, nor in its error: like rules have
the same one if the resolvers agree on the labels that are declared, and the variables on the names
that are referred to up to the first fault of the template. In particular it does not matter which
values are bound to names that no variable can have, such as those of other directives; and it does
not matter what a label stands for that is not declared, even if a directive asks for it.

**Proof sketch.** The references are resolved by their own labels only (`collect_congr`), and a
directive looks up a name among the variables only if it is a variable (`value_congr_vars`), so that
like rules agree (`Rule.Alike.compile_eq`). The name of a variable is none of a directive of another
kind (`Reading.isReadable_of_mem_directives`). -/
theorem compile_eq_of_agreement :
    (∀ {rule other : Rule} {resolve otherResolve : Resolver} {vars otherVars : Variables},
      rule.Alike other → (∀ label ∈ rule.labels, resolve label = otherResolve label) →
      (∀ name, ⟨.var, some name⟩ ∈ (Reading.ofText rule.command).directives →
        vars.lookup name = otherVars.lookup name) →
      compile rule resolve vars = compile other otherResolve otherVars) ∧
    (∀ (rule : Rule) (resolve : Resolver) {vars otherVars : Variables},
      (∀ name, Directive.IsArgument name → ¬Directive.IsReserved name →
        vars.lookup name = otherVars.lookup name) →
      compile rule resolve vars = compile rule resolve otherVars) ∧
    ∀ (rule : Rule) (resolve : Resolver) (vars : Variables) (label : String)
      (answer : Option Resource), label ∉ rule.labels →
      compile rule (Function.update resolve label answer) vars = compile rule resolve vars := by
  refine ⟨fun halike => halike.compile_eq, fun rule resolve vars otherVars hvars => ?_,
    fun rule resolve vars label answer hlabel => ?_⟩
  · refine (Rule.Alike.refl rule).compile_eq (fun _ _ => rfl) fun name hname => ?_
    cases Reading.isReadable_of_mem_directives hname with
    | var hargument hfree => exact hvars name hargument hfree
  · refine (Rule.Alike.refl rule).compile_eq (fun declared hdeclared => ?_) fun _ _ => rfl
    refine Function.update_of_ne ?_ _ _
    rintro rfl
    exact hlabel hdeclared

/-- Two rules that refer to a label that neither declares: that one of the resolvers knows it, and
that a name like the directive is bound, makes no difference. -/
theorem compile_eq_of_agreement_undeclared :
    compile { name := "a", command := "$(x)$(location y)", outputs := ["out"] } (fun _ => none)
        (Variables.bind {} "x" "v") = .error (.unknownLabel "y") ∧
      compile { name := "b", command := "$(x)$(location y)", outputs := ["other", "out"] }
        (fun _ => some (.files ["f"]))
        ((Variables.bind {} "x" "v").bind "location y" "w") = .error (.unknownLabel "y") := by
  have bound : (Piece.ofDirective "x".toList ⟨.var, some "x"⟩).IsWritten :=
    .directive (by decide) rfl
  have undeclared : (Piece.ofDirective "location y".toList ⟨.location, some "y"⟩).IsWritten :=
    .directive (by decide) rfl
  have hreading : Reading.ofText "$(x)$(location y)" =
      ⟨[.ofDirective "x".toList ⟨.var, some "x"⟩,
        .ofDirective "location y".toList ⟨.location, some "y"⟩], none⟩ :=
    reads_iff.mp (.piece bound (by simp [Lexeme.isLiteral, Piece.ofDirective])
      (.piece undeclared (by simp) .done))
  have h : compile { name := "a", command := "$(x)$(location y)", outputs := ["out"] }
      (fun _ => none) (Variables.bind {} "x" "v") = .error (.unknownLabel "y") := by
    simp only [compile, expand]
    rw [hreading]
    rfl
  refine ⟨h, (compile_eq_of_agreement.1 ?_ ?_ ?_).symm.trans h⟩
  · exact ⟨by simp, rfl, rfl, rfl, rfl, rfl⟩
  · simp [Rule.labels]
  · intro name hname
    have hx : name = "x" := by
      simpa [hreading, Reading.directives, Piece.ofDirective] using hname
    rw [hx]
    rfl

end RuleCommand
