import RuleCommand.Proofs.Rule.Dependence
import RuleCommand.Proofs.Template.CursorRun
import RuleCommand.Proofs.Template.Spelling

set_option autoImplicit false

/-!
# Blanks in directives

The blanks in the directives of a template have no say in the command of a rule. They move what is
behind them, so at most the place that an error of the template is shown at is another one, and the
name that is shown with it.

## Main definitions

* `RuleCommand.SameUpToPlace` — results that differ at most in the place of a fault of a template,
  and in the name that is shown with it.

## Main results

* `RuleCommand.RespacedTemplate.compile` — a template that is spaced anew is compiled to the same
  result up to the place of a fault.
* `RuleCommand.directives_told_by_spelling` — which directives are read, and that their blanks do
  not count.
-/

namespace RuleCommand

/-! ## Results up to places -/

/-- Results that differ at most in the place of a fault of a template, and in the name that is shown
with it. -/
inductive SameUpToPlace {α : Type} : Except CompileError α → Except CompileError α → Prop
  /-- The results are the same. -/
  | same (result : Except CompileError α) : SameUpToPlace result result
  /-- A fault is met in both templates. -/
  | moved {error other : SyntaxError} :
      error.fault.SameUpToName other.fault →
        SameUpToPlace (.error (.malformed error)) (.error (.malformed other))

namespace SameUpToPlace

variable {α β : Type}

/-- What follows results that are the same up to a place gives such results. -/
lemma bind {x y : Except CompileError α} (h : SameUpToPlace x y)
    (next : α → Except CompileError β) : SameUpToPlace (x >>= next) (y >>= next) := by
  cases h with
  | same result => exact .same _
  | moved hfault => exact .moved hfault

/-- Results behind the same first step are the same up to a place if they are so whatever the step
gives. -/
lemma bind_left (x : Except CompileError α) {next other : α → Except CompileError β}
    (h : ∀ a, SameUpToPlace (next a) (other a)) : SameUpToPlace (x >>= next) (x >>= other) := by
  cases x with
  | error error => exact .same _
  | ok a => exact h a

end SameUpToPlace

/-! ## Templates -/

namespace RespacedTemplate

variable {template other : String}

/-- A template that is spaced anew is expanded to the same result up to the place of a fault. -/
lemma expand (h : RespacedTemplate template.toList other.toList) (deps : Dependencies)
    (vars : Variables) :
    SameUpToPlace (expand template deps vars) (expand other deps vars) := by
  obtain ⟨hlexemes, hfault⟩ := h.ofChars
  rw [expand_eq_lexemes, expand_eq_lexemes, Reading.ofText, Reading.ofText, hlexemes]
  refine .bind_left _ fun values => ?_
  simp only [SyntaxError.ofReading?, Reading.located?]
  revert hfault
  generalize (Reading.ofChars template.toList).fault? = fault?,
    (Reading.ofChars other.toList).fault? = otherFault?
  rintro (hfault | _)
  · exact .moved hfault
  · exact .same _

/-- **A template that is spaced anew is compiled to the same result** up to the place of a fault.

**Proof sketch.** The outputs are checked and the references resolved before the template is read,
and what is checked of the dependency file depends on the expansion only. -/
theorem compile (h : RespacedTemplate template.toList other.toList) (rule : Rule)
    (resolve : Resolver) (vars : Variables) :
    SameUpToPlace (compile { rule with command := template } resolve vars)
      (compile { rule with command := other } resolve vars) := by
  refine .bind_left (checkOutputs rule) fun _ => ?_
  refine .bind_left (Dependencies.collect rule resolve) fun deps => ?_
  exact (h.expand deps vars).bind _

end RespacedTemplate

/-! ## Directives -/

/-- The value of a directive that has an argument exactly if its kind takes one does not depend on
what an argument that it lacks is taken for. -/
lemma Directive.value_getD {d : Directive} (h : d.argument.isSome = d.kind.takesArgument)
    (deps : Dependencies) (vars : Variables) (fallback : String) :
    value deps vars ⟨d.kind, some (d.argument.getD fallback)⟩ = d.value deps vars := by
  obtain ⟨kind, argument⟩ := d
  cases argument with
  | some argument => rfl
  | none =>
    cases kind with
    | bareLocation | inputs | outputs | depfile | outputDir => rfl
    | location | locations | var => cases h

/-- An argument that is spelled in parentheses is not empty. -/
lemma Directive.Spells.argument_ne {body : List Char} (hbody : ')' ∉ body) {d : Directive}
    (h : Spells (trim body) d) {argument : String} (hargument : d.argument = some argument) :
    argument ≠ "" := by
  cases isReadable_of_ofBody (ofBody_eq_ok_iff_spells.mpr h) hbody with
  | word _ => cases hargument
  | location hlabel | locations hlabel | var hlabel _ =>
    cases hargument
    exact hlabel.nonempty

/-- **Which directive a body in parentheses is read as** is told by what it spells without the
blanks around it, whatever stands before and behind it: a word that stands for itself, a word that
takes a label with a label behind it, or the name of a variable. Only a body that is blank, and one
that is just the word that cannot do without a label, spell none. So it does not matter which blanks
are put around a body or behind a word that takes a label: the same directive is spelled, and the
command of a rule stays the same, or the error, up to the place of a fault of the template and the
name that is shown with it. What an argument that is lacking is taken for does not matter either,
since none is lacking.

**Proof sketch.** A cursor hands out the directive that the body writes
(`Cursor.next_directive_iff`), and that is the one it spells (`Directive.ofBody_eq_ok_iff_spells`).
Bodies that differ in their blanks are read alike (`Respaced.spells_iff`), so a template that is
spaced anew is read as the same lexemes (`RespacedTemplate.ofChars`), of which alone the command
depends (`RespacedTemplate.compile`). -/
theorem directives_told_by_spelling :
    (∀ {body : List Char}, ')' ∉ body →
      (∀ (before rest : List Char) (d : Directive),
        (Cursor.between before ('$' :: '(' :: (body ++ ')' :: rest))).next =
            .ok (some (.found (byteLength before)
                ⟨byteLength before, byteLength before + (byteLength body + 3), .directive d⟩),
              Cursor.between (before ++ '$' :: '(' :: (body ++ [')'])) rest) ↔
          Directive.Spells (trim body) d) ∧
      ((∃ d, Directive.Spells (trim body) d) ↔
        trim body ≠ [] ∧ trim body ≠ "locations".toList) ∧
      ∀ d argument, Directive.Spells (trim body) d → d.argument = some argument →
        argument ≠ "") ∧
    (∀ {body other : List Char}, Respaced body other →
      (')' ∈ other ↔ ')' ∈ body) ∧
        ∀ d, Directive.Spells (trim other) d ↔ Directive.Spells (trim body) d) ∧
    (∀ {template other : String}, RespacedTemplate template.toList other.toList →
      (Reading.ofText other).lexemes = (Reading.ofText template).lexemes ∧
        ∀ (rule : Rule) (resolve : Resolver) (vars : Variables),
          SameUpToPlace (compile { rule with command := template } resolve vars)
            (compile { rule with command := other } resolve vars)) ∧
    ∀ (template : String), ∀ d ∈ (Reading.ofText template).directives,
      d.argument.isSome = d.kind.takesArgument ∧
        ∀ (deps : Dependencies) (vars : Variables) (fallback : String),
          Directive.value deps vars ⟨d.kind, some (d.argument.getD fallback)⟩ =
            d.value deps vars := by
  refine ⟨fun {body} hbody => ⟨fun before rest d => ?_, ?_, ?_⟩,
    fun h => ⟨h.paren_mem_iff, h.spells_iff⟩, fun h => ⟨h.ofChars.1, h.compile⟩,
    fun template d hd => ?_⟩
  · rw [Cursor.next_directive_iff before hbody, Directive.ofBody_eq_ok_iff_spells]
  · simp only [← Directive.ofBody_eq_ok_iff_spells]
    exact Directive.exists_ofBody_eq_ok_iff
  · exact fun d argument hspells => hspells.argument_ne hbody
  · have hargument := Reading.isSome_argument_of_mem_directives hd
    exact ⟨hargument, Directive.value_getD hargument⟩

/-- Blanks of one to three bytes around a body that stands behind a character of two bytes, and in
front of a label; and a variable without a value behind a location that is spaced anew. -/
theorem directives_told_by_spelling_of_wide_blanks :
    let body := "\u3000locations\t :a b ".toList
    let resolve : Resolver := (Catalog.ofList [(":a", .files ["p"])]).resolve
    let rule (command : String) : Rule := ⟨"gen", command, ["out"], [":a"], [], [], false⟩
    (Cursor.between ['é'] ('$' :: '(' :: (body ++ [')', 'x']))).next =
        .ok (some (.found 2 ⟨2, 24, .directive ⟨.locations, some ":a b"⟩⟩),
          Cursor.between ('é' :: '$' :: '(' :: (body ++ [')'])) ['x']) ∧
      RespacedTemplate "$( location\u00A0 :a )$(in x)".toList "$(location :a)$(in x\u2003)".toList ∧
      compile (rule "$( location\u00A0 :a )$(in x)") resolve {} =
        .error (.unknownVariable "in x") ∧
      compile (rule "$(location :a)$(in x\u2003)") resolve {} =
        .error (.unknownVariable "in x") := by
  intro body resolve rule
  have hspells : Directive.Spells (trim body) ⟨.locations, some ":a b"⟩ :=
    Directive.ofBody_eq_ok_iff_spells.mp rfl
  have hparen : ')' ∉ body := by decide
  have hnext := ((directives_told_by_spelling.1 hparen).1 ['é'] ['x'] _).mpr hspells
  let space : Blanks := ⟨[' '], List.forall_mem_singleton.mpr rfl⟩
  let wide : Blanks := ⟨['\u00A0', ' '], List.all_iff_forall_prop.mp rfl⟩
  have hgap : Respaced "location\u00A0 :a".toList "location :a".toList :=
    @Respaced.gap ("location", .location) wide space ":a".toList (by decide) (by decide) (by decide)
  have hlocation : Respaced " location\u00A0 :a ".toList "location :a".toList :=
    (Respaced.pad space space "location\u00A0 :a".toList).symm.trans hgap
  have hvar : Respaced "in x".toList "in x\u2003".toList :=
    .pad ⟨[], by simp⟩ ⟨['\u2003'], List.forall_mem_singleton.mpr rfl⟩ _
  have htext : "$( location\u00A0 :a )$(in x)".toList =
      '$' :: '(' :: (" location\u00A0 :a ".toList ++
        ')' :: '$' :: '(' :: ("in x".toList ++ [')'])) := by
    decide +kernel
  have hother : "$(location :a)$(in x\u2003)".toList =
      '$' :: '(' :: ("location :a".toList ++
        ')' :: '$' :: '(' :: ("in x\u2003".toList ++ [')'])) := by
    decide +kernel
  have hrespaced : RespacedTemplate "$( location\u00A0 :a )$(in x)".toList
      "$(location :a)$(in x\u2003)".toList := by
    rw [htext, hother]
    exact .directive (by decide) hlocation (.directive (by decide) hvar (.refl []))
  have first : (Piece.ofDirective " location\u00A0 :a ".toList ⟨.location, some ":a"⟩).IsWritten :=
    .directive (by decide) rfl
  have second : (Piece.ofDirective "in x".toList ⟨.var, some "in x"⟩).IsWritten :=
    .directive (by decide) rfl
  have hreads := Reads.piece first (by simp [Lexeme.isLiteral, Piece.ofDirective])
    (.piece second (by simp) .done)
  have hreading : Reading.ofText "$( location\u00A0 :a )$(in x)" =
      ⟨[.ofDirective " location\u00A0 :a ".toList ⟨.location, some ":a"⟩,
        .ofDirective "in x".toList ⟨.var, some "in x"⟩], none⟩ := by
    rw [Reading.ofText, htext]
    exact reads_iff.mp hreads
  let command := "$( location\u00A0 :a )$(in x)"
  have hcollect : Dependencies.collect (rule command) resolve =
      .ok ((rule command).resolved resolve) := rfl
  have hexpand : expand command ((rule command).resolved resolve) {} =
      .error (.unknownVariable "in x") := by
    rw [expand, hreading]
    rfl
  have hcompile : compile (rule command) resolve {} = .error (.unknownVariable "in x") :=
    bind_eq_error_iff.mpr (.inr ⟨(), rfl, bind_eq_error_iff.mpr (.inr ⟨_, hcollect,
      bind_eq_error_iff.mpr (.inl hexpand)⟩)⟩)
  have hsame := (directives_told_by_spelling.2.2.1 hrespaced).2 (rule command) resolve {}
  refine ⟨hnext, hrespaced, hcompile, ?_⟩
  generalize hresult : compile (rule "$(location :a)$(in x\u2003)") resolve {} = result
  replace hsame : SameUpToPlace (.error (.unknownVariable "in x")) result := by
    rw [← hresult, ← hcompile]
    exact hsame
  cases hsame with
  | same => rfl

end RuleCommand
