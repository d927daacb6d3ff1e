import RuleCommand.Expansion
import RuleCommand.Proofs.Outcome
import RuleCommand.Proofs.Template.DirectiveBody
import RuleCommand.Proofs.Template.Splice

set_option autoImplicit false

/-!
# Expanded templates

A template is expanded exactly if it is read to its end and each of its directives has a value, and
then it is the template with an edit made of each directive.

## Main definitions

* `RuleCommand.Reading.directives` — the directives of a reading.
* `RuleCommand.Reading.exchanged` — the text of a reading with values for its directives.

## Main results

* `RuleCommand.Reading.splice_eq_ok_iff` — a template with edits is the text of its reading with
  values.
* `RuleCommand.expand_eq_ok_iff` — when a template is expanded, and to what.
-/

namespace RuleCommand

/-! ## Directives -/

/-- A written directive has an argument exactly if its kind takes one. -/
lemma Piece.IsWritten.isSome_argument {piece : Piece} (written : piece.IsWritten) {d : Directive}
    (hlexeme : piece.lexeme = .directive d) : d.argument.isSome = d.kind.takesArgument := by
  cases written with
  | plain _ _ => simp [Piece.plain] at hlexeme
  | dollar => simp [Piece.dollar] at hlexeme
  | directive _ parsed =>
    cases hlexeme
    exact Directive.isSome_argument parsed

namespace Reading

/-- The directives of a reading, in order. -/
def directives (reading : Reading) : List Directive :=
  reading.pieces.filterMap fun piece =>
    match piece.lexeme with
    | .directive d => some d
    | _ => none

lemma mem_directives {reading : Reading} {d : Directive} :
    d ∈ reading.directives ↔ ∃ piece ∈ reading.pieces, piece.lexeme = .directive d := by
  rw [directives, List.mem_filterMap]
  refine exists_congr fun piece => and_congr_right fun _ => ?_
  cases piece.lexeme <;> simp

/-- A directive that was read has an argument exactly if its kind takes one. -/
lemma isSome_argument_of_mem_directives {template : String} {d : Directive}
    (hd : d ∈ (ofText template).directives) : d.argument.isSome = d.kind.takesArgument := by
  obtain ⟨piece, hpiece, hlexeme⟩ := mem_directives.mp hd
  exact ((reads_ofText template).isWritten piece hpiece).isSome_argument hlexeme

/-- A kind occurs among the pieces exactly if it occurs among the directives. -/
lemma any_hasKind {reading : Reading} {kind : Directive.Kind} :
    (reading.pieces.any fun piece => piece.lexeme.hasKind kind) = true ↔
      ∃ d ∈ reading.directives, d.kind = kind := by
  rw [List.any_eq_true]
  constructor
  · rintro ⟨piece, hpiece, hkind⟩
    cases hlexeme : piece.lexeme with
    | literal text => simp [hlexeme, Lexeme.hasKind] at hkind
    | escape => simp [hlexeme, Lexeme.hasKind] at hkind
    | directive d =>
      rw [hlexeme] at hkind
      exact ⟨d, mem_directives.mpr ⟨piece, hpiece, hlexeme⟩, by simpa [Lexeme.hasKind] using hkind⟩
  · rintro ⟨d, hd, hkind⟩
    obtain ⟨piece, hpiece, hlexeme⟩ := mem_directives.mp hd
    exact ⟨piece, hpiece, by simp [hlexeme, Lexeme.hasKind, hkind]⟩

/-- A kind occurs as often among the pieces as among the directives. -/
lemma countP_hasKind {reading : Reading} {kind : Directive.Kind} :
    (reading.pieces.countP fun piece => piece.lexeme.hasKind kind) =
      reading.directives.countP (·.kind = kind) := by
  rw [directives, List.countP_filterMap]
  refine List.countP_congr fun piece _ => ?_
  cases piece.lexeme <;> simp [Lexeme.hasKind]

/-! ## Values -/

/-- The text of a reading with values for its directives. -/
def exchanged (reading : Reading) (value : Directive → String) : String :=
  String.join (reading.pieces.map fun piece => piece.lexeme.exchanged value)

/-- **A template with edits is the text of its reading with values**, if it is read to its end. -/
theorem splice_eq_ok_iff {template : String} (hfault : (ofText template).fault? = none)
    {value : Directive → String} {text : String} :
    splice template.toList ((ofText template).edits value) = .ok text.toList ↔
      text = (ofText template).exchanged value := by
  have hjoin : ((ofText template).exchanged value).toList =
      (ofText template).pieces.flatMap fun piece => (piece.lexeme.exchanged value).toList := by
    rw [exchanged, String.toList_join, List.flatMap_map]
  rw [(reads_ofText template).splice_eq hfault, Except.ok.injEq, ← hjoin, String.toList_inj,
    eq_comm]

/-- A value stands in the text of a reading. -/
lemma isInfix_exchanged {reading : Reading} {d : Directive} (hd : d ∈ reading.directives)
    (value : Directive → String) : (value d).toList <:+: (reading.exchanged value).toList := by
  obtain ⟨piece, hpiece, hlexeme⟩ := mem_directives.mp hd
  have hinfix := List.infix_of_mem_flatten
    (List.mem_map_of_mem (f := fun piece => (piece.lexeme.exchanged value).toList) hpiece)
  rwa [hlexeme, ← List.flatMap_def, ← List.flatMap_map, ← String.toList_join] at hinfix

end Reading

/-! ## Expansions -/

section

variable {deps : Dependencies} {vars : Variables}

/-- The lexemes of a reading have values exactly if its directives do. -/
lemma mapM_value_eq_ok_iff {reading : Reading} {values : List String} :
    (reading.pieces.mapM fun piece => piece.lexeme.value deps vars) = .ok values ↔
      ∃ value : Directive → String,
        (∀ d ∈ reading.directives, d.value deps vars = .ok (value d)) ∧
          values = reading.pieces.map fun piece => piece.lexeme.exchanged value := by
  constructor
  · intro h
    have hone : ∀ (piece : Piece) (text : String), piece.lexeme.value deps vars = .ok text →
        text = piece.lexeme.exchanged fun d => (d.value deps vars).toOption.getD "" := by
      intro piece text htext
      cases hlexeme : piece.lexeme with
      | literal literal =>
        rw [hlexeme] at htext
        cases htext
        rfl
      | escape =>
        rw [hlexeme] at htext
        cases htext
        rfl
      | directive d =>
        rw [hlexeme] at htext
        rw [Lexeme.exchanged, show d.value deps vars = .ok text from htext]
        rfl
    obtain ⟨hall, rfl⟩ := (mapM_eq_ok_iff hone).mp h
    refine ⟨_, fun d hd => ?_, rfl⟩
    obtain ⟨piece, hpiece, hlexeme⟩ := Reading.mem_directives.mp hd
    obtain ⟨text, htext⟩ := hall piece hpiece
    rw [hlexeme] at htext
    rw [show d.value deps vars = .ok text from htext]
    rfl
  · rintro ⟨value, hvalue, rfl⟩
    refine mapM_eq_ok_map fun piece hpiece => ?_
    cases hlexeme : piece.lexeme with
    | literal text => rfl
    | escape => rfl
    | directive d => exact hvalue d (Reading.mem_directives.mpr ⟨piece, hpiece, hlexeme⟩)

lemma SyntaxError.ofReading?_eq_none_iff {template : List Char} {reading : Reading} :
    ofReading? template reading = none ↔ reading.fault? = none := by
  rw [ofReading?, Reading.located?, Option.map_eq_none_iff, Option.map_eq_none_iff]

/-- **A template is expanded** exactly if it is read to its end and each of its directives has a
value. The expansion is the text of the reading with these values, and it is known whether the
template refers to the dependency file.

**Proof sketch.** The lexemes are given their values one by one, which fails only at a directive
without a value (`mapM_value_eq_ok_iff`); and a reading to the end has no error. -/
theorem expand_eq_ok_iff {template : String} {expansion : Expansion} :
    expand template deps vars = .ok expansion ↔
      (Reading.ofText template).fault? = none ∧ ∃ value : Directive → String,
        (∀ d ∈ (Reading.ofText template).directives, d.value deps vars = .ok (value d)) ∧
          expansion.text = (Reading.ofText template).exchanged value ∧
            (expansion.usesDepfile = true ↔
              ∃ d ∈ (Reading.ofText template).directives, d.kind = .depfile) := by
  rw [expand, bind_eq_ok_iff]
  simp only [← Reading.any_hasKind, mapM_value_eq_ok_iff]
  generalize Reading.ofText template = reading
  constructor
  · rintro ⟨_, ⟨value, hvalue, rfl⟩, h⟩
    cases herror : SyntaxError.ofReading? template.toList reading with
    | some error => simp [herror, throw, throwThe, MonadExceptOf.throw] at h
    | none =>
      rw [herror] at h
      cases h
      exact ⟨SyntaxError.ofReading?_eq_none_iff.mp herror, value, hvalue, rfl, Iff.rfl⟩
  · rintro ⟨hfault, value, hvalue, htext, huses⟩
    refine ⟨_, ⟨value, hvalue, rfl⟩, ?_⟩
    rw [SyntaxError.ofReading?_eq_none_iff.mpr hfault]
    obtain ⟨text, usesDepfile⟩ := expansion
    obtain rfl : text = reading.exchanged value := htext
    obtain rfl : usesDepfile = reading.pieces.any fun piece => piece.lexeme.hasKind .depfile :=
      Bool.coe_iff_coe.mp huses
    rfl

end

end RuleCommand
