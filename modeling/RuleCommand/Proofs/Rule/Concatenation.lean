import RuleCommand.Proofs.Rule.Declarations
import RuleCommand.Proofs.Rule.Expansion
import RuleCommand.Proofs.Template.Concatenation

set_option autoImplicit false

/-!
# Expanding templates put one behind the other

Expansion goes through a template piece by piece, so two templates put one behind the other expand
to their expansions put one behind the other. The piece that the boundary may fall into is plain
text, of which it does not matter how it is cut.

## Main definitions

* `RuleCommand.textOf` — the text that pieces leave behind.
* `RuleCommand.CompileError.behind` — an error of a template that was put behind another text.

## Main results

* `RuleCommand.textOf_prepend` — the text of pieces in front of a reading.
* `RuleCommand.expand_append` — the expansion of a concatenation.
-/

namespace RuleCommand

/-! ## The text of pieces -/

section

variable {deps : Dependencies} {vars : Variables}

/-- The text that pieces leave behind, or the error of the first of them that has no value. -/
def textOf (deps : Dependencies) (vars : Variables) (pieces : List Piece) :
    Except CompileError String :=
  (pieces.mapM fun piece : Piece => piece.lexeme.value deps vars).map String.join

lemma textOf_cons (piece : Piece) (pieces : List Piece) :
    textOf deps vars (piece :: pieces) = do
      let text ← piece.lexeme.value deps vars
      let others ← textOf deps vars pieces
      return text ++ others := by
  rw [textOf, textOf, List.mapM_cons]
  cases piece.lexeme.value deps vars with
  | error e => rfl
  | ok text =>
    cases pieces.mapM fun piece => piece.lexeme.value deps vars with
    | error e => rfl
    | ok values => exact congrArg Except.ok String.join_cons

/-- Pieces leave their texts behind one after the other. -/
lemma textOf_append (pieces more : List Piece) :
    textOf deps vars (pieces ++ more) = do
      let text ← textOf deps vars pieces
      let others ← textOf deps vars more
      return text ++ others := by
  rw [textOf, textOf, textOf, List.mapM_append]
  cases pieces.mapM fun piece => piece.lexeme.value deps vars with
  | error e => rfl
  | ok values =>
    cases more.mapM fun piece => piece.lexeme.value deps vars with
    | error e => rfl
    | ok others => exact congrArg Except.ok String.join_append

/-- Two runs of plain text leave the same behind as the one that they become. -/
lemma textOf_glue (piece : Piece) (reading : Reading) :
    textOf deps vars (Reading.glue piece reading).pieces =
      textOf deps vars (piece :: reading.pieces) := by
  rcases Reading.glue_eq_cons_or piece reading with
    hcons | ⟨text, source, more, others, hlexeme, hpieces, hglue⟩
  · rw [hcons, Reading.pieces_cons]
  · rw [hglue, hpieces, textOf_cons, textOf_cons, textOf_cons, hlexeme]
    cases textOf deps vars others with
    | error e => rfl
    | ok rest => exact congrArg Except.ok String.append_assoc

/-- The text of pieces in front of a reading. -/
lemma textOf_prepend (pieces : List Piece) (reading : Reading) :
    textOf deps vars (Reading.prepend pieces reading).pieces =
      textOf deps vars (pieces ++ reading.pieces) := by
  induction pieces with
  | nil => rfl
  | cons piece pieces ih =>
    rw [Reading.prepend_cons, textOf_glue, List.cons_append, textOf_cons, textOf_cons, ih]

/-- Directives are kept when pieces are put in front of a reading. -/
lemma any_hasKind_prepend (kind : Directive.Kind) (pieces : List Piece) (reading : Reading) :
    ((Reading.prepend pieces reading).pieces.any fun piece => piece.lexeme.hasKind kind) =
      (pieces ++ reading.pieces).any fun piece => piece.lexeme.hasKind kind := by
  induction pieces with
  | nil => rfl
  | cons piece pieces ih =>
    rw [List.cons_append, List.any_cons, ← ih, Reading.prepend_cons]
    rcases Reading.glue_eq_cons_or piece (Reading.prepend pieces reading) with
      hcons | ⟨text, source, more, others, hlexeme, hpieces, hglue⟩
    · rw [hcons, Reading.pieces_cons, List.any_cons]
    · rw [hglue, hpieces, hlexeme]
      rfl

/-- A template expands to the text of its pieces, if its reading has no error. -/
lemma expand_eq (template : String) :
    expand template deps vars = (do
      let text ← textOf deps vars (Reading.ofText template).pieces
      match SyntaxError.ofReading? template.toList (Reading.ofText template) with
      | some error => .error (.malformed error)
      | none => return {
          text
          usesDepfile := (Reading.ofText template).pieces.any fun piece =>
            piece.lexeme.hasKind .depfile }) := by
  rw [expand, textOf]
  generalize List.mapM (fun piece : Piece => piece.lexeme.value deps vars) _ = values
  cases values with
  | error e => rfl
  | ok values => rfl

end

/-! ## Concatenations -/

/-- An error of a template that was put behind another text: a fault is in a later place. -/
def CompileError.behind (before : List Char) : CompileError → CompileError
  | malformed error => malformed (error.behind before)
  | error => error

/-- An error that is not a fault of the template is the same wherever the template stands. -/
lemma CompileError.behind_of_kind_ne (before : List Char) {error : CompileError}
    (h : error.kind ≠ .malformed) : error.behind before = error := by
  cases error with
  | malformed error => exact absurd rfl h
  | _ => rfl

section

variable {deps : Dependencies} {vars : Variables} {error : CompileError}

/-- A variable has no value exactly if its name is not bound. -/
lemma value_var_eq_error_iff {argument : Option String} :
    Directive.value deps vars ⟨.var, argument⟩ = .error error ↔
      vars.lookup (argument.getD "") = none ∧ error = .unknownVariable (argument.getD "") := by
  rw [Directive.value]
  cases hlookup : vars.lookup (argument.getD "") with
  | none => simp [eq_comm]
  | some value => simp

/-- That a directive has no value is never a fault of the template. -/
lemma kind_ne_of_value_eq_error {d : Directive} (h : d.value deps vars = .error error) :
    error.kind ≠ .malformed := by
  have hpaths : ∀ label, deps.pathsOf label = .error error → error.kind ≠ .malformed := by
    intro label hlabel
    rcases Dependencies.pathsOf_eq_error_iff.mp hlabel with ⟨-, rfl⟩ | ⟨-, rfl⟩
    · simp [CompileError.kind]
    · simp [CompileError.kind]
  obtain ⟨kind, argument⟩ := d
  cases kind with
  | bareLocation =>
    rcases Dependencies.bareLocation_eq_error_iff.mp h with
      ⟨-, rfl⟩ | ⟨-, ⟨-, rfl⟩ | ⟨-, rfl⟩⟩
    · simp [CompileError.kind]
    · simp [CompileError.kind]
    · simp [CompileError.kind]
  | location =>
    rcases Dependencies.location_eq_error_iff.mp h with hlabel | ⟨paths, -, -, rfl⟩
    · exact hpaths _ hlabel
    · simp [CompileError.kind]
  | locations => exact hpaths _ (Dependencies.locations_eq_error_iff.mp h)
  | var =>
    obtain ⟨-, rfl⟩ := value_var_eq_error_iff.mp h
    simp [CompileError.kind]
  | inputs | outputs | depfile | outputDir => cases h

/-- Pieces have no text exactly if one of them has no value, and the first such one tells why. -/
lemma textOf_eq_error_iff {pieces : List Piece} :
    textOf deps vars pieces = .error error ↔
      FirstBad (fun piece e => piece.lexeme.value deps vars = .error e) pieces error := by
  rw [textOf, ← mapM_eq_error_iff]
  generalize List.mapM (fun piece : Piece => piece.lexeme.value deps vars) pieces = values
  cases values with
  | error e => simp [Except.map]
  | ok values => simp [Except.map]

/-- Pieces have a text exactly if none of them is without a value. -/
lemma exists_textOf_eq_ok_iff {pieces : List Piece} :
    (∃ text, textOf deps vars pieces = .ok text) ↔
      ∀ piece ∈ pieces, ∀ e, piece.lexeme.value deps vars ≠ .error e := by
  rw [← exists_mapM_eq_ok_iff (f := fun piece : Piece => piece.lexeme.value deps vars), textOf]
  generalize List.mapM (fun piece : Piece => piece.lexeme.value deps vars) pieces = values
  cases values with
  | error e => simp [Except.map]
  | ok values => simp [Except.map]

/-- Only a directive can be without a value. -/
lemma exists_of_value_eq_error {lexeme : Lexeme} (h : lexeme.value deps vars = .error error) :
    ∃ d, lexeme = .directive d ∧ d.value deps vars = .error error := by
  cases lexeme with
  | literal text => cases h
  | escape => cases h
  | directive d => exact ⟨d, rfl, h⟩

/-- That pieces have no text is never a fault of the template. -/
lemma kind_ne_of_textOf_eq_error {pieces : List Piece}
    (h : textOf deps vars pieces = .error error) : error.kind ≠ .malformed := by
  obtain ⟨_, piece, _, -, -, hvalue⟩ := textOf_eq_error_iff.mp h
  obtain ⟨d, -, hd⟩ := exists_of_value_eq_error hvalue
  exact kind_ne_of_value_eq_error hd

/-- A template has an expansion exactly if it is read to its end and its pieces have a text. -/
lemma expand_eq_ok_iff_textOf {template : String} {expansion : Expansion} :
    expand template deps vars = .ok expansion ↔
      (Reading.ofText template).fault? = none ∧
        textOf deps vars (Reading.ofText template).pieces = .ok expansion.text ∧
          expansion.usesDepfile =
            (Reading.ofText template).pieces.any fun piece => piece.lexeme.hasKind .depfile := by
  obtain ⟨text, usesDepfile⟩ := expansion
  have hfault : (Reading.ofText template).fault? = none ↔
      SyntaxError.ofReading? template.toList (Reading.ofText template) = none :=
    SyntaxError.ofReading?_eq_none_iff.symm
  rw [expand_eq, hfault]
  cases textOf deps vars (Reading.ofText template).pieces with
  | error e => simp [bind, Except.bind]
  | ok other =>
    cases SyntaxError.ofReading? template.toList (Reading.ofText template) with
    | some fault => simp [bind, Except.bind]
    | none => simp [bind, Except.bind, pure, Except.pure, eq_comm]

/-- A template has no expansion exactly if its pieces have no text, or it is not read to its end. -/
lemma expand_eq_error_iff_textOf {template : String} :
    expand template deps vars = .error error ↔
      textOf deps vars (Reading.ofText template).pieces = .error error ∨
        (∃ text, textOf deps vars (Reading.ofText template).pieces = .ok text) ∧
          ∃ fault, SyntaxError.ofReading? template.toList (Reading.ofText template) = some fault ∧
            error = .malformed fault := by
  rw [expand_eq]
  cases textOf deps vars (Reading.ofText template).pieces with
  | error e => simp [bind, Except.bind]
  | ok other =>
    cases SyntaxError.ofReading? template.toList (Reading.ofText template) with
    | some fault => simp [bind, Except.bind, eq_comm]
    | none => simp [bind, Except.bind, pure, Except.pure]

end

/-- **The expansion of a concatenation** is the concatenation of the expansions. If the first
template has one, an error of the second is the error of the concatenation, but for the place of a
fault, which moves by the first template. If the first has none because a directive in it has no
value, that is the error of the concatenation, whatever stands behind it.

**Proof sketch.** The first template is read to its end, or at least up to the directive without a
value, as a sequence of written pieces, and the rest of the concatenation is read behind them
(`Reading.ofChars_append_of_isWritten`). These pieces leave their text behind in front of the text
of the rest (`textOf_prepend`, `textOf_append`), and move the error of the rest
(`SyntaxError.ofReading?_prepend`). -/
theorem expand_append (deps : Dependencies) (vars : Variables) (first second : String) :
    (∀ expansion, expand first deps vars = .ok expansion →
      expand (first ++ second) deps vars =
        match expand second deps vars with
        | .ok other =>
          .ok ⟨expansion.text ++ other.text, expansion.usesDepfile || other.usesDepfile⟩
        | .error error => .error (error.behind first.toList)) ∧
    ∀ error, expand first deps vars = .error error → error.kind ≠ .malformed →
      expand (first ++ second) deps vars = .error error := by
  have hreads : Reads first.toList (Reading.ofText first) := reads_iff.mpr rfl
  constructor
  · intro expansion h
    obtain ⟨hfault, htext, huses⟩ := expand_eq_ok_iff_textOf.mp h
    have hsource : (Reading.ofText first).pieces.flatMap (·.source) = first.toList :=
      hreads.source_eq hfault
    have hreading : Reading.ofText (first ++ second) =
        .prepend (Reading.ofText first).pieces (Reading.ofText second) := by
      rw [Reading.ofText, String.toList_append, ← hsource]
      exact Reading.ofChars_append_of_isWritten hreads.isWritten second.toList
    have herror := SyntaxError.ofReading?_prepend (Reading.ofText first).pieces second.toList
      (Reading.ofText second)
    rw [hsource] at herror
    rw [expand_eq (first ++ second), expand_eq second, hreading, textOf_prepend, textOf_append,
      htext, String.toList_append, herror, any_hasKind_prepend, List.any_append, ← huses]
    cases hother : textOf deps vars (Reading.ofText second).pieces with
    | error e =>
      exact congrArg Except.error
        (CompileError.behind_of_kind_ne _ (kind_ne_of_textOf_eq_error hother)).symm
    | ok other =>
      cases SyntaxError.ofReading? second.toList (Reading.ofText second) with
      | some fault => rfl
      | none => rfl
  · intro error h hkind
    rcases expand_eq_error_iff_textOf.mp h with htext | ⟨-, fault, -, rfl⟩
    · obtain ⟨rest, hrest, -⟩ := hreads.eq_source_append
      have hreading : Reading.ofText (first ++ second) =
          .prepend (Reading.ofText first).pieces (Reading.ofChars (rest ++ second.toList)) := by
        rw [Reading.ofText, String.toList_append, hrest, List.append_assoc]
        exact Reading.ofChars_append_of_isWritten hreads.isWritten _
      refine expand_eq_error_iff_textOf.mpr (.inl ?_)
      rw [hreading, textOf_prepend, textOf_append, htext]
      rfl
    · exact absurd rfl hkind

/-- A boundary within a run of plain text, in front of a dollar sign at the end: the fault is in the
second line, which starts in the first template. A variable that is not bound comes before it. -/
theorem expand_append_of_faults :
    expand "a\nb" ⟨[], [], []⟩ {} = .ok ⟨"a\nb", false⟩ ∧
    expand "c$" ⟨[], [], []⟩ {} = .error (.malformed ⟨.unexpectedEnd, 1, 2, "c$"⟩) ∧
    expand ("a\nb" ++ "c$") ⟨[], [], []⟩ {} =
      .error (.malformed ⟨.unexpectedEnd, 2, 3, "bc$"⟩) ∧
    expand "$(x)" ⟨[], [], []⟩ {} = .error (.unknownVariable "x") ∧
    expand ("$(x)" ++ "c$") ⟨[], [], []⟩ {} = .error (.unknownVariable "x") := by
  have hfirst : expand "a\nb" ⟨[], [], []⟩ {} = .ok ⟨"a\nb", false⟩ := by
    have written : (Piece.plain "a\nb".toList).IsWritten := .plain (by decide) (by decide)
    have hreading : Reading.ofText "a\nb" = ⟨[.plain "a\nb".toList], none⟩ :=
      reads_iff.mp (.piece written (by simp) .done)
    rw [expand, hreading]
    rfl
  have hsecond : expand "c$" ⟨[], [], []⟩ {} =
      .error (.malformed ⟨.unexpectedEnd, 1, 2, "c$"⟩) := by
    have written : (Piece.plain "c".toList).IsWritten := .plain (by decide) (by decide)
    have hreading : Reading.ofText "c$" = ⟨[.plain "c".toList], some .unexpectedEnd⟩ :=
      reads_iff.mp (.piece written (by simp) (.fault pieceAfterDollar_nil))
    rw [expand, hreading]
    rfl
  have hvariable : expand "$(x)" ⟨[], [], []⟩ {} = .error (.unknownVariable "x") := by
    have written : (Piece.ofDirective "x".toList ⟨.var, some "x"⟩).IsWritten :=
      .directive (by decide) rfl
    have hreading : Reading.ofText "$(x)" =
        ⟨[.ofDirective "x".toList ⟨.var, some "x"⟩], none⟩ :=
      reads_iff.mp (.piece written (by simp) .done)
    rw [expand, hreading]
    rfl
  have hboth := (expand_append ⟨[], [], []⟩ {} "a\nb" "c$").1 _ hfirst
  rw [hsecond] at hboth
  exact ⟨hfirst, hsecond, hboth, hvariable,
    (expand_append ⟨[], [], []⟩ {} "$(x)" "c$").2 _ hvariable (by simp [CompileError.kind])⟩

end RuleCommand
