import Mathlib.Data.Bool.AllAny
import RuleCommand.Template.Token
import RuleCommand.Proofs.Template.Derivation
import RuleCommand.Proofs.Template.DirectiveBody

set_option autoImplicit false

/-!
# Canonical templates

A directive can be written in many ways, of which one is the plainest: without blanks next to the
parentheses, and with a single space before a label. Which directives can be read at all is told by
their arguments, and each of these is read back from its plainest form. A template in which every
piece is written so is canonical: it is read as the same lexemes, in other places.

## Main definitions

* `RuleCommand.Directive.IsArgument` — the texts that a directive can have as its argument.
* `RuleCommand.Directive.IsReserved` — the names that no variable can have.
* `RuleCommand.Directive.IsReadable` — the directives that can be read.
* `RuleCommand.Reading.canonical` — the lexemes of a reading in their plainest form.

## Main results

* `RuleCommand.Directive.isReadable_of_ofBody`, `RuleCommand.Directive.IsReadable.ofBody_body` —
  what is read is readable, and is read back from its plainest form.
* `RuleCommand.Reads.of_isChain` — written pieces are read back.
* `RuleCommand.Reading.ofText_canonical` — what is read of a canonical template.
* `RuleCommand.Directive.reads_back_iff_isReadable` — just the readable directives are read back.
-/

namespace RuleCommand

namespace Directive

/-! ## Readable directives -/

/-- A text that a directive can have as its argument. -/
structure IsArgument (text : String) : Prop where
  /-- It is not empty. -/
  nonempty : text ≠ ""
  /-- It neither starts nor ends with a blank. -/
  trimmed : IsTrimmed text.toList
  /-- It does not close the directive. -/
  noParen : ')' ∉ text.toList

/-- The names that no variable can have: four words with a meaning of their own, and whatever
starts with one of the two words for locations. -/
def IsReserved (name : String) : Prop :=
  name ∈ ["in", "out", "depfile", "genDir"] ∨
    String.ofList (firstWord name.toList) ∈ ["location", "locations"]

instance : DecidablePred IsReserved := fun name =>
  inferInstanceAs (Decidable (name ∈ ["in", "out", "depfile", "genDir"] ∨
    String.ofList (firstWord name.toList) ∈ ["location", "locations"]))

example : ∀ name ∈ ["in", "out", "depfile", "genDir", "location", "location x"],
    IsReserved name := by
  decide

/-- The directives that can be read. -/
inductive IsReadable : Directive → Prop
  /-- A word with a meaning of its own. -/
  | word {kind : Kind} : kind.takesArgument = false → IsReadable ⟨kind, none⟩
  /-- The location of a label. -/
  | location {label : String} : IsArgument label → IsReadable ⟨.location, some label⟩
  /-- The locations of a label. -/
  | locations {label : String} : IsArgument label → IsReadable ⟨.locations, some label⟩
  /-- The value of a variable. -/
  | var {name : String} : IsArgument name → ¬IsReserved name → IsReadable ⟨.var, some name⟩

instance : DecidablePred IsArgument := fun text =>
  decidable_of_iff (text ≠ "" ∧ (text.toList.head?.all fun c => !isBlank c) = true ∧
      (text.toList.getLast?.all fun c => !isBlank c) = true ∧ ')' ∉ text.toList) <| by
    simp only [Option.all_eq_true, Bool.not_eq_true']
    exact ⟨fun h => ⟨h.1, ⟨h.2.1, h.2.2.1⟩, h.2.2.2⟩,
      fun h => ⟨h.nonempty, h.trimmed.1, h.trimmed.2, h.noParen⟩⟩

/-- A directive without an argument is readable if its kind takes none. -/
lemma isReadable_none_iff {kind : Kind} :
    IsReadable ⟨kind, none⟩ ↔ kind.takesArgument = false := by
  constructor
  · intro h
    cases h with
    | word hkind => exact hkind
  · exact .word

/-- A directive with an argument is readable if its kind takes such an argument. -/
lemma isReadable_some_iff {kind : Kind} {argument : String} :
    IsReadable ⟨kind, some argument⟩ ↔ IsArgument argument ∧
      (kind = .location ∨ kind = .locations ∨ kind = .var ∧ ¬IsReserved argument) := by
  constructor
  · intro h
    cases h with
    | location hlabel => exact ⟨hlabel, .inl rfl⟩
    | locations hlabel => exact ⟨hlabel, .inr (.inl rfl)⟩
    | var hname hfree => exact ⟨hname, .inr (.inr ⟨rfl, hfree⟩)⟩
  · rintro ⟨hargument, rfl | rfl | ⟨rfl, hfree⟩⟩
    · exact .location hargument
    · exact .locations hargument
    · exact .var hargument hfree

instance : DecidablePred IsReadable
  | ⟨_, none⟩ => decidable_of_iff' _ isReadable_none_iff
  | ⟨_, some _⟩ => decidable_of_iff' _ isReadable_some_iff

/-- What is behind the first word of a trimmed text is not only blanks. -/
lemma isArgument_afterWord {text : List Char} (htrimmed : IsTrimmed text) (hparen : ')' ∉ text)
    (hword : afterWord text ≠ []) : IsArgument (String.ofList (trim (afterWord text))) := by
  have hlast : ∀ c ∈ (afterWord text).getLast?, isBlank c = false := by
    intro c hc
    apply htrimmed.2
    rw [← firstWord_append_afterWord text, List.getLast?_append, Option.mem_def.mp hc]
    rfl
  have hafter : ')' ∉ afterWord text := fun h => hparen ((List.dropWhile_suffix _).subset h)
  refine ⟨?_, ?_, ?_⟩
  · simpa using trim_ne_nil hword hlast
  · simpa using isTrimmed_trim (afterWord text)
  · simpa using not_mem_trim hafter

/-- A word that stands for itself takes no argument. -/
lemma takesArgument_of_mem_ownWords {word : String} {kind : Kind} (h : (word, kind) ∈ ownWords) :
    kind.takesArgument = false := by
  have hall : ∀ entry ∈ ownWords, entry.2.takesArgument = false := by decide
  exact hall _ h

/-- A single word that is read is readable. -/
lemma isReadable_of_ofWord {text : List Char} (hword : afterWord text = [])
    (hargument : IsArgument (String.ofList text)) {d : Directive}
    (h : ofWord (String.ofList text) = .ok d) : d.IsReadable := by
  rcases ofWord_eq_ok_iff.mp h with ⟨kind, hkind, rfl⟩ | ⟨hlocations, hname, rfl⟩
  · exact .word (takesArgument_of_mem_ownWords hkind)
  · refine .var hargument ?_
    rw [IsReserved, String.toList_ofList, firstWord_eq_self hword]
    simp_all [ownWords]

/-- Several words are read as a readable directive. -/
lemma isReadable_ofPhrase {text : List Char} (hword : afterWord text ≠ [])
    (hargument : IsArgument (String.ofList text))
    (hlabel : IsArgument (String.ofList (trim (afterWord text)))) :
    (ofPhrase (String.ofList (firstWord text)) (String.ofList (trim (afterWord text)))
      (String.ofList text)).IsReadable := by
  rcases ofPhrase_eq_iff.mp rfl with ⟨kind, hkind, hphrase⟩ | ⟨hfirst, hphrase⟩
  · rw [hphrase]
    rcases List.mem_pair.mp hkind with hlocation | hlocations
    · obtain ⟨-, rfl⟩ := Prod.mk.inj hlocation
      exact .location hlabel
    · obtain ⟨-, rfl⟩ := Prod.mk.inj hlocations
      exact .locations hlabel
  · rw [hphrase]
    refine .var hargument ?_
    rintro (hname | hname)
    · have hnoWord : ∀ word ∈ ["in", "out", "depfile", "genDir"], afterWord word.toList = [] := by
        decide
      have hnone := hnoWord _ hname
      rw [String.toList_ofList] at hnone
      exact hword hnone
    · rw [String.toList_ofList] at hname
      simp_all [labelWords]

/-- What is read of a body is readable. -/
theorem isReadable_of_ofBody {body : List Char} {d : Directive} (h : ofBody body = .ok d)
    (hbody : ')' ∉ body) : d.IsReadable := by
  have hparen : ')' ∉ trim body := not_mem_trim hbody
  have htrimmed := isTrimmed_trim body
  by_cases hempty : trim body = []
  · simp [ofBody_of_trim_eq_nil hempty] at h
  have hwhole : IsArgument (String.ofList (trim body)) :=
    ⟨by simpa using hempty, by simpa using htrimmed, by simpa using hparen⟩
  by_cases hword : afterWord (trim body) = []
  · rw [ofBody_of_word hempty hword] at h
    exact isReadable_of_ofWord hword hwhole h
  · rw [ofBody_of_phrase hempty hword] at h
    cases h
    exact isReadable_ofPhrase hword hwhole (isArgument_afterWord htrimmed hparen hword)

/-! ## Plainest forms -/

/-- A phrase is read by its first word and its label, whatever blanks are between them. -/
lemma ofBody_append {word blanks label : List Char} (hne : word ≠ [])
    (hword : ∀ c ∈ word, isBlank c = false) (hblanks : blanks ≠ [])
    (hblank : ∀ c ∈ blanks, isBlank c = true) (hlabel : label ≠ []) (htrimmed : IsTrimmed label) :
    ofBody (word ++ (blanks ++ label)) = .ok (ofPhrase (String.ofList word) (String.ofList label)
      (String.ofList (word ++ (blanks ++ label)))) := by
  have htrim : trim (word ++ (blanks ++ label)) = word ++ (blanks ++ label) := by
    refine trim_eq_self ⟨fun c hc => ?_, fun c hc => ?_⟩
    · rw [List.head?_append_of_ne_nil _ hne] at hc
      exact hword c (List.mem_of_mem_head? hc)
    · rw [← List.append_assoc, List.getLast?_append_of_ne_nil _ hlabel] at hc
      exact htrimmed.2 c hc
  have hfollows : ∀ c ∈ (blanks ++ label).head?, isBlank c = true := by
    intro c hc
    rw [List.head?_append_of_ne_nil _ hblanks] at hc
    exact hblank c (List.mem_of_mem_head? hc)
  obtain ⟨hfirst, hafter⟩ := firstWord_append hword hfollows
  have hempty : trim (word ++ (blanks ++ label)) ≠ [] := by simp [htrim, hne]
  have hseveral : afterWord (trim (word ++ (blanks ++ label))) ≠ [] := by
    simp [htrim, hafter, hblanks]
  rw [ofBody_of_phrase hempty hseveral, htrim, hfirst, hafter, trim_append_of_isBlank hblank,
    trim_eq_self htrimmed]

/-- A phrase with a single space in it is read by its two parts. -/
lemma ofBody_phrase {label : String} (hlabel : IsArgument label) (word : String) (hne : word ≠ "")
    (hword : ∀ c ∈ word.toList, isBlank c = false) :
    ofBody (word ++ " " ++ label).toList = .ok (ofPhrase word label (word ++ " " ++ label)) := by
  have hspace : ∀ c ∈ [' '], isBlank c = true := List.forall_mem_singleton.mpr rfl
  have h := ofBody_append (by simpa using hne) hword (by simp) hspace
    (by simpa using hlabel.nonempty) hlabel.trimmed
  have hwhole : (word ++ " " ++ label).toList = word.toList ++ ([' '] ++ label.toList) := by
    rw [String.toList_append, String.toList_append, List.append_assoc]
    rfl
  rw [← hwhole] at h
  simpa only [String.ofList_toList] using h

/-- A name that is not reserved is read as that of a variable. -/
lemma ofBody_of_not_isReserved {name : String} (hname : IsArgument name)
    (hfree : ¬IsReserved name) : ofBody name.toList = .ok ⟨.var, some name⟩ := by
  have htrim : trim name.toList = name.toList := trim_eq_self hname.trimmed
  have hempty : trim name.toList ≠ [] := by simpa [htrim] using hname.nonempty
  rw [IsReserved, not_or] at hfree
  by_cases hword : afterWord name.toList = []
  · rw [firstWord_eq_self hword, String.ofList_toList] at hfree
    rw [ofBody_of_word hempty (by rwa [htrim]), htrim, String.ofList_toList]
    unfold ofWord
    split <;> simp_all
  · rw [ofBody_of_phrase hempty (by rwa [htrim]), htrim, String.ofList_toList]
    unfold ofPhrase
    split <;> simp_all

/-- A readable directive is read back from its plainest form. -/
theorem IsReadable.ofBody_body {d : Directive} (h : d.IsReadable) :
    ofBody d.body.toList = .ok d := by
  cases h with
  | @word kind hkind =>
    cases kind with
    | bareLocation | inputs | outputs | depfile | outputDir => rfl
    | location | locations | var => cases hkind
  | location hlabel =>
    exact ofBody_phrase hlabel "location" (by decide) (List.all_iff_forall_prop.mp rfl)
  | locations hlabel =>
    exact ofBody_phrase hlabel "locations" (by decide) (List.all_iff_forall_prop.mp rfl)
  | var hname hfree => exact ofBody_of_not_isReserved hname hfree

/-- The plainest form of a readable directive is closed at its end only. -/
lemma IsReadable.not_mem_body {d : Directive} (h : d.IsReadable) : ')' ∉ d.body.toList := by
  cases h with
  | @word kind hkind =>
    cases kind with
    | bareLocation | inputs | outputs | depfile | outputDir => decide
    | location | locations | var => cases hkind
  | location hlabel | locations hlabel =>
    rw [body, String.toList_append, List.mem_append, not_or]
    exact ⟨by decide, hlabel.noParen⟩
  | var hname _ => exact hname.noParen

end Directive

/-- A directive that was read is readable. -/
lemma Piece.IsWritten.isReadable {piece : Piece} (written : piece.IsWritten) {d : Directive}
    (hlexeme : piece.lexeme = .directive d) : d.IsReadable := by
  cases written with
  | plain _ _ | dollar => cases hlexeme
  | directive hbody parsed =>
    cases hlexeme
    exact Directive.isReadable_of_ofBody parsed hbody

/-! ## Plainest pieces -/

/-- The piece that writes a lexeme in its plainest form. -/
def Lexeme.toPiece (lexeme : Lexeme) : Piece :=
  ⟨lexeme.render.toList, lexeme⟩

lemma Lexeme.toPiece_literal (text : List Char) :
    toPiece (.literal (String.ofList text)) = .plain text := by
  rw [toPiece, render, String.toList_ofList, Piece.plain]

lemma Lexeme.toPiece_directive (d : Directive) :
    toPiece (.directive d) = .ofDirective d.body.toList d := by
  rw [toPiece, render, Directive.render, String.toList_append, String.toList_append,
    Piece.ofDirective]
  rfl

/-- A written piece is written in its plainest form, too. -/
lemma Piece.IsWritten.toPiece {piece : Piece} (written : piece.IsWritten) :
    piece.lexeme.toPiece.IsWritten := by
  cases written with
  | plain nonempty noDollar =>
    rw [Piece.plain, Lexeme.toPiece_literal]
    exact .plain nonempty noDollar
  | dollar => exact .dollar
  | directive hbody parsed =>
    have hreadable := Directive.isReadable_of_ofBody parsed hbody
    rw [Piece.ofDirective, Lexeme.toPiece_directive]
    exact .directive hreadable.not_mem_body hreadable.ofBody_body

/-- Written pieces are read back, if no two runs of plain text stand one behind the other.

**Proof sketch.** Induction on the pieces: each is read in front of the others, which start with a
dollar sign if it is plain text. -/
theorem Reads.of_isChain {pieces : List Piece} (written : ∀ piece ∈ pieces, piece.IsWritten)
    (separate : pieces.IsChain fun a b =>
      ¬(a.lexeme.isLiteral = true ∧ b.lexeme.isLiteral = true)) :
    Reads (pieces.flatMap (·.source)) ⟨pieces, none⟩ := by
  induction pieces with
  | nil => exact .done
  | cons piece pieces ih =>
    rw [List.forall_mem_cons] at written
    rw [List.isChain_cons] at separate
    refine .piece written.1 (fun hliteral => ?_) (ih written.2 separate.2)
    cases pieces with
    | nil => simp
    | cons next others =>
      have hnext := separate.1 next rfl
      rcases (written.2 next List.mem_cons_self).eq_plain_or with
        ⟨run, -, -, rfl⟩ | ⟨-, hdollar⟩
      · exact absurd ⟨hliteral, rfl⟩ hnext
      · obtain ⟨text, htext⟩ := hdollar (others.flatMap (·.source))
        rw [List.flatMap_cons, htext]
        simp

namespace Reading

/-- The lexemes of a reading, without their places. -/
def lexemes (reading : Reading) : List Lexeme :=
  reading.tokens.map (·.lexeme)

/-- The lexemes of a reading are those of its pieces. -/
lemma lexemes_eq (reading : Reading) : reading.lexemes = reading.pieces.map (·.lexeme) :=
  map_lexeme_tokensFrom 0 reading.pieces

/-- The lexemes of a reading in their plainest form, one behind the other. -/
def canonical (reading : Reading) : String :=
  String.join (reading.lexemes.map Lexeme.render)

/-- A canonical template is read to its end, each lexeme from its plainest form.

**Proof sketch.** The pieces that write the lexemes in their plainest form are written as the
pieces that were read are (`Piece.IsWritten.toPiece`), and they are of the same kinds, so that no
two runs of plain text meet (`Reads.of_isChain`). -/
theorem ofText_canonical (template : String) :
    ofText (ofText template).canonical =
      ⟨(ofText template).lexemes.map Lexeme.toPiece, none⟩ := by
  have hreads := reads_ofText template
  have hwritten : ∀ piece ∈ (ofText template).pieces.map (·.lexeme.toPiece), piece.IsWritten := by
    rw [List.forall_mem_map]
    exact fun piece hpiece => (hreads.isWritten piece hpiece).toPiece
  have hcanonical := Reads.of_isChain hwritten (by rw [List.isChain_map]; exact hreads.isChain)
  have htext : (ofText template).canonical.toList =
      ((ofText template).pieces.map (·.lexeme.toPiece)).flatMap (·.source) := by
    rw [canonical, lexemes_eq, String.toList_join, List.flatMap_map, List.flatMap_map,
      List.flatMap_map]
    rfl
  rw [ofText, htext, reads_iff.mp hcanonical, lexemes_eq, List.map_map]
  rfl

/-- **A canonical template has the lexemes it was made from.** -/
theorem lexemes_canonical (template : String) :
    (ofText (ofText template).canonical).lexemes = (ofText template).lexemes := by
  rw [lexemes_eq, ofText_canonical, List.map_map]
  exact List.map_id _

end Reading

/-! ## Reading back -/

namespace Directive

/-- A directive among the lexemes of a template is readable. -/
lemma isReadable_of_mem_lexemes {template : String} {d : Directive}
    (h : .directive d ∈ (Reading.ofText template).lexemes) : d.IsReadable := by
  rw [Reading.lexemes_eq, List.mem_map] at h
  obtain ⟨piece, hpiece, hlexeme⟩ := h
  exact ((reads_ofText template).isWritten piece hpiece).isReadable hlexeme

/-- A readable directive in its plainest form is a template of one piece. -/
lemma IsReadable.ofText_render {d : Directive} (h : d.IsReadable) :
    Reading.ofText d.render = ⟨[.ofDirective d.body.toList d], none⟩ := by
  have written : (Piece.ofDirective d.body.toList d).IsWritten :=
    .directive h.not_mem_body h.ofBody_body
  have hreads := Reads.piece written (by simp) .done
  rw [← Lexeme.toPiece_directive, List.append_nil] at hreads
  rw [Reading.ofText, ← Lexeme.toPiece_directive]
  exact reads_iff.mp hreads

/-- **Just the readable directives are read back from their plainest form**, and whatever directive
is read of a template is readable.

**Proof sketch.** The plainest form of a readable directive is read as that directive
(`IsReadable.ofText_render`). Conversely a directive that is read back is read of a template, and
the body it was read of makes it readable (`isReadable_of_ofBody`). -/
theorem reads_back_iff_isReadable :
    (∀ d : Directive, ((Reading.ofText d.render).fault? = none ∧
      (Reading.ofText d.render).lexemes = [.directive d]) ↔ d.IsReadable) ∧
    ∀ (template : String) (d : Directive),
      .directive d ∈ (Reading.ofText template).lexemes → d.IsReadable := by
  refine ⟨fun d => ⟨?_, ?_⟩, fun template d => isReadable_of_mem_lexemes⟩
  · rintro ⟨-, hlexemes⟩
    exact isReadable_of_mem_lexemes (by rw [hlexemes]; exact List.mem_singleton_self _)
  · intro h
    rw [Reading.lexemes_eq, h.ofText_render]
    exact ⟨rfl, rfl⟩

/-- A name that holds a dollar sign and a parenthesis is read back, but not a label that ends with
a blank or is empty, a name that starts with a word for locations, or an argument that is not
written. -/
theorem reads_back_iff_isReadable_near_misses :
    .directive ⟨.var, some "a $("⟩ ∈ (Reading.ofText (render ⟨.var, some "a $("⟩)).lexemes ∧
    IsReadable ⟨.var, some "a $("⟩ ∧
    ∀ d ∈ [⟨.location, some "a\u00A0"⟩, ⟨.locations, some ""⟩, ⟨.var, some "location x"⟩,
      ⟨.inputs, some "x"⟩, ⟨.var, none⟩],
      ¬((Reading.ofText (render d)).fault? = none ∧
        (Reading.ofText (render d)).lexemes = [.directive d]) := by
  have hname : IsReadable ⟨.var, some "a $("⟩ := by decide
  have hread : .directive ⟨.var, some "a $("⟩ ∈
      (Reading.ofText (render ⟨.var, some "a $("⟩)).lexemes := by
    rw [((reads_back_iff_isReadable.1 _).mpr hname).2]
    exact List.mem_singleton_self _
  refine ⟨hread, reads_back_iff_isReadable.2 _ _ hread, fun d hd => ?_⟩
  rw [reads_back_iff_isReadable.1]
  revert d
  decide

end Directive

end RuleCommand
