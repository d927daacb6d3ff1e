import Mathlib.Data.List.Chain
import RuleCommand.Template.Reading

set_option autoImplicit false

/-!
# Derivations of readings

A reading is derived from the end of a template to its start: nothing is read of nothing, a fault
stands at a dollar sign with which no piece starts, and a piece is put in front of what was read
behind it. A run of plain text may only be put in front of a dollar sign or the end, since it
reaches that far. Each template has exactly one derivation, which is the reading that is computed,
so facts about readings are proved by induction on derivations, one case for each way to start.

## Main definitions

* `RuleCommand.Piece.IsWritten` — a piece that stands for what its source writes.
* `RuleCommand.Reads` — a reading derived from a template.

## Main results

* `RuleCommand.pieceAfterDollar_eq_ok_iff` — the pieces that start at a dollar sign.
* `RuleCommand.reads_iff` — the reading that is derived is the one that is computed.
* `RuleCommand.Reads.eq_source_append` — how a template starts with what was read of it.
-/

namespace RuleCommand

/-! ## Written pieces -/

/-- Whether a lexeme is a run of plain text. -/
def Lexeme.isLiteral : Lexeme → Bool
  | .literal _ => true
  | _ => false

/-- A piece that stands for what its source writes. -/
inductive Piece.IsWritten : Piece → Prop
  /-- Plain text is not empty and holds no dollar sign. -/
  | plain {text : List Char} : text ≠ [] → '$' ∉ text → IsWritten (.plain text)
  /-- A doubled dollar sign stands for itself. -/
  | dollar : IsWritten .dollar
  /-- A directive ends at its first closing parenthesis. -/
  | directive {body : List Char} {d : Directive} :
      ')' ∉ body → Directive.ofBody body = .ok d → IsWritten (.ofDirective body d)

/-- A run of other characters reaches up to the first occurrence of a character. -/
lemma takeWhile_ne_append {c : Char} {run : List Char} (hrun : c ∉ run) (rest : List Char)
    (hrest : ∀ d ∈ rest.head?, d = c) :
    (run ++ rest).takeWhile (· != c) = run ∧ (run ++ rest).dropWhile (· != c) = rest := by
  have hall : ∀ a ∈ run, (a != c) = true := by
    intro a ha
    rw [bne_iff_ne]
    rintro rfl
    exact hrun ha
  rw [List.takeWhile_append_of_pos hall, List.dropWhile_append_of_pos hall]
  cases rest with
  | nil => simp
  | cons d rest =>
    obtain rfl : d = c := hrest d (by simp)
    simp

/-- A character does not occur in the run of other characters before it. -/
lemma not_mem_takeWhile_ne (c : Char) (text : List Char) : c ∉ text.takeWhile (· != c) := by
  intro h
  have := List.all_eq_true.mp (List.all_takeWhile (p := (· != c)) (l := text)) c h
  simp at this

/-- The rest behind a run of other characters starts with the character, if at all. -/
lemma eq_of_mem_head?_dropWhile_ne {c : Char} {text : List Char} :
    ∀ d ∈ (text.dropWhile (· != c)).head?, d = c := by
  intro d hd
  have h := List.head?_dropWhile_not (· != c) text
  rw [Option.mem_def] at hd
  simpa [hd] using h

/-! ## The piece at a dollar sign -/

/-- What can follow a dollar sign. -/
inductive AfterDollar : List Char → Prop
  /-- The end of the template. -/
  | nothing : AfterDollar []
  /-- Another dollar sign. -/
  | dollar (rest : List Char) : AfterDollar ('$' :: rest)
  /-- A parenthesis that is never closed. -/
  | unclosed {inner : List Char} : ')' ∉ inner → AfterDollar ('(' :: inner)
  /-- A body in parentheses. -/
  | closed {body : List Char} (rest : List Char) :
      ')' ∉ body → AfterDollar ('(' :: (body ++ ')' :: rest))
  /-- Any other character. -/
  | other {c : Char} (rest : List Char) : c ≠ '$' → c ≠ '(' → AfterDollar (c :: rest)

/-- What follows a dollar sign is one of these. -/
lemma afterDollar (text : List Char) : AfterDollar text := by
  match text with
  | [] => exact .nothing
  | c :: rest =>
    by_cases hdollar : c = '$'
    · rw [hdollar]
      exact .dollar rest
    by_cases hparen : c = '('
    · subst hparen
      by_cases hclose : ')' ∈ rest
      · obtain ⟨body, behind, rfl, hbody⟩ := List.eq_append_cons_of_mem hclose
        exact .closed behind hbody
      · exact .unclosed hclose
    · exact .other rest hdollar hparen

lemma pieceAfterDollar_nil : pieceAfterDollar [] = .error .unexpectedEnd := rfl

lemma pieceAfterDollar_dollar (rest : List Char) :
    pieceAfterDollar ('$' :: rest) = .ok (.dollar, rest) := rfl

lemma pieceAfterDollar_unclosed {inner : List Char} (h : ')' ∉ inner) :
    pieceAfterDollar ('(' :: inner) = .error .missingParen := by
  obtain ⟨-, hdrop⟩ := takeWhile_ne_append h [] (by simp)
  rw [List.append_nil] at hdrop
  rw [pieceAfterDollar]
  simp only [hdrop]

/-- An opening parenthesis that is closed starts the directive that its body writes. -/
lemma pieceAfterDollar_closed {body : List Char} (h : ')' ∉ body) (rest : List Char) :
    pieceAfterDollar ('(' :: (body ++ ')' :: rest)) =
      (Directive.ofBody body).map fun d => (.ofDirective body d, rest) := by
  obtain ⟨htake, hdrop⟩ := takeWhile_ne_append h (')' :: rest) (by simp)
  rw [pieceAfterDollar]
  simp only [htake, hdrop]

lemma pieceAfterDollar_other {c : Char} (hdollar : c ≠ '$') (hparen : c ≠ '(')
    (rest : List Char) :
    pieceAfterDollar (c :: rest) =
      if isBlank c then .error (.unexpectedCharacter c)
      else .error (.missingOpenParen (String.ofList (firstWord (c :: rest)))) := by
  rw [pieceAfterDollar] <;> simp_all

/-- The pieces that start at a dollar sign are the written ones but plain text.

**Proof sketch.** A piece is read only where another dollar sign or a body in parentheses follows,
and then it is a doubled dollar sign or the directive of that body. Conversely both are read back
from what they write. -/
theorem pieceAfterDollar_eq_ok_iff {text rest : List Char} {piece : Piece} :
    pieceAfterDollar text = .ok (piece, rest) ↔
      piece.IsWritten ∧ piece.lexeme.isLiteral = false ∧ piece.source ++ rest = '$' :: text := by
  constructor
  · intro h
    have happ := append_of_pieceAfterDollar h
    cases afterDollar text with
    | nothing => simp [pieceAfterDollar_nil] at h
    | dollar behind =>
      cases h
      exact ⟨.dollar, rfl, happ⟩
    | unclosed hinner => simp [pieceAfterDollar_unclosed hinner] at h
    | @closed body behind hbody =>
      rw [pieceAfterDollar_closed hbody] at h
      cases parsed : Directive.ofBody body with
      | error fault => simp [parsed, Except.map] at h
      | ok d =>
        rw [parsed] at h
        cases h
        exact ⟨.directive hbody parsed, rfl, happ⟩
    | other behind hdollar hparen =>
      rw [pieceAfterDollar_other hdollar hparen] at h
      split at h <;> simp at h
  · rintro ⟨written, notLiteral, happ⟩
    cases written with
    | plain _ _ => simp [Lexeme.isLiteral, Piece.plain] at notLiteral
    | dollar =>
      simp only [Piece.dollar, List.cons_append, List.nil_append, List.cons.injEq,
        true_and] at happ
      rw [← happ, pieceAfterDollar_dollar]
    | directive hbody parsed =>
      simp only [Piece.ofDirective, List.cons_append, List.append_assoc, List.nil_append,
        List.cons.injEq, true_and] at happ
      rw [← happ, pieceAfterDollar_closed hbody, parsed]
      rfl

/-! ## Derivations -/

/-- A reading derived from a template. -/
inductive Reads : List Char → Reading → Prop
  /-- Nothing is read of nothing. -/
  | done : Reads [] ⟨[], none⟩
  /-- A fault stands at a dollar sign with which no piece starts. -/
  | fault {rest : List Char} {fault : Fault} :
      pieceAfterDollar rest = .error fault → Reads ('$' :: rest) ⟨[], some fault⟩
  /-- A piece is read before the rest. Plain text reaches up to a dollar sign or the end. -/
  | piece {piece : Piece} {rest : List Char} {reading : Reading} :
      piece.IsWritten → (piece.lexeme.isLiteral = true → ∀ c ∈ rest.head?, c = '$') →
        Reads rest reading → Reads (piece.source ++ rest) (.cons piece reading)

/-- The reading that is computed has a derivation.

**Proof sketch.** Induction on the length of the template, in the cases of its computation. -/
lemma reads_ofChars (text : List Char) : Reads text (Reading.ofChars text) := by
  induction text using Reading.ofChars.induct with
  | case1 =>
    rw [Reading.ofChars_nil]
    exact .done
  | case2 rest fault h =>
    rw [Reading.ofChars_dollar, h]
    exact .fault h
  | case3 rest piece behind h ih =>
    obtain ⟨written, notLiteral, happ⟩ := pieceAfterDollar_eq_ok_iff.mp h
    rw [Reading.ofChars_dollar, h, ← happ]
    exact .piece written (by simp [notLiteral]) ih
  | case4 c rest hc ih =>
    have written : (Piece.plain (c :: rest.takeWhile (· != '$'))).IsWritten :=
      .plain (by simp) (by simp [Ne.symm hc, not_mem_takeWhile_ne])
    have h := Reads.piece written (fun _ => eq_of_mem_head?_dropWhile_ne) ih
    rw [Reading.ofChars_plain hc]
    simpa [Piece.plain] using h

/-- The reading of a template given as a string has a derivation. -/
lemma reads_ofText (template : String) : Reads template.toList (Reading.ofText template) :=
  reads_ofChars template.toList

/-- A written piece is plain text, or it starts with a dollar sign. -/
lemma Piece.IsWritten.eq_plain_or {piece : Piece} (written : piece.IsWritten) :
    (∃ run, run ≠ [] ∧ '$' ∉ run ∧ piece = .plain run) ∨
      piece.lexeme.isLiteral = false ∧ ∀ rest, ∃ text, piece.source ++ rest = '$' :: text := by
  cases written with
  | @plain run nonempty noDollar => exact .inl ⟨run, nonempty, noDollar, rfl⟩
  | dollar => exact .inr ⟨rfl, fun rest => ⟨'$' :: rest, rfl⟩⟩
  | directive _ _ => exact .inr ⟨rfl, fun rest => ⟨_, rfl⟩⟩

/-- A written piece is read in front of what is read behind it. -/
lemma Reading.ofChars_append {piece : Piece} (written : piece.IsWritten) {rest : List Char}
    (hrest : piece.lexeme.isLiteral = true → ∀ c ∈ rest.head?, c = '$') :
    Reading.ofChars (piece.source ++ rest) = .cons piece (Reading.ofChars rest) := by
  rcases written.eq_plain_or with ⟨run, nonempty, noDollar, rfl⟩ | ⟨notLiteral, hdollar⟩
  · obtain ⟨c, run, rfl⟩ := List.exists_cons_of_ne_nil nonempty
    rw [List.mem_cons, not_or] at noDollar
    obtain ⟨htake, hdrop⟩ := takeWhile_ne_append noDollar.2 rest (hrest rfl)
    simp only [Piece.plain, List.cons_append]
    rw [Reading.ofChars_plain (Ne.symm noDollar.1), htake, hdrop]
    rfl
  · obtain ⟨text, htext⟩ := hdollar rest
    rw [htext, Reading.ofChars_dollar,
      pieceAfterDollar_eq_ok_iff.mpr ⟨written, notLiteral, htext⟩]

/-- The reading that is derived is the one that is computed. -/
theorem reads_iff {text : List Char} {reading : Reading} :
    Reads text reading ↔ Reading.ofChars text = reading := by
  constructor
  · intro h
    induction h with
    | done => exact Reading.ofChars_nil
    | fault h => rw [Reading.ofChars_dollar, h]
    | piece written hrest _ ih => rw [Reading.ofChars_append written hrest, ih]
  · rintro rfl
    exact reads_ofChars text

namespace Reads

variable {text : List Char} {reading : Reading}

/-- The pieces of a reading are written. -/
lemma isWritten (h : Reads text reading) : ∀ piece ∈ reading.pieces, piece.IsWritten := by
  induction h with
  | done => simp
  | fault _ => simp
  | piece written _ _ ih => simpa using ⟨written, ih⟩

/-- A template starts with what was read of it, behind which a fault needs a dollar sign with which
no piece starts. -/
theorem eq_source_append (h : Reads text reading) :
    ∃ rest, text = reading.source ++ rest ∧
      match reading.fault? with
      | none => rest = []
      | some f => ∃ behind, rest = '$' :: behind ∧ pieceAfterDollar behind = .error f := by
  induction h with
  | done => exact ⟨[], rfl, rfl⟩
  | @fault behind _ h => exact ⟨'$' :: behind, rfl, behind, rfl, h⟩
  | @piece piece _ reading _ _ _ ih =>
    obtain ⟨rest, rfl, hrest⟩ := ih
    exact ⟨rest, by simp [Reading.source], hrest⟩

/-- A template that is read to its end is the concatenation of the sources of its pieces. -/
lemma source_eq (h : Reads text reading) (hfault : reading.fault? = none) :
    reading.source = text := by
  obtain ⟨rest, htext, hrest⟩ := h.eq_source_append
  rw [hfault] at hrest
  rw [htext, show rest = [] from hrest, List.append_nil]

/-- A template that is read to its end is read in front of a dollar sign with which no piece
starts, too. -/
lemma append_fault {pieces : List Piece} (h : Reads text ⟨pieces, none⟩) {behind : List Char}
    {fault : Fault} (hfault : pieceAfterDollar behind = .error fault) :
    Reads (text ++ '$' :: behind) ⟨pieces, some fault⟩ := by
  generalize hreading : Reading.mk pieces none = reading at h
  induction h generalizing pieces with
  | done =>
    cases hreading
    exact .fault hfault
  | fault _ => cases hreading
  | @piece piece rest reading written hrest _ ih =>
    obtain ⟨others, fault?⟩ := reading
    cases hreading
    have hhead : piece.lexeme.isLiteral = true → ∀ c ∈ (rest ++ '$' :: behind).head?, c = '$' := by
      intro hliteral c hc
      cases rest with
      | nil => simpa using hc.symm
      | cons d rest => exact hrest hliteral c hc
    rw [List.append_assoc]
    exact .piece written hhead (ih rfl)

/-- What is read behind a run of plain text does not start with one. -/
lemma isLiteral_head? (h : Reads text reading) (htext : ∀ c ∈ text.head?, c = '$') :
    ∀ piece ∈ reading.pieces.head?, piece.lexeme.isLiteral = false := by
  cases h with
  | done => simp
  | fault _ => simp
  | piece written _ _ =>
    intro piece hpiece
    obtain rfl : _ = piece := by simpa using hpiece
    rcases written.eq_plain_or with ⟨run, nonempty, noDollar, rfl⟩ | ⟨notLiteral, -⟩
    · obtain ⟨c, run, rfl⟩ := List.exists_cons_of_ne_nil nonempty
      obtain rfl : c = '$' := htext c (by simp [Piece.plain])
      simp at noDollar
    · exact notLiteral

/-- No two runs of plain text are read one behind the other. -/
theorem isChain (h : Reads text reading) :
    reading.pieces.IsChain fun a b => ¬(a.lexeme.isLiteral = true ∧ b.lexeme.isLiteral = true) := by
  induction h with
  | done => exact .nil
  | fault _ => exact .nil
  | piece _ hrest h ih =>
    refine List.isChain_cons.mpr ⟨?_, ih⟩
    rintro next hnext ⟨hpiece, hliteral⟩
    rw [h.isLiteral_head? (hrest hpiece) next hnext] at hliteral
    exact Bool.false_ne_true hliteral

end Reads

end RuleCommand
