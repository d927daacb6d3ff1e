import Mathlib.Data.Bool.AllAny
import RuleCommand.Template.Cursor
import RuleCommand.Proofs.Template.Grammar

set_option autoImplicit false

/-!
# Faults and where they stand

A template that cannot be read to its end stops at a dollar sign: what is in front of it is put
together from segments, and no segment starts with it. What is wrong there, and at which byte the
fault is shown, is told by the characters behind the dollar sign alone, and what was read before it
is what would have been read of the template cut off there.

## Main definitions

* `RuleCommand.StopsAt` — a template that stops at a dollar sign.
* `RuleCommand.Rejects` — the fault of a dollar sign, by what follows it.

## Main results

* `RuleCommand.rejects_iff` — the fault of a dollar sign is the one that is computed.
* `RuleCommand.StopsAt.reads` — a template is read up to where it stops.
* `RuleCommand.faults_exactly_classified` — what is handed out of a template that stops.
-/

namespace RuleCommand

/-! ## Stopping -/

/-- A template that stops at the dollar sign between some segments and the rest of it. -/
structure StopsAt (template : List Char) (segments : List Segment) (rest : List Char) : Prop where
  /-- The dollar sign stands behind the segments. -/
  text : template = concat segments ++ '$' :: rest
  /-- The segments are put together as the grammar admits. -/
  grammatical : Grammatical segments
  /-- No segment starts with the dollar sign. -/
  stuck : ∀ segment : Segment, segment.IsValid → ¬segment.source <+: '$' :: rest

/-- No segment starts with a dollar sign just if there is a fault in what follows it.

**Proof sketch.** A piece that starts with the dollar sign was read from a segment, and a segment is
read as a piece, which is not plain text since it starts with a dollar sign. -/
lemma stuck_iff {rest : List Char} :
    (∀ segment : Segment, segment.IsValid → ¬segment.source <+: '$' :: rest) ↔
      ∃ fault, pieceAfterDollar rest = .error fault := by
  constructor
  · intro stuck
    cases hpiece : pieceAfterDollar rest with
    | error fault => exact ⟨fault, rfl⟩
    | ok cut =>
      obtain ⟨piece, behind⟩ := cut
      obtain ⟨written, -, happ⟩ := pieceAfterDollar_eq_ok_iff.mp hpiece
      obtain ⟨valid, hsource, -⟩ := written.segment
      exact absurd ⟨behind, hsource ▸ happ⟩ (stuck piece.segment valid)
  · rintro ⟨fault, hfault⟩ segment valid ⟨behind, happ⟩
    obtain ⟨piece, written, rfl⟩ := valid.exists_piece
    rw [written.segment.2.1] at happ
    rcases written.eq_plain_or with ⟨run, nonempty, noDollar, rfl⟩ | ⟨notLiteral, -⟩
    · obtain ⟨c, run, rfl⟩ := List.exists_cons_of_ne_nil nonempty
      obtain rfl : c = '$' := (List.cons.inj happ).1
      exact noDollar List.mem_cons_self
    · rw [pieceAfterDollar_eq_ok_iff.mpr ⟨written, notLiteral, happ⟩] at hfault
      cases hfault

/-- A template is read up to where it stops, each segment as a piece, and just so is the part of it
in front of the dollar sign. -/
theorem StopsAt.reads {template : List Char} {segments : List Segment} {rest : List Char}
    (h : StopsAt template segments rest) :
    ∃ pieces fault, Reads template ⟨pieces, some fault⟩ ∧ Reads (concat segments) ⟨pieces, none⟩ ∧
      pieces.map Piece.segment = segments ∧ pieceAfterDollar rest = .error fault := by
  obtain ⟨fault, hfault⟩ := stuck_iff.mp h.stuck
  obtain ⟨pieces, hreads, hpieces⟩ := h.grammatical.reads
  refine ⟨pieces, fault, ?_, hreads, hpieces, hfault⟩
  rw [h.text]
  exact hreads.append_fault hfault

/-- A template that is not read to its end stops somewhere. -/
lemma Reads.exists_stopsAt {template : List Char} {reading : Reading} (h : Reads template reading)
    (hfault : reading.fault? ≠ none) : ∃ segments rest, StopsAt template segments rest := by
  obtain ⟨fault, hsome⟩ := Option.ne_none_iff_exists'.mp hfault
  obtain ⟨_, htext, hrest⟩ := h.eq_source_append
  rw [hsome] at hrest
  obtain ⟨rest, rfl, herror⟩ := hrest
  refine ⟨reading.pieces.map Piece.segment, rest, ?_, h.grammatical, stuck_iff.mpr ⟨fault, herror⟩⟩
  rw [concat_map_segment h.isWritten]
  exact htext

/-- A template stops at one place at most. -/
lemma StopsAt.unique {template : List Char} {segments segments' : List Segment}
    {rest rest' : List Char} (h : StopsAt template segments rest)
    (h' : StopsAt template segments' rest') : segments' = segments ∧ rest' = rest := by
  obtain ⟨pieces, fault, hreads, -, hpieces, -⟩ := h.reads
  obtain ⟨pieces', fault', hreads', -, hpieces', -⟩ := h'.reads
  have hreading := (reads_iff.mp hreads').symm.trans (reads_iff.mp hreads)
  obtain rfl : pieces' = pieces := congrArg Reading.pieces hreading
  have hsegments : segments' = segments := hpieces'.symm.trans hpieces
  have htext := h'.text.symm.trans h.text
  rw [hsegments, List.append_cancel_left_eq] at htext
  exact ⟨hsegments, (List.cons.inj htext).2⟩

/-! ## Faults -/

/-- The fault of a dollar sign at a byte offset, and the offset at which it is shown, by what
follows the dollar sign. -/
inductive Rejects (start : Nat) : List Char → Nat → Fault → Prop
  /-- Nothing follows. -/
  | unexpectedEnd : Rejects start [] start .unexpectedEnd
  /-- A blank follows, which is shown itself. -/
  | unexpectedCharacter {c : Char} (behind : List Char) :
      isBlank c = true → Rejects start (c :: behind) (start + 1) (.unexpectedCharacter c)
  /-- A parenthesis follows that nothing behind it closes. -/
  | missingParen {inner : List Char} :
      ')' ∉ inner → Rejects start ('(' :: inner) start .missingParen
  /-- Only blanks stand before the first closing parenthesis. -/
  | emptyDirective {body : List Char} (behind : List Char) :
      ')' ∉ body → (∀ c ∈ body, isBlank c = true) →
        Rejects start ('(' :: (body ++ ')' :: behind)) start .emptyDirective
  /-- Only the word that needs a label stands before the first closing parenthesis. -/
  | missingLabel {body : List Char} (behind : List Char) :
      ')' ∉ body → trim body = "locations".toList →
        Rejects start ('(' :: (body ++ ')' :: behind)) start .missingLabel
  /-- Another character follows. The name is the run up to the next blank or to the end. -/
  | missingOpenParen {c : Char} {run behind : List Char} :
      c ≠ '$' → c ≠ '(' → (∀ d ∈ c :: run, isBlank d = false) →
        (∀ d ∈ behind.head?, isBlank d = true) →
          Rejects start (c :: run ++ behind) start (.missingOpenParen (String.ofList (c :: run)))

/-- The fault of a dollar sign is the one that is computed.

**Proof sketch.** What follows the dollar sign is of one of five forms (`afterDollar`). A body in
parentheses has a fault just if it writes no directive (`Directive.ofBody_eq_error_iff`). Another
character starts a word, which ends before the next blank. -/
theorem rejects_iff {start offset : Nat} {rest : List Char} {fault : Fault} :
    Rejects start rest offset fault ↔
      pieceAfterDollar rest = .error fault ∧ offset = start + fault.lead := by
  constructor
  · intro h
    cases h with
    | unexpectedEnd => exact ⟨rfl, rfl⟩
    | @unexpectedCharacter c behind hblank =>
      have hdollar : c ≠ '$' := by rintro rfl; cases hblank
      have hparen : c ≠ '(' := by rintro rfl; cases hblank
      rw [pieceAfterDollar_other hdollar hparen, if_pos hblank]
      exact ⟨rfl, rfl⟩
    | missingParen hclose => exact ⟨pieceAfterDollar_unclosed hclose, rfl⟩
    | emptyDirective behind hbody hblank =>
      rw [pieceAfterDollar_closed hbody,
        Directive.ofBody_eq_error_iff.mpr (.inl ⟨trim_eq_nil_iff.mpr hblank, rfl⟩)]
      exact ⟨rfl, rfl⟩
    | missingLabel behind hbody hword =>
      rw [pieceAfterDollar_closed hbody, Directive.ofBody_eq_error_iff.mpr (.inr ⟨hword, rfl⟩)]
      exact ⟨rfl, rfl⟩
    | @missingOpenParen c run behind hdollar hparen hrun hbehind =>
      have hc : ¬isBlank c = true := by simp [hrun c List.mem_cons_self]
      obtain ⟨hword, -⟩ := firstWord_append hrun hbehind
      rw [List.cons_append] at hword ⊢
      rw [pieceAfterDollar_other hdollar hparen, if_neg hc, hword]
      exact ⟨rfl, rfl⟩
  · rintro ⟨herror, rfl⟩
    cases afterDollar rest with
    | nothing =>
      cases herror
      exact .unexpectedEnd
    | dollar behind => cases herror
    | unclosed hclose =>
      rw [pieceAfterDollar_unclosed hclose] at herror
      cases herror
      exact .missingParen hclose
    | @closed body behind hbody =>
      rw [pieceAfterDollar_closed hbody] at herror
      cases parsed : Directive.ofBody body with
      | ok d => simp [parsed, Except.map] at herror
      | error fault =>
        rw [parsed] at herror
        cases herror
        rcases Directive.ofBody_eq_error_iff.mp parsed with ⟨hblank, rfl⟩ | ⟨hword, rfl⟩
        · exact .emptyDirective behind hbody (trim_eq_nil_iff.mp hblank)
        · exact .missingLabel behind hbody hword
    | @other c behind hdollar hparen =>
      rw [pieceAfterDollar_other hdollar hparen] at herror
      split at herror
      case isTrue hblank =>
        cases herror
        exact .unexpectedCharacter behind hblank
      case isFalse hblank =>
        cases herror
        have hfirst : firstWord (c :: behind) = c :: firstWord behind := by
          simp [firstWord, hblank]
        have hword : ∀ d ∈ c :: firstWord behind, isBlank d = false := by
          rw [← hfirst]
          exact isBlank_of_mem_firstWord _
        have hsplit : c :: behind = c :: firstWord behind ++ afterWord behind := by
          rw [List.cons_append, firstWord_append_afterWord]
        rw [hfirst, hsplit]
        exact .missingOpenParen hdollar hparen hword (isBlank_head?_afterWord behind)

/-! ## What is handed out -/

/-- **Faults are classified exactly.** A template that is not read to its end stops at exactly one
dollar sign. The items that are handed out are those of the template cut off there, of which none is
a fault, and then a single fault: the one, at the offset, that what follows the dollar sign tells.

**Proof sketch.** The pieces in front of the dollar sign are those of the template cut off there
(`StopsAt.reads`), so the items differ by the fault only, and that is told by `rejects_iff`. -/
theorem faults_exactly_classified (template : String) :
    ((Reading.ofText template).fault? ≠ none →
      ∃! place : List Segment × List Char, StopsAt template.toList place.1 place.2) ∧
    ∀ segments rest, StopsAt template.toList segments rest →
      let start := byteLength (concat segments)
      let cut := Reading.ofText (String.ofList (concat segments))
      slice template.toList 0 start = .ok (concat segments) ∧ cut.fault? = none ∧
        (∃ offset fault, Rejects start rest offset fault) ∧
        ∀ offset fault, (Reading.ofText template).items = cut.items ++ [.fault offset fault] ↔
          Rejects start rest offset fault := by
  constructor
  · intro hfault
    obtain ⟨segments, rest, h⟩ := (reads_ofChars template.toList).exists_stopsAt hfault
    refine ⟨(segments, rest), h, ?_⟩
    rintro ⟨segments', rest'⟩ h'
    obtain ⟨rfl, rfl⟩ := h.unique h'
    rfl
  · intro segments rest h
    obtain ⟨pieces, fault, hwhole, hcut, -, herror⟩ := h.reads
    have hreading : Reading.ofText template = ⟨pieces, some fault⟩ := reads_iff.mp hwhole
    have hreadingCut : Reading.ofText (String.ofList (concat segments)) = ⟨pieces, none⟩ := by
      rw [Reading.ofText, String.toList_ofList, reads_iff.mp hcut]
    have hsource : Reading.source ⟨pieces, some fault⟩ = concat segments := hcut.source_eq rfl
    have hslice := slice_append [] (concat segments) ('$' :: rest)
    rw [List.nil_append, ← h.text, byteLength_nil, Nat.zero_add] at hslice
    refine ⟨hslice, by rw [hreadingCut], ⟨_, fault, rejects_iff.mpr ⟨herror, rfl⟩⟩, ?_⟩
    intro offset other
    rw [rejects_iff, herror, hreading, hreadingCut]
    simp only [Reading.items, Reading.tokens, Reading.located?, hsource, Option.map_some,
      Option.map_none, Option.toList_some, Option.toList_none, List.append_nil,
      List.append_cancel_left_eq, List.cons.injEq, and_true, Cursor.Item.fault.injEq,
      Except.error.injEq]
    constructor
    · rintro ⟨rfl, rfl⟩
      exact ⟨rfl, rfl⟩
    · rintro ⟨rfl, rfl⟩
      exact ⟨rfl, rfl⟩

/-- A name that runs on over a later directive, behind a character of two bytes. -/
theorem faults_exactly_classified_name :
    (∃! place : List Segment × List Char, StopsAt "é$(x)$b$(c) d".toList place.1 place.2) ∧
    (Reading.ofText "é$(x)$b$(c) d").items =
      (Reading.ofText "é$(x)").items ++ [.fault 6 (.missingOpenParen "b$(c)")] := by
  have hrejects : Rejects 6 "b$(c) d".toList 6 (.missingOpenParen "b$(c)") :=
    @Rejects.missingOpenParen 6 'b' "$(c)".toList " d".toList (by decide) (by decide)
      (List.all_iff_forall_prop.mp rfl) (by rintro _ ⟨⟩; rfl)
  have h : StopsAt "é$(x)$b$(c) d".toList [.plain ['é'], .directive ['x']] "b$(c) d".toList :=
    ⟨rfl, ⟨by decide, by simp [Segment.isPlain]⟩, stuck_iff.mpr ⟨_, (rejects_iff.mp hrejects).1⟩⟩
  have hfault : (Reading.ofText "é$(x)$b$(c) d").fault? ≠ none := by
    obtain ⟨pieces, fault, hreads, -⟩ := h.reads
    rw [Reading.ofText, reads_iff.mp hreads]
    simp
  obtain ⟨-, -, -, hitems⟩ := (faults_exactly_classified _).2 _ _ h
  exact ⟨(faults_exactly_classified _).1 hfault, (hitems _ _).mpr hrejects⟩

end RuleCommand
