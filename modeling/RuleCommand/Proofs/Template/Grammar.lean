import Mathlib.Data.List.Forall2
import RuleCommand.Template.Token
import RuleCommand.Proofs.Template.Derivation
import RuleCommand.Proofs.Template.DirectiveBody

set_option autoImplicit false

/-!
# The grammar of templates

Templates are written by putting segments one behind the other: plain text without dollar signs,
doubled dollar signs, and bodies in parentheses behind a dollar sign. The grammar is told without
the reader, and the reader accepts exactly what it generates: the segments are read back one by
one, and no template is put together in two ways.

## Main definitions

* `RuleCommand.Segment` — a part of a template as it is written.
* `RuleCommand.Grammatical` — the sequences of segments that the grammar admits.
* `RuleCommand.Segment.Means` — the lexemes that a segment may stand for.

## Main results

* `RuleCommand.Grammatical.reads` — the derivation of the reading of a sequence of segments.
* `RuleCommand.reading_grammar_exact` — the reader accepts the grammar, and the grammar is
  unambiguous.
-/

namespace RuleCommand

/-! ## Segments -/

/-- A part of a template as it is written. -/
inductive Segment where
  /-- Plain text. -/
  | plain (text : List Char)
  /-- A doubled dollar sign. -/
  | dollar
  /-- A body in parentheses behind a dollar sign. -/
  | directive (body : List Char)
deriving DecidableEq, Repr

namespace Segment

/-- The text of a segment. -/
def source : Segment → List Char
  | plain text => text
  | dollar => ['$', '$']
  | directive body => '$' :: '(' :: (body ++ [')'])

/-- Whether a segment is plain text. -/
def isPlain : Segment → Bool
  | plain _ => true
  | _ => false

/-- The segments that the grammar admits. The body of a directive may hold anything but a closing
parenthesis, as long as it is not blank and not only the word that needs a label. -/
def IsValid : Segment → Prop
  | plain text => text ≠ [] ∧ '$' ∉ text
  | dollar => True
  | directive body => ')' ∉ body ∧ trim body ≠ [] ∧ trim body ≠ "locations".toList

instance : DecidablePred IsValid
  | plain text => inferInstanceAs (Decidable (text ≠ [] ∧ '$' ∉ text))
  | dollar => inferInstanceAs (Decidable True)
  | directive body =>
    inferInstanceAs (Decidable (')' ∉ body ∧ trim body ≠ [] ∧ trim body ≠ "locations".toList))

/-- The lexemes that a segment stands for. -/
def Means : Segment → Lexeme → Prop
  | plain text, lexeme => lexeme = .literal (String.ofList text)
  | dollar, lexeme => lexeme = .escape
  | directive body, lexeme => ∃ d, Directive.ofBody body = .ok d ∧ lexeme = .directive d

end Segment

/-- The text of a sequence of segments. -/
def concat (segments : List Segment) : List Char :=
  segments.flatMap Segment.source

@[simp] lemma concat_nil : concat [] = [] := rfl

@[simp] lemma concat_cons (segment : Segment) (segments : List Segment) :
    concat (segment :: segments) = segment.source ++ concat segments := by
  simp [concat]

/-- The sequences that the grammar admits: plain text never stands behind plain text. -/
structure Grammatical (segments : List Segment) : Prop where
  /-- Each segment is admitted. -/
  valid : ∀ segment ∈ segments, segment.IsValid
  /-- Plain text is not cut in two. -/
  separate : segments.IsChain fun a b => ¬(a.isPlain = true ∧ b.isPlain = true)

/-! ## Segments and pieces -/

/-- The segment that a piece was read from. -/
def Piece.segment (piece : Piece) : Segment :=
  match piece.lexeme with
  | .literal _ => .plain piece.source
  | .escape => .dollar
  | .directive _ => .directive (piece.source.drop 2).dropLast

@[simp] lemma Piece.segment_plain (text : List Char) : (plain text).segment = .plain text := rfl

@[simp] lemma Piece.segment_dollar : dollar.segment = .dollar := rfl

@[simp] lemma Piece.segment_ofDirective (body : List Char) (d : Directive) :
    (ofDirective body d).segment = .directive body := by
  simp [segment, ofDirective]

/-- A piece is of the kind of its segment. -/
lemma Piece.isPlain_segment (piece : Piece) :
    piece.segment.isPlain = piece.lexeme.isLiteral := by
  unfold segment
  split <;> simp_all [Segment.isPlain, Lexeme.isLiteral]

/-- A written piece is read from an admitted segment, which it has the text and the meaning of. -/
lemma Piece.IsWritten.segment {piece : Piece} (written : piece.IsWritten) :
    piece.segment.IsValid ∧ piece.segment.source = piece.source ∧
      piece.segment.Means piece.lexeme := by
  cases written with
  | plain nonempty noDollar => exact ⟨⟨nonempty, noDollar⟩, rfl, rfl⟩
  | dollar => exact ⟨trivial, rfl, rfl⟩
  | @directive body d hbody parsed =>
    rw [segment_ofDirective]
    exact ⟨⟨hbody, Directive.exists_ofBody_eq_ok_iff.mp ⟨d, parsed⟩⟩, rfl, d, parsed, rfl⟩

/-- An admitted segment is read as a piece. -/
lemma Segment.IsValid.exists_piece {segment : Segment} (valid : segment.IsValid) :
    ∃ piece : Piece, piece.IsWritten ∧ piece.segment = segment := by
  cases segment with
  | plain text => exact ⟨.plain text, .plain valid.1 valid.2, rfl⟩
  | dollar => exact ⟨.dollar, .dollar, rfl⟩
  | directive body =>
    obtain ⟨d, parsed⟩ := Directive.exists_ofBody_eq_ok_iff.mpr valid.2
    exact ⟨.ofDirective body d, .directive valid.1 parsed, Piece.segment_ofDirective body d⟩

/-! ## Reading segments back -/

/-- What follows plain text starts with a dollar sign, if with anything. -/
lemma Grammatical.head?_concat {segment : Segment} {segments : List Segment}
    (h : Grammatical (segment :: segments)) (hplain : segment.isPlain = true) :
    ∀ c ∈ (concat segments).head?, c = '$' := by
  cases segments with
  | nil => simp
  | cons next segments =>
    have hnext : next.isPlain ≠ true := fun hnext =>
      (List.isChain_cons_cons.mp h.separate).1 ⟨hplain, hnext⟩
    cases next with
    | plain text => simp [Segment.isPlain] at hnext
    | dollar => simp [Segment.source]
    | directive body => simp [Segment.source]

lemma Grammatical.tail {segment : Segment} {segments : List Segment}
    (h : Grammatical (segment :: segments)) : Grammatical segments where
  valid := fun s hs => h.valid s (List.mem_cons_of_mem _ hs)
  separate := h.separate.tail

/-- A sequence that the grammar admits is read to its end, each segment as a piece of its own.

**Proof sketch.** Induction on the sequence. The first segment is read as a piece in front of the
others; if it is plain text, the others start with a dollar sign, so that it is not read further. -/
theorem Grammatical.reads {segments : List Segment} (h : Grammatical segments) :
    ∃ pieces : List Piece, Reads (concat segments) ⟨pieces, none⟩ ∧
      pieces.map Piece.segment = segments := by
  induction segments with
  | nil => exact ⟨[], .done, rfl⟩
  | cons segment segments ih =>
    obtain ⟨pieces, hreads, hpieces⟩ := ih h.tail
    obtain ⟨piece, written, rfl⟩ := (h.valid segment List.mem_cons_self).exists_piece
    refine ⟨piece :: pieces, ?_, by rw [List.map_cons, hpieces]⟩
    rw [concat_cons, written.segment.2.1]
    refine .piece written (fun hliteral => h.head?_concat ?_) hreads
    rw [Piece.isPlain_segment, hliteral]

/-- The pieces of a reading are read from a sequence that the grammar admits. -/
lemma Reads.grammatical {text : List Char} {reading : Reading} (h : Reads text reading) :
    Grammatical (reading.pieces.map Piece.segment) where
  valid := by
    intro segment hsegment
    obtain ⟨piece, hpiece, rfl⟩ := List.mem_map.mp hsegment
    exact (h.isWritten piece hpiece).segment.1
  separate := by
    rw [List.isChain_map]
    simpa only [Piece.isPlain_segment] using h.isChain

/-- The segments of written pieces have the text of the pieces. -/
lemma concat_map_segment {pieces : List Piece} (h : ∀ piece ∈ pieces, piece.IsWritten) :
    concat (pieces.map Piece.segment) = pieces.flatMap (·.source) := by
  rw [concat, List.flatMap_map]
  exact List.flatMap_congr fun piece hpiece => (h piece hpiece).segment.2.1

/-! ## Places -/

/-- Each segment of a sequence that is read has its token, which means what the segment does and
takes the bytes behind the segments before it. -/
lemma Reads.exists_token {segments : List Segment} {pieces : List Piece}
    (h : Reads (concat segments) ⟨pieces, none⟩) (hpieces : pieces.map Piece.segment = segments)
    {i : Nat} {segment : Segment} (hi : segments[i]? = some segment) :
    ∃ token, (tokensFrom 0 pieces)[i]? = some token ∧ segment.Means token.lexeme ∧
      token.start = byteLength (concat (segments.take i)) ∧
      token.stop = byteLength (concat (segments.take (i + 1))) := by
  subst hpieces
  rw [List.getElem?_map, Option.map_eq_some_iff] at hi
  obtain ⟨piece, hpiece, rfl⟩ := hi
  have written := h.isWritten piece (List.mem_of_getElem? hpiece)
  have hbefore : concat ((pieces.map Piece.segment).take i) =
      (pieces.take i).flatMap (·.source) := by
    rw [← List.map_take]
    exact concat_map_segment fun p hp => h.isWritten p (List.mem_of_mem_take hp)
  have hupTo : concat ((pieces.map Piece.segment).take (i + 1)) =
      (pieces.take i).flatMap (·.source) ++ piece.source := by
    rw [List.take_add_one, List.getElem?_map, hpiece, ← hbefore]
    simp [concat, written.segment.2.1]
  refine ⟨_, by rw [getElem?_tokensFrom, hpiece, Option.map_some], written.segment.2.2, ?_, ?_⟩
  · simp [hbefore]
  · simp [hupTo, Piece.size]

/-! ## The grammar -/

/-- **The reader accepts exactly the grammar, and the grammar is unambiguous**: whatever the
grammar generates is read without a fault, one token for each segment, in order, with the meaning
and in the place of the segment; and a template that is read without a fault is generated in
exactly one way.

**Proof sketch.** A sequence of segments is read as pieces that were read from its segments
(`Grammatical.reads`), and the pieces of any reading are read from an admitted sequence
(`Reads.grammatical`). A template has one reading, which gives the segments back, so two sequences
with the same text are equal. -/
theorem reading_grammar_exact :
    (∀ segments, Grammatical segments →
      let reading := Reading.ofText (String.ofList (concat segments))
      reading.fault? = none ∧ reading.tokens.length = segments.length ∧
        ∀ (i : Nat) (segment : Segment), segments[i]? = some segment →
          ∃ token, reading.tokens[i]? = some token ∧ segment.Means token.lexeme ∧
            token.start = byteLength (concat (segments.take i)) ∧
            token.stop = byteLength (concat (segments.take (i + 1)))) ∧
    ∀ template : String, (Reading.ofText template).fault? = none →
      ∃! segments, Grammatical segments ∧ String.ofList (concat segments) = template := by
  constructor
  · intro segments h
    obtain ⟨pieces, hreads, hpieces⟩ := h.reads
    have hreading : Reading.ofText (String.ofList (concat segments)) = ⟨pieces, none⟩ := by
      rw [Reading.ofText, String.toList_ofList, reads_iff.mp hreads]
    simp only [hreading, Reading.tokens]
    refine ⟨trivial, ?_, fun i segment hi => hreads.exists_token hpieces hi⟩
    rw [length_tokensFrom, ← hpieces, List.length_map]
  · intro template hfault
    have hreads : Reads template.toList (Reading.ofText template) := reads_iff.mpr rfl
    refine ⟨(Reading.ofText template).pieces.map Piece.segment, ⟨hreads.grammatical, ?_⟩, ?_⟩
    · have hsource : concat ((Reading.ofText template).pieces.map Piece.segment) =
          template.toList :=
        (concat_map_segment hreads.isWritten).trans (hreads.source_eq hfault)
      rw [hsource, String.ofList_toList]
    · rintro segments ⟨h, rfl⟩
      obtain ⟨pieces, hsegments, hpieces⟩ := h.reads
      rw [Reading.ofText, String.toList_ofList, reads_iff.mp hsegments, hpieces]

/-- A doubled dollar sign before an opening parenthesis, and a body that holds a dollar sign. -/
theorem reading_grammar_exact_dollars :
    (∃ token, (Reading.ofText "$$(a$(x$)").tokens[2]? = some token ∧
      token.lexeme = .directive ⟨.var, some "x$"⟩ ∧ token.start = 4 ∧ token.stop = 9) ∧
    ∃! segments, Grammatical segments ∧ String.ofList (concat segments) = "$$(a$(x$)" := by
  have h : Grammatical [.dollar, .plain ['(', 'a'], .directive ['x', '$']] :=
    ⟨by decide, by simp [Segment.isPlain]⟩
  have htext : String.ofList (concat [.dollar, .plain ['(', 'a'], .directive ['x', '$']]) =
      "$$(a$(x$)" := rfl
  obtain ⟨hfault, -, htokens⟩ := reading_grammar_exact.1 _ h
  rw [htext] at hfault htokens
  refine ⟨?_, reading_grammar_exact.2 _ hfault⟩
  obtain ⟨token, htoken, ⟨d, parsed, hlexeme⟩, hstart, hstop⟩ :=
    htokens 2 (.directive ['x', '$']) rfl
  cases parsed
  exact ⟨token, htoken, hlexeme, hstart, hstop⟩

end RuleCommand
