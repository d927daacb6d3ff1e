import RuleCommand.Proofs.Template.Canonical
import RuleCommand.Proofs.Template.Splice

set_option autoImplicit false

/-!
# Writing directives anew

A part of a template can be written anew in its place, by an edit of the bytes it takes. All that is
behind it moves, but the template is read as before: a piece that was written anew is read in the
place of the old one, the others stay, and a fault is still met where one was. It does not matter
how many pieces are written anew, nor which ones.

## Main definitions

* `RuleCommand.Reading.Rewrites` — pieces that can take the places of pieces of a reading.
* `RuleCommand.Token.lexemeWith` — what is read in the place of a token.

## Main results

* `RuleCommand.Reads.rewrite` — the derivation of the reading of a template with pieces written
  anew.
* `RuleCommand.Reading.exists_rewritten` — what is read of such a template.
-/

namespace RuleCommand

variable {piece? : Token → Option Piece}

/-- Pieces that can take the places of pieces of a reading: they are written, and plain text is
exchanged for plain text only. -/
def Reading.Rewrites (reading : Reading) (piece? : Token → Option Piece) : Prop :=
  ∀ token ∈ reading.tokens, ∀ piece, piece? token = some piece →
    piece.IsWritten ∧ piece.lexeme.isLiteral = token.lexeme.isLiteral

/-- What is read in the place of a token. -/
def Token.lexemeWith (piece? : Token → Option Piece) (token : Token) : Lexeme :=
  ((piece? token).map (·.lexeme)).getD token.lexeme

/-! ## Exchanged pieces -/

/-- Each token has its lexeme, or that of the piece that takes its place. -/
lemma map_lexeme_exchangeFrom (piece? : Token → Option Piece) (start : Nat) (pieces : List Piece) :
    (exchangeFrom piece? start pieces).map (·.lexeme) =
      (tokensFrom start pieces).map (Token.lexemeWith piece?) := by
  induction pieces generalizing start with
  | nil => rfl
  | cons piece pieces ih =>
    rw [exchangeFrom, tokensFrom, List.map_cons, List.map_cons, ih, Token.lexemeWith]
    cases piece? ⟨start, start + piece.size, piece.lexeme⟩ <;> rfl

/-- Pieces are written if the old ones are, and those that take their places. -/
lemma isWritten_exchangeFrom {start : Nat} {pieces : List Piece}
    (hold : ∀ piece ∈ pieces, piece.IsWritten)
    (hnew : ∀ token ∈ tokensFrom start pieces, ∀ piece, piece? token = some piece →
      piece.IsWritten) :
    ∀ piece ∈ exchangeFrom piece? start pieces, piece.IsWritten := by
  induction pieces generalizing start with
  | nil => simp [exchangeFrom]
  | cons piece pieces ih =>
    rw [List.forall_mem_cons] at hold
    rw [tokensFrom, List.forall_mem_cons] at hnew
    rw [exchangeFrom, List.forall_mem_cons]
    refine ⟨?_, ih hold.2 hnew.2⟩
    cases hpiece : piece? ⟨start, start + piece.size, piece.lexeme⟩ with
    | none => exact hold.1
    | some other => exact hnew.1 other hpiece

/-- Plain text stands where it stood. -/
lemma Reading.Rewrites.map_isLiteral {reading : Reading} (hnew : reading.Rewrites piece?) :
    (exchangeFrom piece? 0 reading.pieces).map (·.lexeme.isLiteral) =
      reading.pieces.map (·.lexeme.isLiteral) := by
  have hsame : ∀ token ∈ reading.tokens,
      (token.lexemeWith piece?).isLiteral = token.lexeme.isLiteral := by
    intro token htoken
    rw [Token.lexemeWith]
    cases hpiece : piece? token with
    | none => rfl
    | some piece => exact (hnew token htoken piece hpiece).2
  calc (exchangeFrom piece? 0 reading.pieces).map (·.lexeme.isLiteral)
      = ((exchangeFrom piece? 0 reading.pieces).map (·.lexeme)).map Lexeme.isLiteral := by
        rw [List.map_map]; rfl
    _ = reading.tokens.map fun token => (token.lexemeWith piece?).isLiteral := by
        rw [map_lexeme_exchangeFrom, List.map_map]; rfl
    _ = (reading.tokens.map (·.lexeme)).map Lexeme.isLiteral := by
        rw [List.map_map]
        exact List.map_congr_left hsame
    _ = reading.pieces.map (·.lexeme.isLiteral) := by
        rw [Reading.tokens, map_lexeme_tokensFrom, List.map_map]; rfl

/-! ## Reading what was written anew -/

/-- **A template with pieces written anew** is read as the new pieces in the places of the old ones,
with the same fault, if any.

**Proof sketch.** The edits leave the sources of the new pieces in front of what was not read
(`spliceFrom_editWith`). These are read back, since no two runs of plain text meet where none met
before (`Reads.of_isChain`), and then the fault is met (`Reads.append_fault`). -/
theorem Reads.rewrite {text : List Char} {reading : Reading} (h : Reads text reading)
    (hnew : reading.Rewrites piece?) :
    ∃ new, splice text (reading.tokens.filterMap (Token.editWith piece?)) = .ok new ∧
      Reads new ⟨exchangeFrom piece? 0 reading.pieces, reading.fault?⟩ := by
  obtain ⟨rest, htext, hrest⟩ := h.eq_source_append
  have hsplice := spliceFrom_editWith piece? reading.pieces [] [] rest
  have hwritten := isWritten_exchangeFrom h.isWritten fun token htoken piece hpiece =>
    (hnew token htoken piece hpiece).1
  have hseparate : (exchangeFrom piece? 0 reading.pieces).IsChain
      fun a b => ¬(a.lexeme.isLiteral = true ∧ b.lexeme.isLiteral = true) := by
    have hchain : (reading.pieces.map (·.lexeme.isLiteral)).IsChain
        fun a b => ¬(a = true ∧ b = true) := (List.isChain_map _).mpr h.isChain
    rw [← hnew.map_isLiteral] at hchain
    exact (List.isChain_map _).mp hchain
  have hreads := Reads.of_isChain hwritten hseparate
  refine ⟨(exchangeFrom piece? 0 reading.pieces).flatMap (·.source) ++ rest, ?_, ?_⟩
  · rw [htext]
    exact hsplice
  · cases hfault : reading.fault? with
    | none =>
      rw [hfault] at hrest
      rwa [show rest = [] from hrest, List.append_nil]
    | some fault =>
      rw [hfault] at hrest
      obtain ⟨behind, rfl, herror⟩ := hrest
      exact hreads.append_fault herror

/-- **What is read of a template with pieces written anew**: what was read before, up to what takes
the places of pieces. -/
theorem Reading.exists_rewritten (template : String) (hnew : (ofText template).Rewrites piece?) :
    ∃ text : String,
      splice template.toList ((ofText template).tokens.filterMap (Token.editWith piece?)) =
        .ok text.toList ∧
      (ofText text).fault? = (ofText template).fault? ∧
      (ofText text).lexemes = (ofText template).tokens.map (Token.lexemeWith piece?) := by
  obtain ⟨new, hsplice, hreads⟩ := (reads_ofChars template.toList).rewrite hnew
  have hreading : ofText (String.ofList new) =
      ⟨exchangeFrom piece? 0 (ofText template).pieces, (ofText template).fault?⟩ := by
    rw [ofText, String.toList_ofList]
    exact reads_iff.mp hreads
  refine ⟨String.ofList new, by rw [String.toList_ofList]; exact hsplice, ?_, ?_⟩
  · rw [hreading]
  · rw [lexemes_eq, hreading]
    exact map_lexeme_exchangeFrom piece? 0 _

end RuleCommand
