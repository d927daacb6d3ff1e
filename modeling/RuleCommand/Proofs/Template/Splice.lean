import RuleCommand.Template.Cursor
import RuleCommand.Proofs.Template.Derivation

set_option autoImplicit false

/-!
# Splicing

A template is expanded by making an edit of each directive: the bytes that the directive takes are
exchanged for its value, and every other byte is copied. The edits are made in the template itself,
by slices, so the ranges that the reader computes have to agree with what is copied between them.

## Main definitions

* `RuleCommand.Edit` — a range of bytes with the text that it is exchanged for.
* `RuleCommand.splice` — a text with edits made.
* `RuleCommand.Token.editWith` — the edit that exchanges a token for the source of a piece.
* `RuleCommand.exchangeFrom` — pieces with others in the places of some.
* `RuleCommand.Reading.edits` — the edits that exchange the directives of a reading for values.
* `RuleCommand.Lexeme.exchanged` — the text that a lexeme leaves behind.

## Main results

* `RuleCommand.spliceFrom_editWith` — a text with edits of the pieces that it starts with.
* `RuleCommand.Reads.splice_eq` — a template with the edits of its reading is the concatenation of
  what its pieces leave behind.
-/

namespace RuleCommand

/-! ## Edits -/

/-- A range of bytes with the text that it is exchanged for. -/
structure Edit where
  /-- The offset of the first byte. -/
  start : Nat
  /-- The offset behind the last byte. -/
  stop : Nat
  /-- The text that takes their place. -/
  text : String
deriving DecidableEq, Repr

/-- A text from a byte offset on, with edits made from left to right: what stands between two edits
is copied. -/
def spliceFrom (text : List Char) (offset : Nat) : List Edit → Except BadSlice (List Char)
  | [] => sliceFrom text offset
  | edit :: edits => do
    let kept ← slice text offset edit.start
    let others ← spliceFrom text edit.stop edits
    return kept ++ edit.text.toList ++ others

/-- A text with edits made. -/
def splice (text : List Char) (edits : List Edit) : Except BadSlice (List Char) :=
  spliceFrom text 0 edits

/-! ## Edits of pieces -/

/-- The edit that exchanges a token for the source of a piece, if there is one to take its place. -/
def Token.editWith (piece? : Token → Option Piece) (token : Token) : Option Edit :=
  (piece? token).map fun piece => ⟨token.start, token.stop, String.ofList piece.source⟩

/-- Consecutive pieces, the first of which starts at a given offset, with others in the places of
some. -/
def exchangeFrom (piece? : Token → Option Piece) (start : Nat) : List Piece → List Piece
  | [] => []
  | piece :: rest =>
    (piece? ⟨start, start + piece.size, piece.lexeme⟩).getD piece ::
      exchangeFrom piece? (start + piece.size) rest

/-- The rest of a text with edits of the pieces that it starts with, behind a part that was copied
and a part that is to be copied.

**Proof sketch.** Induction on the pieces. A piece that stays is left for the next slice to copy; a
piece that is exchanged ends the slice, and the next one starts behind it. -/
theorem spliceFrom_editWith (piece? : Token → Option Piece) (pieces : List Piece)
    (copied kept behind : List Char) :
    spliceFrom (copied ++ (kept ++ (pieces.flatMap (·.source) ++ behind))) (byteLength copied)
        ((tokensFrom (byteLength (copied ++ kept)) pieces).filterMap (Token.editWith piece?)) =
      .ok (kept ++ ((exchangeFrom piece? (byteLength (copied ++ kept)) pieces).flatMap (·.source) ++
        behind)) := by
  induction pieces generalizing copied kept with
  | nil => exact sliceFrom_append copied (kept ++ ([] ++ behind))
  | cons piece pieces ih =>
    rw [tokensFrom, exchangeFrom, List.flatMap_cons, List.flatMap_cons, List.append_assoc]
    generalize hrest : pieces.flatMap (·.source) ++ behind = rest at ih ⊢
    cases hpiece : piece? ⟨byteLength (copied ++ kept), byteLength (copied ++ kept) + piece.size,
      piece.lexeme⟩ with
    | none =>
      have hedit : Token.editWith piece? ⟨byteLength (copied ++ kept),
          byteLength (copied ++ kept) + piece.size, piece.lexeme⟩ = none := by
        rw [Token.editWith, hpiece, Option.map_none]
      have hoffset : byteLength (copied ++ kept) + piece.size =
          byteLength (copied ++ (kept ++ piece.source)) := by
        rw [← List.append_assoc, byteLength_append (copied ++ kept), Piece.size]
      rw [List.filterMap_cons_none hedit, Option.getD_none, hoffset, List.append_assoc,
        ← List.append_assoc kept, ← List.append_assoc kept]
      exact ih copied (kept ++ piece.source)
    | some other =>
      have hedit : Token.editWith piece? ⟨byteLength (copied ++ kept),
          byteLength (copied ++ kept) + piece.size, piece.lexeme⟩ =
            some ⟨byteLength (copied ++ kept), byteLength (copied ++ kept) + piece.size,
              String.ofList other.source⟩ := by
        rw [Token.editWith, hpiece, Option.map_some]
      have hkept : slice (copied ++ (kept ++ (piece.source ++ rest))) (byteLength copied)
          (byteLength (copied ++ kept)) = .ok kept := by
        rw [byteLength_append]
        exact slice_append copied kept (piece.source ++ rest)
      have hothers := ih (copied ++ kept ++ piece.source) []
      rw [List.append_nil, List.nil_append, List.nil_append, byteLength_append,
        List.append_assoc, List.append_assoc] at hothers
      rw [List.filterMap_cons_some hedit, spliceFrom, hkept]
      simp only [bind, Except.bind, Piece.size]
      rw [hothers]
      simp [pure, Except.pure]

/-! ## The edits of a reading -/

/-- The edit that exchanges a token for a value, if it is a directive. -/
def Token.edit? (value : Directive → String) (token : Token) : Option Edit :=
  match token.lexeme with
  | .directive d => some ⟨token.start, token.stop, value d⟩
  | _ => none

/-- The edits that exchange the directives of a reading for values. -/
def Reading.edits (reading : Reading) (value : Directive → String) : List Edit :=
  reading.tokens.filterMap (Token.edit? value)

/-- The text that a lexeme leaves behind when directives are exchanged for values. -/
def Lexeme.exchanged (value : Directive → String) : Lexeme → String
  | .literal text => text
  | .escape => "$$"
  | .directive d => value d

/-- A directive with a value as its source, in the place of the token of the directive. -/
def Token.valued? (value : Directive → String) (token : Token) : Option Piece :=
  match token.lexeme with
  | .directive d => some ⟨(value d).toList, .directive d⟩
  | _ => none

/-- A token is exchanged for a value by exchanging it for a piece with the value as its source. -/
lemma Token.edit?_eq_editWith (value : Directive → String) :
    edit? value = editWith (valued? value) := by
  funext token
  rw [edit?, editWith, valued?]
  cases token.lexeme with
  | literal text => rfl
  | escape => rfl
  | directive d => rw [Option.map_some, String.ofList_toList]

/-- What is left of a written piece that is exchanged for its value, or stays if it has none. -/
lemma Piece.IsWritten.source_valued? {piece : Piece} (written : piece.IsWritten)
    (value : Directive → String) (start stop : Nat) :
    ((Token.valued? value ⟨start, stop, piece.lexeme⟩).getD piece).source =
      (piece.lexeme.exchanged value).toList := by
  cases written with
  | plain _ _ => simp [Piece.plain, Token.valued?, Lexeme.exchanged]
  | dollar => simp [Piece.dollar, Token.valued?, Lexeme.exchanged]
  | directive _ _ => rfl

/-- Written pieces with values in the places of directives leave behind what their lexemes do. -/
lemma flatMap_source_exchangeFrom {pieces : List Piece}
    (written : ∀ piece ∈ pieces, piece.IsWritten) (value : Directive → String) (start : Nat) :
    (exchangeFrom (Token.valued? value) start pieces).flatMap (·.source) =
      pieces.flatMap fun piece => (piece.lexeme.exchanged value).toList := by
  induction pieces generalizing start with
  | nil => rfl
  | cons piece pieces ih =>
    rw [List.forall_mem_cons] at written
    rw [exchangeFrom, List.flatMap_cons, List.flatMap_cons, ih written.2,
      written.1.source_valued?]

/-- **A template with the edits of its reading** is the concatenation of what its pieces leave
behind; in particular no range of a directive is out of place.

**Proof sketch.** The edits exchange directives for pieces with their values as sources
(`spliceFrom_editWith`), and what is written otherwise is left as it is. -/
theorem Reads.splice_eq {text : List Char} {reading : Reading} (h : Reads text reading)
    (hfault : reading.fault? = none) (value : Directive → String) :
    splice text (reading.edits value) =
      .ok (reading.pieces.flatMap fun piece => (piece.lexeme.exchanged value).toList) := by
  have hsplice := spliceFrom_editWith (Token.valued? value) reading.pieces [] [] []
  have hsource : reading.pieces.flatMap (·.source) = text := h.source_eq hfault
  rw [flatMap_source_exchangeFrom h.isWritten, ← Token.edit?_eq_editWith, hsource] at hsplice
  simp only [List.append_nil, List.nil_append] at hsplice
  exact hsplice

end RuleCommand
