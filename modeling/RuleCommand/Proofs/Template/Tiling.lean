import Mathlib.Data.List.Chain
import RuleCommand.Proofs.Template.CursorRun

set_option autoImplicit false

/-!
# Tokens tile the template

Nothing of a template is lost when it is read step by step. The tokens that a cursor hands out lie
side by side from the first byte on, without a gap and without an overlap, and the texts that they
were read from add up to the template, or to the part of it before the dollar sign at fault.

## Main definitions

* `RuleCommand.Token.sourceIn` — the text that a token was read from.
* `RuleCommand.Tiles` — tokens that lie side by side.
* `RuleCommand.Token.Shaped` — what the text of a literal and of a directive looks like.
* `RuleCommand.Cursor.Lossless` — a run of a cursor that loses nothing.

## Main results

* `RuleCommand.Reads.tiles` — the tokens of the reading of the rest of a template tile it.
* `RuleCommand.Cursor.lossless` — the run of a cursor loses nothing.
-/

namespace RuleCommand

/-! ## Tilings -/

/-- The text that a token was read from: the text itself for a literal, two dollar signs for an
escape, and the bytes between its ends for a directive. -/
def Token.sourceIn (template : List Char) (token : Token) : Except BadSlice (List Char) :=
  match token.lexeme with
  | .literal text => .ok text.toList
  | .escape => .ok ['$', '$']
  | .directive _ => slice template token.start token.stop

/-- Tokens that lie side by side from a byte offset on, and the text that they were read from: each
one starts where the text of the one before has ended. -/
inductive Tiles (template : List Char) : Nat → List Token → List Char → Prop
  /-- No tokens were read from no text. -/
  | nil (offset : Nat) : Tiles template offset [] []
  /-- The text of a token stands before the text of the others. -/
  | cons {token : Token} {tokens : List Token} {source text : List Char} :
      token.sourceIn template = .ok source →
        Tiles template (token.start + byteLength source) tokens text →
          Tiles template token.start (token :: tokens) (source ++ text)

/-- What the text of a token looks like. -/
structure Token.Shaped (template : List Char) (token : Token) : Prop where
  /-- A literal is not empty and holds no dollar sign. -/
  literal : ∀ text, token.lexeme = .literal text → text ≠ "" ∧ '$' ∉ text.toList
  /-- A directive ends with its only closing parenthesis. -/
  directive : ∀ d, token.lexeme = .directive d → ∃ body,
    slice template token.start token.stop = .ok ('$' :: '(' :: (body ++ [')'])) ∧ ')' ∉ body

/-- A run over a template that loses nothing: the tokens and the fault that are handed out, and the
text that was read before the fault or the end. -/
structure Cursor.Lossless (template : String) (tokens : List Token)
    (fault? : Option (Nat × Fault)) (read : List Char) : Prop where
  /-- The tokens are handed out first, each at its start, then the fault, if any, and from then on
  nothing. No slice is bad. -/
  answers : ∀ count, (ofText template).answers count =
    .ok ((List.range count).map ((tokens.map (fun token => Item.found token.start token) ++
      (fault?.map fun located => Item.fault located.1 located.2).toList)[·]?))
  /-- There are no more items than bytes. -/
  length_le : tokens.length + fault?.toList.length ≤ template.utf8ByteSize
  /-- The tokens tile what was read, from the first byte on. -/
  tiles : Tiles template.toList 0 tokens read
  /-- Without a fault the whole template was read. -/
  whole : fault? = none → read = template.toList
  /-- With a fault, just the part before the dollar sign at fault was read. -/
  before : ∀ offset fault, fault? = some (offset, fault) → ∃ rest,
    template.toList = read ++ '$' :: rest ∧ pieceAfterDollar rest = .error fault ∧
      offset = byteLength read + fault.lead
  /-- The text of each token has the shape of its kind. -/
  shaped : ∀ token ∈ tokens, token.Shaped template.toList
  /-- No two literals are neighbours. -/
  separate : tokens.IsChain fun a b =>
    ¬(a.lexeme.isLiteral = true ∧ b.lexeme.isLiteral = true)

/-! ## The token of a piece -/

/-- The token of a piece that starts at a byte offset. -/
def Piece.tokenAt (piece : Piece) (start : Nat) : Token :=
  ⟨start, start + piece.size, piece.lexeme⟩

namespace Piece.IsWritten

variable {piece : Piece} (written : piece.IsWritten) (before rest : List Char)
include written

/-- The token of a written piece was read from the source of the piece. -/
lemma sourceIn_tokenAt :
    (piece.tokenAt (byteLength before)).sourceIn (before ++ (piece.source ++ rest)) =
      .ok piece.source := by
  cases written with
  | plain _ _ => simp [Token.sourceIn, tokenAt, Piece.plain]
  | dollar => rfl
  | @directive body d _ _ => exact slice_append before (ofDirective body d).source rest

/-- The token of a written piece has the shape of its kind. -/
lemma shaped_tokenAt :
    (piece.tokenAt (byteLength before)).Shaped (before ++ (piece.source ++ rest)) := by
  cases written with
  | @plain text nonempty noDollar =>
    refine ⟨?_, by simp [tokenAt, Piece.plain]⟩
    intro literal hliteral
    obtain rfl : String.ofList text = literal := by simpa [tokenAt, Piece.plain] using hliteral
    rw [String.toList_ofList]
    exact ⟨by simpa using nonempty, noDollar⟩
  | dollar => exact ⟨by simp [tokenAt, Piece.dollar], by simp [tokenAt, Piece.dollar]⟩
  | @directive body d hbody _ =>
    refine ⟨by simp [tokenAt, ofDirective], ?_⟩
    intro _ _
    exact ⟨body, slice_append before (ofDirective body d).source rest, hbody⟩

/-- A written piece takes at least a byte. -/
lemma size_pos : 0 < piece.size := by
  have hsource : piece.source ≠ [] := by
    cases written with
    | plain nonempty _ => exact nonempty
    | dollar => simp [Piece.dollar]
    | directive _ _ => simp [ofDirective]
  obtain ⟨c, text, htext⟩ := List.exists_cons_of_ne_nil hsource
  have hpos := c.utf8Size_pos
  rw [size, htext, byteLength_cons]
  omega

end Piece.IsWritten

/-! ## The tokens of a reading -/

namespace Reads

variable {rest : List Char} {reading : Reading}

/-- **The tokens of the reading of the rest of a template tile it**, from the end of what was read
before.

**Proof sketch.** Induction on the derivation of the reading. The first token is read from the
source of the first piece, and the others start behind it. -/
theorem tiles (h : Reads rest reading) (before : List Char) :
    Tiles (before ++ rest) (byteLength before) (tokensFrom (byteLength before) reading.pieces)
      reading.source := by
  induction h generalizing before with
  | done => exact .nil _
  | fault _ => exact .nil _
  | @piece piece rest reading written _ _ ih =>
    have hsource := written.sourceIn_tokenAt before rest
    have htail := ih (before ++ piece.source)
    rw [byteLength_append, List.append_assoc] at htail
    exact .cons hsource htail

/-- The tokens of the reading of the rest of a template have the shapes of their kinds. -/
lemma shaped (h : Reads rest reading) (before : List Char) :
    ∀ token ∈ tokensFrom (byteLength before) reading.pieces, token.Shaped (before ++ rest) := by
  induction h generalizing before with
  | done => simp [tokensFrom]
  | fault _ => simp [tokensFrom]
  | @piece piece rest reading written _ _ ih =>
    have htail := ih (before ++ piece.source)
    rw [byteLength_append, List.append_assoc] at htail
    intro token htoken
    rcases List.mem_cons.mp htoken with rfl | htoken
    · exact written.shaped_tokenAt before rest
    · exact htail token htoken

/-- A reading takes at least a byte for each piece and one for the fault. -/
lemma length_le (h : Reads rest reading) :
    reading.pieces.length + reading.fault?.toList.length ≤ byteLength rest := by
  induction h with
  | done => simp
  | @fault text _ _ =>
    have hpos := Char.utf8Size_pos '$'
    rw [byteLength_cons]
    simp only [List.length_nil, Option.toList_some, List.length_singleton]
    omega
  | @piece piece rest reading written _ _ ih =>
    have hpos := written.size_pos
    rw [Piece.size] at hpos
    rw [byteLength_append, Reading.pieces_cons, Reading.fault?_cons, List.length_cons]
    omega

/-- Where a reading ended early, a dollar sign follows with which no piece starts. -/
lemma exists_of_located? (h : Reads rest reading) {offset : Nat} {fault : Fault}
    (hfault : reading.located? = some (offset, fault)) :
    ∃ behind, rest = reading.source ++ '$' :: behind ∧ pieceAfterDollar behind = .error fault ∧
      offset = byteLength reading.source + fault.lead := by
  obtain ⟨fault, hsome, hlocated⟩ := Option.map_eq_some_iff.mp hfault
  cases hlocated
  obtain ⟨_, htext, hrest⟩ := h.eq_source_append
  rw [hsome] at hrest
  obtain ⟨behind, rfl, herror⟩ := hrest
  exact ⟨behind, htext, herror, rfl⟩

end Reads

/-! ## The run of a cursor -/

/-- **The run of a cursor loses nothing**, whatever the template: it hands out finitely many items,
of which only the last may be a fault, and then nothing for ever; its tokens tile the template, or
the part before the dollar sign at fault.

**Proof sketch.** The cursor hands out the items of the reading that is made at once
(`Cursor.answers_ofText`), and the derivation of that reading gives the rest. -/
theorem Cursor.lossless (template : String) :
    Lossless template (Reading.ofText template).tokens (Reading.ofText template).located?
      (Reading.ofText template).source := by
  have h : Reads template.toList (Reading.ofText template) := reads_iff.mpr rfl
  refine ⟨answers_ofText template, ?_, h.tiles [], ?_, fun _ _ => h.exists_of_located?,
    h.shaped [], ?_⟩
  · have hlength := h.length_le
    rw [byteLength_toList] at hlength
    rw [Reading.tokens, length_tokensFrom, Reading.located?]
    cases hfault : (Reading.ofText template).fault? with
    | none => simpa [hfault] using hlength
    | some fault => simpa [hfault] using hlength
  · intro hfault
    exact h.source_eq (Option.map_eq_none_iff.mp hfault)
  · have hlexemes : ((Reading.ofText template).pieces.map (·.lexeme)).IsChain fun a b =>
        ¬(a.isLiteral = true ∧ b.isLiteral = true) := (List.isChain_map _).mpr h.isChain
    rw [← map_lexeme_tokensFrom 0] at hlexemes
    exact (List.isChain_map _).mp hlexemes

end RuleCommand
