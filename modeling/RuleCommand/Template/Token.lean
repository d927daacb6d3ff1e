import RuleCommand.Template.Reading

set_option autoImplicit false

/-!
# Pieces in their places

A listing shows where in the template each piece stands, and where the reading ended if it ended
early. The numbers in it stand at the right of their column.

## Main definitions

* `RuleCommand.Token` — a lexeme with the range of bytes that it takes.
* `RuleCommand.Reading.tokens` — the lexemes of a reading in their places.
* `RuleCommand.alignRight` — a text at the right end of a column.
* `RuleCommand.ListingLine` — a line of a listing.
* `RuleCommand.Reading.lines`, `RuleCommand.Reading.listing` — a reading as a listing.

## Main results

* `RuleCommand.getElem?_tokensFrom` — the place of a piece is the length of what is before it.
-/

namespace RuleCommand

/-! ## Tokens -/

/-- A lexeme with the range of bytes that it takes in a template. -/
structure Token where
  /-- The offset of its first byte. -/
  start : Nat
  /-- The offset behind its last byte. -/
  stop : Nat
  /-- What it means. -/
  lexeme : Lexeme
deriving DecidableEq, Repr

/-- The lexemes of consecutive pieces, the first of which starts at a given offset. -/
def tokensFrom (start : Nat) : List Piece → List Token
  | [] => []
  | piece :: rest =>
    ⟨start, start + piece.size, piece.lexeme⟩ :: tokensFrom (start + piece.size) rest

@[simp] theorem length_tokensFrom (start : Nat) (pieces : List Piece) :
    (tokensFrom start pieces).length = pieces.length := by
  induction pieces generalizing start with
  | nil => rfl
  | cons piece pieces ih => simp [tokensFrom, ih]

/-- The place of a piece is the length of what is before it. -/
theorem getElem?_tokensFrom (start : Nat) (pieces : List Piece) (i : Nat) :
    (tokensFrom start pieces)[i]? = pieces[i]?.map fun piece =>
      let before := start + byteLength ((pieces.take i).flatMap (·.source))
      ⟨before, before + piece.size, piece.lexeme⟩ := by
  induction pieces generalizing start i with
  | nil => simp [tokensFrom]
  | cons piece pieces ih =>
    cases i with
    | zero => simp [tokensFrom]
    | succ i => simp [tokensFrom, ih, Piece.size, Nat.add_assoc]

/-- A token means what its piece does. -/
theorem map_lexeme_tokensFrom (start : Nat) (pieces : List Piece) :
    (tokensFrom start pieces).map (·.lexeme) = pieces.map (·.lexeme) := by
  induction pieces generalizing start with
  | nil => rfl
  | cons piece pieces ih => rw [tokensFrom, List.map_cons, List.map_cons, ih]

/-- The lexemes of a reading in their places. -/
def Reading.tokens (reading : Reading) : List Token :=
  tokensFrom 0 reading.pieces

/-! ## Listings -/

/-- A text at the right end of a column of a given width. A longer text is kept as it is. -/
def alignRight (width : Nat) (text : String) : String :=
  String.ofList (List.replicate (width - text.length) ' ') ++ text

/-- A line of a listing. -/
inductive ListingLine where
  /-- A lexeme at a byte offset. -/
  | lexeme (offset : Nat) (lexeme : Lexeme)
  /-- The fault that ended the reading, at a byte offset. -/
  | fault (offset : Nat) (fault : Fault)
deriving DecidableEq, Repr

namespace ListingLine

/-- The byte offset that a line is about. -/
def offset : ListingLine → Nat
  | lexeme offset _ => offset
  | fault offset _ => offset

/-- What a line tells about its offset. -/
def content : ListingLine → String
  | lexeme _ l => l.describe
  | fault _ f => "error: " ++ f.message

/-- A line as it is printed. -/
def render (line : ListingLine) : String :=
  alignRight 4 (toString line.offset) ++ " " ++ line.content ++ "\n"

end ListingLine

namespace Reading

/-- The lines of a listing: one for each lexeme, and a last one for the fault, if any. -/
def lines (reading : Reading) : List ListingLine :=
  reading.tokens.map (fun token => .lexeme token.start token.lexeme) ++
    (reading.located?.map fun located => .fault located.1 located.2).toList

/-- A reading as a listing. -/
def listing (reading : Reading) : String :=
  String.join (reading.lines.map ListingLine.render)

end Reading

end RuleCommand
