import RuleCommand.Text.Position
import RuleCommand.Template.Directive

set_option autoImplicit false

/-!
# Pieces of a template

A template is a sequence of pieces: runs of plain text, doubled dollar signs and directives. A
piece keeps the text it was written as beside what that text means.

## Main definitions

* `RuleCommand.Lexeme` — what a piece means.
* `RuleCommand.Piece` — a lexeme with its source text.
* `RuleCommand.Piece.plain`, `RuleCommand.Piece.dollar`, `RuleCommand.Piece.ofDirective` — the
  three ways to write one.
-/

namespace RuleCommand

/-- What a piece of a template means. -/
inductive Lexeme where
  /-- Text that is copied. -/
  | literal (text : String)
  /-- A doubled dollar sign, which is copied as it is: the executor makes it a single one. -/
  | escape
  /-- A directive, which is replaced by its value. -/
  | directive (directive : Directive)
deriving DecidableEq, Repr

namespace Lexeme

/-- A lexeme as listings show it. -/
def describe : Lexeme → String
  | literal text => "literal " ++ quoteText text
  | escape => "escape $$"
  | directive d => "directive " ++ d.render

/-- A lexeme in its plainest written form. -/
def render : Lexeme → String
  | literal text => text
  | escape => "$$"
  | directive d => d.render

/-- Whether a lexeme is a directive of a given kind. -/
def hasKind (kind : Directive.Kind) : Lexeme → Bool
  | directive d => d.kind = kind
  | _ => false

end Lexeme

/-- A lexeme with the text that it was written as. -/
structure Piece where
  /-- The text in the template. -/
  source : List Char
  /-- What the text means. -/
  lexeme : Lexeme
deriving DecidableEq, Repr

namespace Piece

/-- A run of plain text. -/
def plain (text : List Char) : Piece :=
  ⟨text, .literal (String.ofList text)⟩

/-- A doubled dollar sign. -/
def dollar : Piece :=
  ⟨['$', '$'], .escape⟩

/-- A directive with the text between its parentheses. -/
def ofDirective (body : List Char) (directive : Directive) : Piece :=
  ⟨'$' :: '(' :: (body ++ [')']), .directive directive⟩

/-- The number of bytes of a piece. -/
def size (piece : Piece) : Nat :=
  byteLength piece.source

/-- A directive takes three bytes more than its body. -/
theorem size_ofDirective (body : List Char) (directive : Directive) :
    (ofDirective body directive).size = byteLength body + 3 := by
  have whole : (ofDirective body directive).size =
      byteLength ['$', '('] + byteLength (body ++ [')']) :=
    byteLength_append ['$', '('] (body ++ [')'])
  have opening : byteLength ['$', '('] = 2 := rfl
  have closing : byteLength [')'] = 1 := rfl
  rw [byteLength_append] at whole
  omega

end Piece

end RuleCommand
