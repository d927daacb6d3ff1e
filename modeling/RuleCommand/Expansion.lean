import RuleCommand.Dependencies

set_option autoImplicit false

/-!
# Expansion of a template

A template is expanded by replacing each directive by its value. Text and doubled dollar signs
stay as they are. A compiled command does not name the files it works on: the value of a directive
for them is a placeholder, which is replaced by real paths when the command is executed.

## Main definitions

* `RuleCommand.Placeholder` — the four placeholders.
* `RuleCommand.Placeholder.text` — the text that stands for one in a command.
* `RuleCommand.Directive.value` — the value of a directive.
* `RuleCommand.Expansion` — an expanded template.
* `RuleCommand.expand` — the expansion of a template.

## Main results

* `RuleCommand.Placeholder.text_injective` — no two placeholders share a text.
-/

namespace RuleCommand

/-! ## Placeholders -/

/-- What a command may refer to before its paths are known. -/
inductive Placeholder where
  /-- The input files. -/
  | inputs
  /-- The declared output files. -/
  | outputFiles
  /-- The directory that holds the outputs. -/
  | outputDir
  /-- The file that lists the dependencies found while the command ran. -/
  | depfile
deriving DecidableEq, Repr

namespace Placeholder

/-- Every placeholder once. -/
def all : List Placeholder :=
  [inputs, outputFiles, outputDir, depfile]

/-- The text that stands for a placeholder in a command. -/
def text : Placeholder → String
  | inputs => "$\x7bin\x7d"
  | outputFiles => "__SBOX_OUT_FILES__"
  | outputDir => "__SBOX_OUT_DIR__"
  | depfile => "__SBOX_DEPFILE__"

theorem mem_all (placeholder : Placeholder) : placeholder ∈ all := by
  cases placeholder <;> decide

/-- No two placeholders share a text. -/
theorem text_injective {a b : Placeholder} (h : a.text = b.text) : a = b := by
  revert h
  cases a <;> cases b <;> decide

end Placeholder

/-! ## Expansions -/

/-- The value of a directive. -/
def Directive.value (deps : Dependencies) (vars : Variables) (directive : Directive) :
    Except CompileError String :=
  let argument := directive.argument.getD ""
  match directive.kind with
  | .bareLocation => deps.bareLocation
  | .location => deps.location argument
  | .locations => deps.locations argument
  | .inputs => .ok Placeholder.inputs.text
  | .outputs => .ok Placeholder.outputFiles.text
  | .depfile => .ok Placeholder.depfile.text
  | .outputDir => .ok Placeholder.outputDir.text
  | .var =>
    match vars.lookup argument with
    | some value => .ok value
    | none => .error (.unknownVariable argument)

/-- The text that replaces a lexeme. -/
def Lexeme.value (deps : Dependencies) (vars : Variables) :
    Lexeme → Except CompileError String
  | .literal text => .ok text
  | .escape => .ok "$$"
  | .directive d => d.value deps vars

/-- An expanded template. -/
structure Expansion where
  /-- The text. -/
  text : String
  /-- Whether the template refers to the dependency file. -/
  usesDepfile : Bool
deriving DecidableEq, Repr

/-- The expansion of a template. Of several errors the one that comes first in the template is
reported, be it a directive without a value or the fault that ends the reading. -/
def expand (template : String) (deps : Dependencies) (vars : Variables) :
    Except CompileError Expansion := do
  let reading := Reading.ofText template
  let values ← reading.pieces.mapM fun piece => piece.lexeme.value deps vars
  match SyntaxError.ofReading? template.toList reading with
  | some error => throw (.malformed error)
  | none => return {
      text := String.join values
      usesDepfile := reading.pieces.any fun piece => piece.lexeme.hasKind .depfile }

end RuleCommand
