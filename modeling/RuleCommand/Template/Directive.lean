import RuleCommand.Text.Blank
import RuleCommand.Template.Fault

set_option autoImplicit false

/-!
# Directives

A directive is the part of a template that is replaced by a value. It is written in parentheses
behind a dollar sign: a word that has a meaning of its own, one of the two words that take a label,
or else the name of a variable.

## Main definitions

* `RuleCommand.Directive` — a directive, by its kind and its argument.
* `RuleCommand.Directive.ofBody` — the directive written by the text between the parentheses.
* `RuleCommand.Directive.render` — a directive in its plainest written form.
-/

namespace RuleCommand

/-- What a directive stands for. -/
inductive Directive.Kind where
  /-- The path of the only tool, or else of the only tool file. -/
  | bareLocation
  /-- The one path of a label. -/
  | location
  /-- All paths of a label. -/
  | locations
  /-- The input files. -/
  | inputs
  /-- The output files. -/
  | outputs
  /-- The dependency file. -/
  | depfile
  /-- The directory of the outputs. -/
  | outputDir
  /-- The value of a variable. -/
  | var
deriving DecidableEq, Repr

/-- A part of a template that is replaced by a value. -/
structure Directive where
  /-- What it stands for. -/
  kind : Directive.Kind
  /-- The label of a location, the name of a variable, and nothing for the other kinds. -/
  argument : Option String := none
deriving DecidableEq, Repr

namespace Directive

/-! ## Reading -/

/-- The directive that a single word writes. The word that asks for all paths needs a label. -/
def ofWord (word : String) : Except Fault Directive :=
  match word with
  | "location" => .ok ⟨.bareLocation, none⟩
  | "locations" => .error .missingLabel
  | "in" => .ok ⟨.inputs, none⟩
  | "out" => .ok ⟨.outputs, none⟩
  | "depfile" => .ok ⟨.depfile, none⟩
  | "genDir" => .ok ⟨.outputDir, none⟩
  | name => .ok ⟨.var, some name⟩

/-- The directive that a word with more text behind it writes: the words for locations take the
rest as their label, any other text is the name of a variable as a whole. -/
def ofPhrase (word label whole : String) : Directive :=
  match word with
  | "location" => ⟨.location, some label⟩
  | "locations" => ⟨.locations, some label⟩
  | _ => ⟨.var, some whole⟩

/-- The directive written by the text between the parentheses. Blanks around the text, and around
the label in it, do not count. -/
def ofBody (body : List Char) : Except Fault Directive :=
  let text := trim body
  if text = [] then .error .emptyDirective
  else
    let word := String.ofList (firstWord text)
    if afterWord text = [] then ofWord word
    else .ok (ofPhrase word (String.ofList (trim (afterWord text))) (String.ofList text))

/-! ## Writing -/

/-- The name of a kind. -/
def Kind.name : Kind → String
  | bareLocation => "BareLocation"
  | location => "Location"
  | locations => "Locations"
  | inputs => "In"
  | outputs => "Out"
  | depfile => "Depfile"
  | outputDir => "GenDir"
  | var => "Variable"

/-- What stands between the parentheses when a directive is written in its plainest form. A kind
that lacks the argument it needs is written by its name. -/
def body : Directive → String
  | ⟨.bareLocation, _⟩ => "location"
  | ⟨.location, some label⟩ => "location " ++ label
  | ⟨.locations, some label⟩ => "locations " ++ label
  | ⟨.inputs, _⟩ => "in"
  | ⟨.outputs, _⟩ => "out"
  | ⟨.depfile, _⟩ => "depfile"
  | ⟨.outputDir, _⟩ => "genDir"
  | ⟨.var, some name⟩ => name
  | ⟨kind, none⟩ => kind.name

/-- A directive in its plainest written form. -/
def render (directive : Directive) : String :=
  "$(" ++ directive.body ++ ")"

end Directive

end RuleCommand
