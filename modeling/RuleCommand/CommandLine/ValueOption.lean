set_option autoImplicit false

/-!
# Options with a value

The options of the command line that take the word behind them as their value, and how such a value
is read. A name and its value are given as one word, joined by an equals sign. A group of files is
given the same way, its paths separated by commas. A debug mode is given by its name.

## Main definitions

* `RuleCommand.ValueOption` — the options.
* `RuleCommand.ValueOption.spellings` — how an option may be written.
* `RuleCommand.ValueOption.isRepeatable` — whether an option may be given more than once.
* `RuleCommand.parseBinding` — the name and the value in a word.
* `RuleCommand.parseFileGroup` — the label and the paths in a word.
* `RuleCommand.DebugMode` — what can be listed besides the compiled command.
* `RuleCommand.DebugMode.parse` — the mode with a given name.
-/

namespace RuleCommand

/-! ## Options -/

/-- An option that takes the word behind it as its value. -/
inductive ValueOption where
  /-- The name of the rule. -/
  | name
  /-- The template of its command. -/
  | command
  /-- A file that the rule produces. -/
  | output
  /-- A label of files that the rule reads. -/
  | source
  /-- A label of a tool that the rule runs. -/
  | tool
  /-- A label of files that the rule uses as tools. -/
  | toolFile
  /-- A variable with its value. -/
  | binding
  /-- A label of a host tool with its path. -/
  | providedTool
  /-- A label of a group of files with their paths. -/
  | providedFiles
  /-- A mode for debugging. -/
  | debugMode
deriving DecidableEq, Repr

namespace ValueOption

/-- Every option once, in the order in which they are taken out of a command line. -/
def all : List ValueOption :=
  [name, command, output, source, tool, toolFile, binding, providedTool, providedFiles, debugMode]

theorem mem_all (option : ValueOption) : option ∈ all := by
  cases option <;> decide

/-- How an option may be written. A spelling is looked for before those behind it. -/
def spellings : ValueOption → List String
  | name => ["--name"]
  | command => ["--cmd"]
  | output => ["-o", "--out"]
  | source => ["-s", "--src"]
  | tool => ["-t", "--tool"]
  | toolFile => ["-f", "--tool-file"]
  | binding => ["--var"]
  | providedTool => ["--provide-tool"]
  | providedFiles => ["--provide-files"]
  | debugMode => ["-d"]

/-- Whether an option may be given more than once. -/
def isRepeatable : ValueOption → Bool
  | name => false
  | command => false
  | _ => true

end ValueOption

/-- The word that declares a dependency file. -/
def depfileFlag : String :=
  "--depfile"

/-! ## Bindings and groups of files -/

/-- A word that binds no name. -/
structure BindingError where
  /-- The word. -/
  text : String
deriving DecidableEq, Repr

/-- The text shown for an error. -/
def BindingError.message (error : BindingError) : String :=
  "expected NAME=VALUE, got '" ++ error.text ++ "'"

/-- The name and the value in a word, which are separated by its first equals sign. The name may
not be empty. -/
def parseBinding (text : String) : Except BindingError (String × String) :=
  let name := text.toList.takeWhile (· != '=')
  match text.toList.dropWhile (· != '=') with
  | [] => .error ⟨text⟩
  | _ :: value =>
    if name = [] then .error ⟨text⟩ else .ok (String.ofList name, String.ofList value)

/-- The items of a list separated by commas. Empty items do not count. -/
def splitItems (text : String) : List String :=
  ((text.toList.splitOn ',').filter (· ≠ [])).map String.ofList

/-- The label and the paths in a word. -/
def parseFileGroup (text : String) : Except BindingError (String × List String) :=
  (parseBinding text).map fun binding => (binding.1, splitItems binding.2)

/-! ## Debug modes -/

/-- What is listed besides the compiled command. -/
inductive DebugMode where
  /-- The pieces of the template. -/
  | directives
  /-- The dependencies of the rule. -/
  | deps
deriving DecidableEq, Repr

/-- A word that names no debug mode. -/
structure DebugModeError where
  /-- The word. -/
  text : String
deriving DecidableEq, Repr

/-- The text shown for an error. -/
def DebugModeError.message (error : DebugModeError) : String :=
  "Unknown debug setting '" ++ error.text ++ "'"

/-- The mode with a given name. -/
def DebugMode.parse (text : String) : Except DebugModeError DebugMode :=
  match text with
  | "directives" => .ok .directives
  | "deps" => .ok .deps
  | _ => .error ⟨text⟩

end RuleCommand
