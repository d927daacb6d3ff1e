import RuleCommand.CommandLine.ValueOption
import RuleCommand.CommandLine.Config

set_option autoImplicit false

/-!
# Arguments

A configuration is read from the words of a command line by taking out one option after the other,
in a fixed order. An option is looked for among all words that are left, whatever role they were
meant to play, and the word behind it is its value. Words that no option takes are left over.

## Main definitions

* `RuleCommand.ArgumentError` — why no configuration can be read.
* `RuleCommand.Extraction` — a step that takes words out of a command line.
* `RuleCommand.takeFlag`, `RuleCommand.takeValue`, `RuleCommand.takeValues` — the steps.
* `RuleCommand.parseConfig` — the configuration in a command line, and the words left over.

## Main results

* `RuleCommand.length_of_takeValue` — an option that is found makes the command line shorter.
-/

namespace RuleCommand

/-! ## Errors -/

/-- A reason why no configuration can be read from a command line. -/
inductive ArgumentError where
  /-- No template for the command is given. -/
  | missingCommand
  /-- An option is the last word. -/
  | missingValue (key : String)
  /-- The value of an option should bind a name and does not. -/
  | badBinding (error : BindingError)
  /-- The value of an option should name a debug mode and does not. -/
  | badDebugMode (error : DebugModeError)
deriving DecidableEq, Repr

namespace ArgumentError

/-- The text shown for a value that cannot be read. -/
def badValue (value cause : String) : String :=
  "failed to parse '" ++ value ++ "': " ++ cause

/-- The text shown for an error. -/
def message : ArgumentError → String
  | missingCommand => "the '--cmd' option must be set"
  | missingValue key => "the '" ++ key ++ "' option doesn't have an associated value"
  | badBinding error => badValue error.text error.message
  | badDebugMode error => badValue error.text error.message

end ArgumentError

/-! ## Taking words out -/

/-- The words before and behind the first occurrence of a word. -/
def cutAt (key : String) : List String → Option (List String × List String)
  | [] => none
  | word :: rest =>
    if word = key then some ([], rest)
    else (cutAt key rest).map fun parts => (word :: parts.1, parts.2)

theorem length_of_cutAt {key : String} {words before behind : List String}
    (h : cutAt key words = some (before, behind)) :
    words.length = before.length + behind.length + 1 := by
  induction words generalizing before with
  | nil => simp [cutAt] at h
  | cons word rest ih =>
    rw [cutAt] at h
    split at h
    · simp only [Option.some.injEq, Prod.mk.injEq] at h
      simp [← h.1, ← h.2]
    · obtain ⟨⟨front, back⟩, found, eq⟩ := Option.map_eq_some_iff.mp h
      simp only [Prod.mk.injEq] at eq
      obtain ⟨rfl, rfl⟩ := eq
      simp only [List.length_cons, ih found]
      omega

/-- The words without the first occurrence of a word, if it occurs. -/
def takeFlag (key : String) (words : List String) : Option (List String) :=
  (cutAt key words).map fun parts => parts.1 ++ parts.2

/-- The value of an option and the words without both, if the option occurs. Of several spellings
the first that occurs counts. The value is the next word, whatever it is. -/
def takeValue (keys words : List String) : Except ArgumentError (Option (String × List String)) :=
  match keys.findSome? fun key => (cutAt key words).map (key, ·) with
  | none => .ok none
  | some (_, before, value :: behind) => .ok (some (value, before ++ behind))
  | some (key, _, []) => .error (.missingValue key)

/-- An option that is found makes the command line shorter by two words. -/
theorem length_of_takeValue {keys words rest : List String} {value : String}
    (h : takeValue keys words = .ok (some (value, rest))) : words.length = rest.length + 2 := by
  unfold takeValue at h
  split at h
  · simp at h
  · next key before found behind eq =>
    simp only [Except.ok.injEq, Option.some.injEq, Prod.mk.injEq] at h
    obtain ⟨_, _, cut⟩ := List.exists_of_findSome?_eq_some eq
    obtain ⟨parts, cut, parts_eq⟩ := Option.map_eq_some_iff.mp cut
    simp only [Prod.mk.injEq] at parts_eq
    obtain ⟨-, rfl⟩ := parts_eq
    have total := length_of_cutAt cut
    simp only [← h.2, List.length_append, List.length_cons] at total ⊢
    omega
  · simp at h

/-- The values of an option that may be repeated, each read by a function, and the words without
them. -/
def takeValues {α : Type} (keys : List String) (read : String → Except ArgumentError α)
    (words : List String) : Except ArgumentError (List α × List String) :=
  match _taken : takeValue keys words with
  | .error error => .error error
  | .ok none => .ok ([], words)
  | .ok (some (text, rest)) => do
    let value ← read text
    let (values, rest) ← takeValues keys read rest
    return (value :: values, rest)
termination_by words.length
decreasing_by
  have := length_of_takeValue _taken
  omega

/-! ## Configurations -/

/-- A step that takes words out of a command line. -/
abbrev Extraction (α : Type) := StateT (List String) (Except ArgumentError) α

namespace Extraction

/-- Whether a word occurs. -/
def flag (key : String) : Extraction Bool := fun words =>
  match takeFlag key words with
  | some rest => .ok (true, rest)
  | none => .ok (false, words)

/-- The value of an option that need not be given. -/
def value? (option : ValueOption) : Extraction (Option String) := fun words => do
  match ← takeValue option.spellings words with
  | some (value, rest) => return (some value, rest)
  | none => return (none, words)

/-- The template of the command, which has to be given. -/
def command : Extraction String := do
  match ← value? .command with
  | some template => return template
  | none => throw .missingCommand

/-- The values of an option that may be repeated, each read by a function. -/
def values {α : Type} (option : ValueOption) (read : String → Except ArgumentError α) :
    Extraction (List α) :=
  takeValues option.spellings read

/-- A label or a path, which any word is. -/
def readWord (text : String) : Except ArgumentError String :=
  .ok text

/-- A name with its value. -/
def readBinding (text : String) : Except ArgumentError (String × String) :=
  (parseBinding text).mapError .badBinding

/-- A label with the paths of its group. -/
def readFileGroup (text : String) : Except ArgumentError (String × List String) :=
  (parseFileGroup text).mapError .badBinding

/-- A mode for debugging. -/
def readDebugMode (text : String) : Except ArgumentError DebugMode :=
  (DebugMode.parse text).mapError .badDebugMode

/-- The configuration in a command line. -/
def config : Extraction Config := do
  let name ← value? .name
  let command ← command
  let outputs ← values .output readWord
  let sources ← values .source readWord
  let tools ← values .tool readWord
  let toolFiles ← values .toolFile readWord
  let depfile ← flag depfileFlag
  let bindings ← values .binding readBinding
  let providedTools ← values .providedTool readBinding
  let providedFiles ← values .providedFiles readFileGroup
  let debugModes ← values .debugMode readDebugMode
  return {
    rule := {
      name := name.getD Config.defaultName
      command, outputs, sources, tools, toolFiles, depfile }
    bindings, providedTools, providedFiles, debugModes }

end Extraction

/-- The configuration in a command line, and the words left over. -/
def parseConfig (words : List String) : Except ArgumentError (Config × List String) :=
  Extraction.config words

end RuleCommand
