import RuleCommand.Proofs.CommandLine.Bindings
import RuleCommand.Proofs.CommandLine.Groups

set_option autoImplicit false

/-!
# The configuration on a command line

A command line made of groups describes a configuration whatever the order of the groups: it has the
first name and the first command, all values of the options that may be repeated, and the words that
no option takes are left over. It describes none if there is no command, or if a value that has to
be read cannot be read.

## Main definitions

* `RuleCommand.Group.leftover` — the groups that no option takes.
* `RuleCommand.Group.checked`, `RuleCommand.Group.Unreadable` — the values that have to be read, and
  those that cannot be read.
* `RuleCommand.Group.Describes` — the configuration that groups describe.

## Main results

* `RuleCommand.Group.parseConfig_commandLine` — the steps on a command line made of groups.
* `RuleCommand.Group.parseConfig_of_groups` — what is read from a command line made of groups.
-/

namespace RuleCommand

/-! ## Reading values -/

section

variable {text : String}

/-- A word that names no debug mode is the one told in the error. -/
lemma eq_of_parse_eq_error {error : DebugModeError} (h : DebugMode.parse text = .error error) :
    error = ⟨text⟩ := by
  unfold DebugMode.parse at h
  split at h <;> cases h
  rfl

end

section

variable {ε ε' α : Type} {x : Except ε α} {f : ε → ε'}

lemma mapError_eq_ok_iff {a : α} : x.mapError f = .ok a ↔ x = .ok a := by
  cases x <;> simp [Except.mapError]

/-- If there is only one error to be mapped, it is known what it is mapped to. -/
lemma mapError_eq_error_iff {only : ε} (honly : ∀ e, x = .error e → e = only) {e : ε'} :
    x.mapError f = .error e ↔ x = .error only ∧ e = f only := by
  cases x with
  | ok a => simp [Except.mapError]
  | error found =>
    obtain rfl := honly found rfl
    simp [Except.mapError, eq_comm]

end

namespace Group

variable {groups : List Group} {option : ValueOption}

/-- The values that have to be read, in the order in which they are read. -/
def checked (groups : List Group) : List (ValueOption × String) :=
  [.binding, .providedTool, .providedFiles, .debugMode].flatMap fun option =>
    (values option groups).map (option, ·)

/-- A value of an option that cannot be read, with the error that tells it. -/
def Unreadable : ValueOption × String → ArgumentError → Prop
  | (.binding, text), error | (.providedTool, text), error =>
    parseBinding text = .error ⟨text⟩ ∧ error = .badBinding ⟨text⟩
  | (.providedFiles, text), error =>
    parseFileGroup text = .error ⟨text⟩ ∧ error = .badBinding ⟨text⟩
  | (.debugMode, text), error =>
    DebugMode.parse text = .error ⟨text⟩ ∧ error = .badDebugMode ⟨text⟩
  | _, _ => False

lemma readBinding_eq_error_iff {text : String} {error : ArgumentError} :
    Extraction.readBinding text = .error error ↔ Unreadable (.binding, text) error :=
  mapError_eq_error_iff fun _ => eq_of_parseBinding_eq_error

lemma readFileGroup_eq_error_iff {text : String} {error : ArgumentError} :
    Extraction.readFileGroup text = .error error ↔ Unreadable (.providedFiles, text) error :=
  mapError_eq_error_iff fun _ => eq_of_parseFileGroup_eq_error

lemma readDebugMode_eq_error_iff {text : String} {error : ArgumentError} :
    Extraction.readDebugMode text = .error error ↔ Unreadable (.debugMode, text) error :=
  mapError_eq_error_iff fun _ => eq_of_parse_eq_error

/-! ## What is left over -/

/-- The groups that no option takes: words that mean nothing, and what repeats the name, the command
or the flag. -/
def leftover (groups : List Group) : List Group :=
  (((groups.eraseP (gives .name)).eraseP (gives .command)).erase depfile).filter fun group =>
    !ValueOption.all.any fun option => option.isRepeatable && group.gives option

/-- A group gives a value to one option only. -/
lemma gives_eq_false_of_ne {group : Group} {other : ValueOption} (h : option ≠ other)
    (hgives : group.gives other = true) : group.gives option = false := by
  cases group with
  | pair found key value =>
    obtain rfl := of_decide_eq_true hgives
    exact decide_eq_false h.symm
  | depfile | stray => rfl

lemma values_eraseP_gives {other : ValueOption} (h : option ≠ other) :
    values option (groups.eraseP (gives other)) = values option groups :=
  values_eraseP fun _ hgives => gives_eq_false_of_ne h hgives

lemma values_filter_not_gives {other : ValueOption} (h : option ≠ other) :
    values option (groups.filter (!gives other ·)) = values option groups :=
  values_filter fun _ hgives => gives_eq_false_of_ne h (by simpa using hgives)

lemma values_erase_depfile : values option (groups.erase depfile) = values option groups := by
  rw [List.erase_eq_eraseP]
  refine values_eraseP fun group hgroup => ?_
  obtain rfl := eq_of_beq hgroup
  rfl

/-- No step on an option takes out the flag. -/
lemma depfile_mem_eraseP_gives : depfile ∈ groups.eraseP (gives option) ↔ depfile ∈ groups :=
  List.mem_eraseP_of_neg (Bool.false_ne_true)

lemma depfile_mem_filter_not_gives :
    depfile ∈ groups.filter (!gives option ·) ↔ depfile ∈ groups := by
  rw [List.mem_filter]
  exact and_iff_left rfl

/-- The steps in their order leave what no option takes. -/
lemma filter_steps :
    ((((((((((groups.eraseP (gives .name)).eraseP (gives .command)).filter
      (!gives .output ·)).filter (!gives .source ·)).filter (!gives .tool ·)).filter
      (!gives .toolFile ·)).erase depfile).filter (!gives .binding ·)).filter
      (!gives .providedTool ·)).filter (!gives .providedFiles ·)).filter (!gives .debugMode ·) =
      leftover groups := by
  simp only [List.filter_filter, List.erase_filter, leftover]
  congr 1
  funext group
  cases group with
  | pair option => cases option <;> rfl
  | depfile | stray => rfl

/-! ## The steps -/

section

variable {α β : Type} {step : Extraction α} {next : α → Extraction β} {words rest : List String}

/-- A step that succeeds hands on what it took out and the words that are left. -/
lemma bind_of_eq_ok {found : α} (h : step words = .ok (found, rest)) :
    (step >>= next) words = next found rest := by
  change (step words >>= fun found => next found.1 found.2) = _
  rw [h]
  rfl

/-- A step that fails ends the reading. -/
lemma bind_of_eq_error {error : ArgumentError} (h : step words = .error error) :
    (step >>= next) words = .error error := by
  change (step words >>= fun found => next found.1 found.2) = _
  rw [h]
  rfl

/-- An option that may be repeated hands on its values if they can be read. -/
lemma bind_values {read : String → Except ArgumentError α} {next : List α → Extraction β} :
    (Extraction.values option read >>= next) (commandLine groups) =
      (values option groups).mapM read >>= fun found =>
        next found (commandLine (groups.filter (!gives option ·))) := by
  change (takeValues option.spellings read (commandLine groups) >>= fun found =>
    next found.1 found.2) = _
  rw [takeValues_words]
  cases (values option groups).mapM read <;> rfl

end

/-- An option whose values need no reading takes them as they are. -/
lemma values_readWord_commandLine :
    Extraction.values option Extraction.readWord (commandLine groups) =
      .ok (values option groups, commandLine (groups.filter (!gives option ·))) := by
  have hread : (values option groups).mapM Extraction.readWord = .ok (values option groups) := by
    rw [mapM_eq_ok_map (f := Extraction.readWord) (g := id) fun _ _ => rfl, List.map_id]
  rw [Extraction.values, takeValues_words, hread]
  rfl

/-- **The steps on a command line made of groups.** -/
theorem parseConfig_commandLine (groups : List Group) :
    parseConfig (commandLine groups) =
      match (values .command groups).head? with
      | none => .error .missingCommand
      | some command => do
        let bindings ← (values .binding groups).mapM Extraction.readBinding
        let providedTools ← (values .providedTool groups).mapM Extraction.readBinding
        let providedFiles ← (values .providedFiles groups).mapM Extraction.readFileGroup
        let debugModes ← (values .debugMode groups).mapM Extraction.readDebugMode
        return ({
          rule := {
            name := (values .name groups).head?.getD Config.defaultName
            command
            outputs := values .output groups
            sources := values .source groups
            tools := values .tool groups
            toolFiles := values .toolFile groups
            depfile := decide (Group.depfile ∈ groups) }
          bindings, providedTools, providedFiles, debugModes }, commandLine (leftover groups)) := by
  have hcommand := @command_words (groups.eraseP (gives .name))
  rw [values_eraseP_gives (by decide)] at hcommand
  rw [parseConfig, Extraction.config, bind_of_eq_ok (value?_words rfl)]
  cases hfirst : (values .command groups).head? with
  | none =>
    rw [hfirst] at hcommand
    exact bind_of_eq_error hcommand
  | some template =>
    rw [hfirst] at hcommand
    rw [bind_of_eq_ok hcommand, bind_of_eq_ok values_readWord_commandLine,
      bind_of_eq_ok values_readWord_commandLine, bind_of_eq_ok values_readWord_commandLine,
      bind_of_eq_ok values_readWord_commandLine, bind_of_eq_ok flag_words]
    simp only [bind_values, values_filter_not_gives, values_eraseP_gives, values_erase_depfile,
      depfile_mem_filter_not_gives, depfile_mem_eraseP_gives, ne_eq, reduceCtorEq,
      not_false_eq_true, filter_steps]
    rfl

/-! ## The configuration -/

/-- The configuration that groups describe, and the words that are left over. -/
structure Describes (groups : List Group) (config : Config) (rest : List String) : Prop where
  /-- The name is the first that is given, if any. -/
  name : config.rule.name = (values .name groups).head?.getD "genrule"
  /-- The command is the first that is given. -/
  command : (values .command groups).head? = some config.rule.command
  /-- The outputs are those that are given. -/
  outputs : config.rule.outputs = values .output groups
  /-- The sources are those that are given. -/
  sources : config.rule.sources = values .source groups
  /-- The tools are those that are given. -/
  tools : config.rule.tools = values .tool groups
  /-- The tool files are those that are given. -/
  toolFiles : config.rule.toolFiles = values .toolFile groups
  /-- A dependency file is declared by its flag. -/
  depfile : config.rule.depfile = decide (depfile ∈ groups)
  /-- The variables are bound as they are given. -/
  bindings : (values .binding groups).map parseBinding = config.bindings.map .ok
  /-- The host tools are provided as they are given. -/
  providedTools : (values .providedTool groups).map parseBinding = config.providedTools.map .ok
  /-- The groups of files are provided as they are given. -/
  providedFiles :
    (values .providedFiles groups).map parseFileGroup = config.providedFiles.map .ok
  /-- The modes for debugging are those that are given. -/
  debugModes : (values .debugMode groups).map DebugMode.parse = config.debugModes.map .ok
  /-- The words of the groups that no option takes are left over. -/
  rest : rest = commandLine (leftover groups)

/-- Values that can be read give what they say. -/
lemma mapM_read_eq_ok_iff {ε α : Type} {read : String → Except ArgumentError α}
    {parse : String → Except ε α} {wrap : ε → ArgumentError}
    (hread : ∀ text, read text = (parse text).mapError wrap) {texts : List String}
    {found : List α} :
    texts.mapM read = .ok found ↔ texts.map parse = found.map .ok :=
  mapM_eq_ok_iff_map fun text value => by rw [hread, mapError_eq_ok_iff]

/-- What a reading gives, if it gives anything. -/
theorem parseConfig_commandLine_eq_ok_iff {config : Config} {rest : List String} :
    parseConfig (commandLine groups) = .ok (config, rest) ↔ Describes groups config rest := by
  rw [parseConfig_commandLine]
  constructor
  · intro h
    cases hcommand : (values .command groups).head? with
    | none => rw [hcommand] at h; cases h
    | some command =>
      rw [hcommand] at h
      obtain ⟨bindings, hbindings, h⟩ := bind_eq_ok_iff.mp h
      obtain ⟨providedTools, hprovidedTools, h⟩ := bind_eq_ok_iff.mp h
      obtain ⟨providedFiles, hprovidedFiles, h⟩ := bind_eq_ok_iff.mp h
      obtain ⟨debugModes, hdebugModes, h⟩ := bind_eq_ok_iff.mp h
      cases h
      exact {
        name := rfl, command := hcommand, outputs := rfl, sources := rfl, tools := rfl
        toolFiles := rfl, depfile := rfl, rest := rfl
        bindings := (mapM_read_eq_ok_iff fun _ => rfl).mp hbindings
        providedTools := (mapM_read_eq_ok_iff fun _ => rfl).mp hprovidedTools
        providedFiles := (mapM_read_eq_ok_iff fun _ => rfl).mp hprovidedFiles
        debugModes := (mapM_read_eq_ok_iff fun _ => rfl).mp hdebugModes }
  · intro h
    have hname : config.rule.name = (values .name groups).head?.getD Config.defaultName := h.name
    rw [h.command]
    refine bind_eq_ok_iff.mpr ⟨_, (mapM_read_eq_ok_iff fun _ => rfl).mpr h.bindings, ?_⟩
    refine bind_eq_ok_iff.mpr ⟨_, (mapM_read_eq_ok_iff fun _ => rfl).mpr h.providedTools, ?_⟩
    refine bind_eq_ok_iff.mpr ⟨_, (mapM_read_eq_ok_iff fun _ => rfl).mpr h.providedFiles, ?_⟩
    refine bind_eq_ok_iff.mpr ⟨_, (mapM_read_eq_ok_iff fun _ => rfl).mpr h.debugModes, ?_⟩
    rw [← hname, ← h.outputs, ← h.sources, ← h.tools, ← h.toolFiles, ← h.depfile, ← h.rest]
    rfl

/-- Why a reading gives nothing, if it gives nothing. -/
theorem parseConfig_commandLine_eq_error_iff {error : ArgumentError} :
    parseConfig (commandLine groups) = .error error ↔
      values .command groups = [] ∧ error = .missingCommand ∨
        values .command groups ≠ [] ∧ FirstBad Unreadable (checked groups) error := by
  rw [parseConfig_commandLine]
  cases hcommand : (values .command groups).head? with
  | none =>
    rw [List.head?_eq_none_iff] at hcommand
    simp [hcommand, eq_comm]
  | some command =>
    have hne : values .command groups ≠ [] := by
      intro h
      rw [h] at hcommand
      cases hcommand
    simp only [hne, false_and, ne_eq, not_false_eq_true, true_and, false_or, checked,
      List.flatMap_cons, List.flatMap_nil, List.append_nil, firstBad_append, firstBad_map,
      List.forall_mem_map]
    refine mapM_bind_eq_error_iff (fun _ _ => readBinding_eq_error_iff) fun _ => ?_
    refine mapM_bind_eq_error_iff (fun _ _ => readBinding_eq_error_iff) fun _ => ?_
    refine mapM_bind_eq_error_iff (fun _ _ => readFileGroup_eq_error_iff) fun _ => ?_
    refine (mapM_bind_eq_error_iff (fun _ _ => readDebugMode_eq_error_iff)
      fun _ => iff_of_false (by rintro ⟨⟩) not_false).trans ?_
    rw [and_false, or_false]

/-- **What is read from a command line made of groups**, in any order. -/
theorem parseConfig_of_groups (groups : List Group) :
    (∀ error, parseConfig (commandLine groups) = .error error ↔
      values .command groups = [] ∧ error = .missingCommand ∨
        values .command groups ≠ [] ∧ FirstBad Unreadable (checked groups) error) ∧
      ∀ config rest, parseConfig (commandLine groups) = .ok (config, rest) ↔
        Describes groups config rest :=
  ⟨fun _ => parseConfig_commandLine_eq_error_iff, fun _ _ => parseConfig_commandLine_eq_ok_iff⟩

/-- Long spellings stand before short ones here, a stray word stands between, and the command, the
name and the flag are given again. -/
theorem parseConfig_of_groups_interleaved :
    parseConfig
        ["--out", "a", "-o", "b", "x", "--cmd", "true", "-d", "deps", "--out", "c", "--depfile",
          "--cmd", "false", "-o", "d", "--depfile", "--var", "n=v=w"] =
      .ok ({
        rule := {
          name := "genrule", command := "true", outputs := ["b", "d", "a", "c"], depfile := true }
        bindings := [("n", "v=w")], debugModes := [.deps] },
        ["x", "--cmd", "false", "--depfile"]) := by
  let long : { key // key ∈ ValueOption.output.spellings } := ⟨"--out", by decide⟩
  let short : { key // key ∈ ValueOption.output.spellings } := ⟨"-o", by decide⟩
  let command : { key // key ∈ ValueOption.command.spellings } := ⟨"--cmd", by decide⟩
  let groups : List Group :=
    [.pair .output long ⟨"a", by decide⟩, .pair .output short ⟨"b", by decide⟩,
      .stray ⟨"x", by decide⟩, .pair .command command ⟨"true", by decide⟩,
      .pair .debugMode ⟨"-d", by decide⟩ ⟨"deps", by decide⟩,
      .pair .output long ⟨"c", by decide⟩, .depfile, .pair .command command ⟨"false", by decide⟩,
      .pair .output short ⟨"d", by decide⟩, .depfile,
      .pair .binding ⟨"--var", by decide⟩ ⟨"n=v=w", by decide⟩]
  refine ((parseConfig_of_groups groups).2 _ _).mpr ?_
  exact {
    name := rfl, command := rfl, outputs := rfl, sources := rfl, tools := rfl, toolFiles := rfl
    depfile := rfl, bindings := rfl, providedTools := rfl, providedFiles := rfl, debugModes := rfl
    rest := rfl }

end Group

end RuleCommand
