import RuleCommand.Proofs.CommandLine.Configuration

set_option autoImplicit false

/-!
# Accounting for arguments

Whatever the words of a command line are, each of them is either left over, in its place among the
others, or taken out once: with an option, as its key or its value, or as the flag. So what is taken
out can be counted by what the configuration holds. Options may be found in words that were meant as
values, and a key may get a new neighbour by what was taken out before; the account holds all the
same, since every step is told by what it removes.

## Main definitions

* `RuleCommand.Removes` — what a step leaves of some words, and how many it removes.

## Main results

* `RuleCommand.removes_of_takeValues` — the rounds of an option remove two words for each value, and
  leave none of its spellings.
* `RuleCommand.wellFounded_rounds` — the rounds of an option end.
* `RuleCommand.every_argument_accounted_for` — the account of a whole command line.
-/

namespace RuleCommand

/-- What is left of some words stands in its order, and a number of words is gone. -/
structure Removes (words : List String) (count : Nat) (rest : List String) : Prop where
  /-- What is left is left in its order. -/
  sublist : rest.Sublist words
  /-- The others are as many as the number says. -/
  length : words.length = rest.length + count

namespace Removes

variable {words middle rest : List String} {count more : Nat}

lemma refl (words : List String) : Removes words 0 words := ⟨.refl words, rfl⟩

/-- What two steps remove adds up. -/
lemma trans (h : Removes words count middle) (hmore : Removes middle more rest) :
    Removes words (count + more) rest where
  sublist := hmore.sublist.trans h.sublist
  length := by rw [h.length, hmore.length]; omega

/-- No word is left that was not there before. -/
lemma not_mem (h : Removes words count rest) {word : String} (hword : word ∉ words) :
    word ∉ rest := fun hmem => hword (h.sublist.subset hmem)

end Removes

/-! ## Rounds -/

section

variable {keys words rest : List String} {value : String}

/-- A round in which an option is found removes its key and its value. -/
lemma removes_of_takeValue (h : takeValue keys words = .ok (some (value, rest))) :
    Removes words 2 rest where
  sublist := by
    obtain ⟨key, before, behind, -, rfl, -, rfl⟩ := takeValue_eq_some_iff.mp h
    exact .append (.refl before)
      ((List.sublist_cons_self value behind).trans (List.sublist_cons_self key _))
  length := length_of_takeValue h

/-- The rounds of an option end. -/
theorem wellFounded_rounds (keys : List String) :
    WellFounded fun rest words => ∃ value, takeValue keys words = .ok (some (value, rest)) := by
  refine Subrelation.wf ?_ (measure List.length).wf
  rintro rest words ⟨value, h⟩
  have hlength := length_of_takeValue h
  change rest.length < words.length
  omega

/-- **The rounds of an option remove two words for each value**, and leave none of its spellings.

**Proof sketch.** Induction on the rounds (`wellFounded_rounds`). They end when none of the
spellings occurs, and each one before takes a key and a value out. -/
theorem removes_of_takeValues {α : Type} {read : String → Except ArgumentError α}
    {values : List α} (h : takeValues keys read words = .ok (values, rest)) :
    Removes words (2 * values.length) rest ∧ ∀ key ∈ keys, key ∉ rest := by
  induction words using (wellFounded_rounds keys).induction generalizing values with
  | _ words ih =>
    cases htaken : takeValue keys words with
    | error error =>
      rw [takeValues_of_error htaken] at h
      cases h
    | ok found =>
      cases found with
      | none =>
        rw [takeValues_of_none htaken] at h
        cases h
        exact ⟨.refl _, takeValue_eq_none_iff.mp htaken⟩
      | some found =>
        obtain ⟨text, left⟩ := found
        rw [takeValues_of_some htaken] at h
        obtain ⟨first, -, h⟩ := bind_eq_ok_iff.mp h
        obtain ⟨⟨others, last⟩, hothers, h⟩ := bind_eq_ok_iff.mp h
        cases h
        obtain ⟨hremoves, hkeys⟩ := ih left ⟨text, htaken⟩ hothers
        refine ⟨?_, hkeys⟩
        have hboth := (removes_of_takeValue htaken).trans hremoves
        rwa [show 2 + 2 * others.length = 2 * (first :: others).length by
          rw [List.length_cons]; omega] at hboth

end

/-! ## Steps -/

namespace Extraction

variable {α β : Type} {option : ValueOption} {words rest : List String}

/-- A step behind another succeeds exactly if the first does, and the second does with what it gave
on the words that it left. -/
lemma bind_eq_ok_iff {step : Extraction α} {next : α → Extraction β} {b : β} :
    (step >>= next) words = .ok (b, rest) ↔
      ∃ a left, step words = .ok (a, left) ∧ next a left = .ok (b, rest) := by
  change (step words >>= fun found => next found.1 found.2) = _ ↔ _
  simp only [RuleCommand.bind_eq_ok_iff, Prod.exists]

/-- An option that need not be given removes its key and its value, if the key occurs. -/
lemma removes_of_value? {value? : Option String}
    (h : Extraction.value? option words = .ok (value?, rest)) :
    Removes words (if ∃ key ∈ option.spellings, key ∈ words then 2 else 0) rest ∧
      (value?.isSome ↔ ∃ key ∈ option.spellings, key ∈ words) := by
  obtain ⟨found, htaken, h⟩ := RuleCommand.bind_eq_ok_iff.mp h
  cases found with
  | none =>
    cases h
    have hnone : ¬∃ key ∈ option.spellings, key ∈ words := by
      simpa using takeValue_eq_none_iff.mp htaken
    rw [if_neg hnone]
    exact ⟨.refl _, iff_of_false Bool.false_ne_true hnone⟩
  | some found =>
    cases h
    have hsome : ∃ key ∈ option.spellings, key ∈ words := by
      by_contra hnone
      rw [takeValue_eq_none_iff.mpr (by simpa using hnone)] at htaken
      cases htaken
    rw [if_pos hsome]
    exact ⟨removes_of_takeValue htaken, iff_of_true rfl hsome⟩

/-- The template of the command is removed with its key. -/
lemma removes_of_command {template : String} (h : command words = .ok (template, rest)) :
    Removes words 2 rest := by
  obtain ⟨found, left, hvalue, h⟩ := bind_eq_ok_iff.mp h
  obtain ⟨hremoves, hsome⟩ := removes_of_value? hvalue
  cases found with
  | none => cases h
  | some found =>
    cases h
    rwa [if_pos (hsome.mp rfl)] at hremoves

/-- The flag is removed if it occurs. -/
lemma removes_of_flag {key : String} {found : Bool} (h : flag key words = .ok (found, rest)) :
    Removes words (if found then 1 else 0) rest := by
  rw [flag, takeFlag_eq] at h
  by_cases hkey : key ∈ words
  · rw [if_pos hkey] at h
    cases h
    refine ⟨List.erase_sublist, ?_⟩
    rw [List.length_erase_of_mem hkey, if_pos rfl]
    have := List.length_pos_of_mem hkey
    omega
  · rw [if_neg hkey] at h
    cases h
    exact .refl _

/-- An option that may be repeated removes two words for each value, and leaves none of its
spellings to what follows. -/
lemma removes_of_bind_values {read : String → Except ArgumentError α}
    {next : List α → Extraction β} {b : β}
    (h : (values option read >>= next) words = .ok (b, rest)) :
    ∃ found left, Removes words (2 * found.length) left ∧ (∀ key ∈ option.spellings, key ∉ left) ∧
      next found left = .ok (b, rest) := by
  obtain ⟨found, left, hvalues, h⟩ := bind_eq_ok_iff.mp h
  obtain ⟨hremoves, hspellings⟩ := removes_of_takeValues hvalues
  exact ⟨found, left, hremoves, hspellings, h⟩

end Extraction

/-! ## Command lines -/

/-- **Every argument is accounted for**, whatever the words of a command line are. If a
configuration is read, the words that are left over stand in their order, and the others are as many
as it takes: two for the command, two for the name if its option occurs, two for each value of an
option that may be repeated, and one for the flag. No spelling of an option that may be repeated is
left over. The rounds of an option end, since each of them removes two words.

**Proof sketch.** Each step is told by how many words it removes, and the steps add up
(`Removes.trans`). The spellings of an option are gone once its rounds have ended
(`removes_of_takeValues`), and no later step brings them back (`Removes.not_mem`). -/
theorem every_argument_accounted_for :
    (∀ {words rest : List String} {config : Config}, parseConfig words = .ok (config, rest) →
      Removes words
          (2 + (if "--name" ∈ words then 2 else 0) +
            2 * (config.rule.outputs.length + config.rule.sources.length +
              config.rule.tools.length + config.rule.toolFiles.length + config.bindings.length +
              config.providedTools.length + config.providedFiles.length +
              config.debugModes.length) +
            (if config.rule.depfile then 1 else 0)) rest ∧
        ∀ option : ValueOption, option.isRepeatable = true →
          ∀ key ∈ option.spellings, key ∉ rest) ∧
    ∀ keys : List String,
      (∀ words value rest, takeValue keys words = .ok (some (value, rest)) →
        Removes words 2 rest) ∧
      WellFounded fun rest words => ∃ value, takeValue keys words = .ok (some (value, rest)) := by
  refine ⟨fun {words rest config} h => ?_, fun keys => ⟨fun _ _ _ => removes_of_takeValue,
    wellFounded_rounds keys⟩⟩
  -- The steps, each with what it removes.
  obtain ⟨name, _, hname, h⟩ := Extraction.bind_eq_ok_iff.mp h
  obtain ⟨command, _, hcommand, h⟩ := Extraction.bind_eq_ok_iff.mp h
  obtain ⟨outputs, _, houtputs, hnoOutput, h⟩ := Extraction.removes_of_bind_values h
  obtain ⟨sources, _, hsources, hnoSource, h⟩ := Extraction.removes_of_bind_values h
  obtain ⟨tools, _, htools, hnoTool, h⟩ := Extraction.removes_of_bind_values h
  obtain ⟨toolFiles, _, htoolFiles, hnoToolFile, h⟩ := Extraction.removes_of_bind_values h
  obtain ⟨depfile, _, hdepfile, h⟩ := Extraction.bind_eq_ok_iff.mp h
  obtain ⟨bindings, _, hbindings, hnoBinding, h⟩ := Extraction.removes_of_bind_values h
  obtain ⟨providedTools, _, hprovidedTools, hnoProvidedTool, h⟩ :=
    Extraction.removes_of_bind_values h
  obtain ⟨providedFiles, _, hprovidedFiles, hnoProvidedFiles, h⟩ :=
    Extraction.removes_of_bind_values h
  obtain ⟨debugModes, _, fromDebugModes, hnoDebugMode, h⟩ := Extraction.removes_of_bind_values h
  cases h
  -- What is removed from a step on, from the last step to the first.
  have fromProvidedFiles := hprovidedFiles.trans fromDebugModes
  have fromProvidedTools := hprovidedTools.trans fromProvidedFiles
  have fromBindings := hbindings.trans fromProvidedTools
  have fromFlag := (Extraction.removes_of_flag hdepfile).trans fromBindings
  have fromToolFiles := htoolFiles.trans fromFlag
  have fromTools := htools.trans fromToolFiles
  have fromSources := hsources.trans fromTools
  have fromCommand := (Extraction.removes_of_command hcommand).trans (houtputs.trans fromSources)
  have whole := (Extraction.removes_of_value? hname).1.trans fromCommand
  have hspelling : (∃ key ∈ ValueOption.name.spellings, key ∈ words) ↔ "--name" ∈ words := by
    simp [ValueOption.spellings]
  simp only [hspelling] at whole
  refine ⟨⟨whole.sublist, ?_⟩, fun option hrepeatable key hkey => ?_⟩
  · rw [whole.length]
    dsimp only
    omega
  cases option with
  | name | command => cases hrepeatable
  | output => exact fromSources.not_mem (hnoOutput key hkey)
  | source => exact fromTools.not_mem (hnoSource key hkey)
  | tool => exact fromToolFiles.not_mem (hnoTool key hkey)
  | toolFile => exact fromFlag.not_mem (hnoToolFile key hkey)
  | binding => exact fromProvidedTools.not_mem (hnoBinding key hkey)
  | providedTool => exact fromProvidedFiles.not_mem (hnoProvidedTool key hkey)
  | providedFiles => exact fromDebugModes.not_mem (hnoProvidedFiles key hkey)
  | debugMode => exact hnoDebugMode key hkey

/-- The name is the key of the command, the command is the key of an output, and the key of a source
gets its value when an output that stood between them is taken out. One word is left over. -/
theorem every_argument_accounted_for_in_a_tangle :
    let words := ["--name", "--cmd", "--cmd", "-o", "-s", "-o", "a", "b", "--depfile", "x"]
    parseConfig words =
        .ok ({ rule := { name := "--cmd", command := "-o", outputs := ["a"], sources := ["b"],
                         depfile := true } }, ["x"]) ∧
      Removes words 9 ["x"] ∧
      takeValue ["-o", "--out"] ["-s", "-o", "a", "b"] = .ok (some ("a", ["-s", "b"])) ∧
      Removes ["-s", "-o", "a", "b"] 2 ["-s", "b"] := by
  intro words
  have hparse : parseConfig words =
      .ok ({ rule := { name := "--cmd", command := "-o", outputs := ["a"], sources := ["b"],
                       depfile := true } }, ["x"]) := by
    decide +kernel
  have hround : takeValue ["-o", "--out"] ["-s", "-o", "a", "b"] = .ok (some ("a", ["-s", "b"])) :=
    rfl
  exact ⟨hparse, (every_argument_accounted_for.1 hparse).1, hround,
    (every_argument_accounted_for.2 _).1 _ _ _ hround⟩

end RuleCommand
