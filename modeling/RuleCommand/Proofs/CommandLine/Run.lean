import RuleCommand.CommandLine.Program
import RuleCommand.Proofs.CommandLine.Configuration
import RuleCommand.Proofs.Rule.Acceptance

set_option autoImplicit false

/-!
# Runs of the program

A run prints the help text if it is asked for help anywhere, and otherwise prints the command and
ends with code 0, or prints nothing as its result and ends with code 1. One request for more
messages is taken out before anything else is read, so it may stand anywhere, even between an option
and its value; and what is listed for debugging does not change the result.

## Main definitions

* `RuleCommand.Program.generalFlags` — the words that are looked for before anything else is read.
* `RuleCommand.Program.Prints` — the command that a run has to print.

## Main results

* `RuleCommand.Program.run_of_prints`, `RuleCommand.Program.run_of_not_prints` — a run with a
  command and one without.
* `RuleCommand.Program.run_insert` — a request for more messages may stand anywhere.
* `RuleCommand.Program.run_outcome` — what a run leaves behind.
-/

namespace RuleCommand

namespace Program

variable {words before after : List String} {command : String}

/-- The words that are looked for before anything else is read: requests for help and for more
messages. -/
def generalFlags : List String :=
  ["-h", "--help", "-v", "--verbose"]

/-- The command that a run has to print: without one request for more messages, a short one if there
is any, the words give a configuration that leaves over none of them and has the command. -/
def Prints (words : List String) (command : String) : Prop :=
  ∃ config, parseConfig (if "-v" ∈ words then words.erase "-v" else words.erase "--verbose") =
    .ok (config, []) ∧ config.compile = .ok command

/-! ## The general flags -/

/-- A run is asked for help by either spelling, wherever it stands. -/
lemma asksForHelp_iff : asksForHelp words = true ↔ "-h" ∈ words ∨ "--help" ∈ words := by
  rw [asksForHelp, Bool.or_eq_true, decide_eq_true_iff, decide_eq_true_iff]

/-- Of the requests for more messages the first short one is taken out, or else the first long
one. -/
lemma withoutVerbose_eq (words : List String) :
    withoutVerbose words =
      if "-v" ∈ words then words.erase "-v" else words.erase "--verbose" := by
  rw [withoutVerbose, takeFlag_eq, takeFlag_eq]
  by_cases hshort : "-v" ∈ words
  · rw [if_pos hshort, if_pos hshort]
    rfl
  · rw [if_neg hshort, if_neg hshort]
    by_cases hlong : "--verbose" ∈ words
    · rw [if_pos hlong]
      rfl
    · rw [if_neg hlong, List.erase_of_not_mem hlong]
      rfl

/-- A run that is not asked for help reads the words without a request for more messages. -/
lemma run_eq (hhelp : ¬("-h" ∈ words ∨ "--help" ∈ words)) :
    run words =
      match parseConfig (withoutVerbose words) with
      | .error error => fail (.arguments error)
      | .ok (config, []) => runConfig config
      | .ok (_, rest) => fail (.unexpected rest) := by
  have hnone : ¬asksForHelp words = true := mt asksForHelp_iff.mp hhelp
  exact if_neg hnone

/-! ## Runs with and without a command -/

/-- A run with a command prints it on a line and ends with code 0. -/
lemma run_of_prints (hhelp : ¬("-h" ∈ words ∨ "--help" ∈ words)) (h : Prints words command) :
    (run words).code = 0 ∧ (run words).stdout = command ++ "\n" := by
  obtain ⟨config, hparse, hcompile⟩ := h
  rw [← withoutVerbose_eq] at hparse
  rw [run_eq hhelp, hparse]
  simp only [runConfig, hcompile, and_self]

/-- A run without a command prints nothing as its result and ends with code 1. -/
lemma run_of_not_prints (hhelp : ¬("-h" ∈ words ∨ "--help" ∈ words))
    (h : ¬∃ command, Prints words command) : (run words).code = 1 ∧ (run words).stdout = "" := by
  rw [run_eq hhelp]
  split
  · exact ⟨rfl, rfl⟩
  · next config hparse =>
    rw [withoutVerbose_eq] at hparse
    cases hcompile : config.compile with
    | ok command => exact absurd ⟨command, config, hparse, hcompile⟩ h
    | error error => simp only [runConfig, hcompile, fail, and_self]
  · exact ⟨rfl, rfl⟩

/-! ## Requests that change nothing -/

/-- Words without general flags are read as they are. -/
lemma withoutVerbose_eq_self (h : ∀ flag ∈ generalFlags, flag ∉ words) :
    withoutVerbose words = words := by
  rw [withoutVerbose_eq, if_neg (h "-v" (by decide)),
    List.erase_of_not_mem (h "--verbose" (by decide))]

/-- Words without general flags do not ask for help. -/
lemma not_asksForHelp (h : ∀ flag ∈ generalFlags, flag ∉ words) :
    ¬("-h" ∈ words ∨ "--help" ∈ words) := by
  rintro (hshort | hlong)
  · exact h "-h" (by decide) hshort
  · exact h "--help" (by decide) hlong

/-- A request for more messages that is put in between other words is taken out again. -/
lemma withoutVerbose_insert (h : ∀ flag ∈ generalFlags, flag ∉ before ++ after) {flag : String}
    (hflag : flag = "-v" ∨ flag = "--verbose") :
    withoutVerbose (before ++ flag :: after) = before ++ after := by
  have hbefore : ∀ flag ∈ generalFlags, flag ∉ before := fun flag hflag hmem =>
    h flag hflag (List.mem_append_left _ hmem)
  rw [withoutVerbose_eq]
  rcases hflag with rfl | rfl
  · rw [if_pos (by simp), List.erase_append_right _ (hbefore _ (by decide)), List.erase_cons_head]
  · have hshort : "-v" ∉ before ++ "--verbose" :: after := by
      have hnone := h "-v" (by decide)
      simpa using hnone
    rw [if_neg hshort, List.erase_append_right _ (hbefore _ (by decide)), List.erase_cons_head]

/-- A request for more messages may stand anywhere. -/
lemma run_insert (h : ∀ flag ∈ generalFlags, flag ∉ before ++ after) {flag : String}
    (hflag : flag = "-v" ∨ flag = "--verbose") :
    run (before ++ flag :: after) = run (before ++ after) := by
  have hhelp : ¬("-h" ∈ before ++ flag :: after ∨ "--help" ∈ before ++ flag :: after) := by
    have hnone := not_asksForHelp h
    rcases hflag with rfl | rfl <;> simpa using hnone
  rw [run_eq hhelp, run_eq (not_asksForHelp h), withoutVerbose_insert h hflag,
    withoutVerbose_eq_self h]

/-- What a configuration lists for debugging does not change its command. -/
lemma runConfig_debugModes (config : Config) (modes : List DebugMode) :
    (runConfig { config with debugModes := modes }).code = (runConfig config).code ∧
      (runConfig { config with debugModes := modes }).stdout = (runConfig config).stdout := by
  have hcompile : { config with debugModes := modes }.compile = config.compile := rfl
  rw [runConfig, runConfig, hcompile]
  cases config.compile <;> exact ⟨rfl, rfl⟩

/-- Words without general flags that give a configuration and nothing else are a run on it. -/
lemma run_of_parseConfig {config : Config} (h : ∀ flag ∈ generalFlags, flag ∉ words)
    (hparse : parseConfig words = .ok (config, [])) : run words = runConfig config := by
  rw [run_eq (not_asksForHelp h), withoutVerbose_eq_self h, hparse]

/-! ## What a run leaves behind -/

/-- **What a run leaves behind**, whatever its words. If any of them asks for help, it is the help
text and nothing else. If none does, the code is 0 exactly if there is a command to print, which is
then printed on a line, and otherwise the code is 1 and nothing is printed as the result. So a
request for more messages may be put in anywhere, and the modes for debugging do not matter.

**Proof sketch.** One request for more messages is taken out before anything else
(`withoutVerbose_eq`), so a run on words that held one is the run on the words that held none. The
rest is a case for each way to fail. -/
theorem run_outcome :
    (∀ words, "-h" ∈ words ∨ "--help" ∈ words → run words = ⟨0, help, ""⟩) ∧
      (∀ words, ¬("-h" ∈ words ∨ "--help" ∈ words) →
        ((run words).code = 0 ↔ ∃ command, Prints words command) ∧
          (∀ command, Prints words command → (run words).stdout = command ++ "\n") ∧
            ((¬∃ command, Prints words command) →
              (run words).code = 1 ∧ (run words).stdout = "")) ∧
        (∀ before after flag, (∀ general ∈ generalFlags, general ∉ before ++ after) →
          flag = "-v" ∨ flag = "--verbose" →
            run (before ++ flag :: after) = run (before ++ after)) ∧
          ∀ words others config modes, (∀ general ∈ generalFlags, general ∉ words) →
            (∀ general ∈ generalFlags, general ∉ others) →
              parseConfig words = .ok (config, []) →
                parseConfig others = .ok ({ config with debugModes := modes }, []) →
                  (run words).code = (run others).code ∧
                    (run words).stdout = (run others).stdout := by
  refine ⟨fun words hhelp => ?_, fun words hhelp => ⟨⟨fun hcode => ?_, ?_⟩, ?_, ?_⟩,
    fun before after flag h hflag => run_insert h hflag, ?_⟩
  · rw [run, if_pos (asksForHelp_iff.mpr hhelp)]
  · by_contra hnone
    have hfailed := (run_of_not_prints hhelp hnone).1
    omega
  · rintro ⟨command, h⟩
    exact (run_of_prints hhelp h).1
  · exact fun command h => (run_of_prints hhelp h).2
  · exact run_of_not_prints hhelp
  · intro words others config modes hwords hothers hparse hother
    obtain ⟨hcode, hstdout⟩ := runConfig_debugModes config modes
    rw [run_of_parseConfig hwords hparse, run_of_parseConfig hothers hother]
    exact ⟨hcode.symm, hstdout.symm⟩

/-- Help is asked for where a command should stand; a request for more messages stands between an
option and its value; and a run lists its dependencies besides the command. -/
theorem run_outcome_of_flags :
    run ["--cmd", "--help"] = ⟨0, help, ""⟩ ∧
      ((run ["-o", "x", "--cmd", "true"]).code = 0 ∧
        (run ["-o", "x", "--cmd", "true"]).stdout = "'true'\n") ∧
        run ["-o", "x", "--cmd", "-v", "true"] = run ["-o", "x", "--cmd", "true"] ∧
          (run ["-o", "x", "--cmd", "true"]).code =
              (run ["-o", "x", "--cmd", "true", "-d", "deps"]).code ∧
            (run ["-o", "x", "--cmd", "true"]).stdout =
              (run ["-o", "x", "--cmd", "true", "-d", "deps"]).stdout := by
  let output : Group := .pair .output ⟨"-o", by decide⟩ ⟨"x", by decide⟩
  let command : Group := .pair .command ⟨"--cmd", by decide⟩ ⟨"true", by decide⟩
  let listing : Group := .pair .debugMode ⟨"-d", by decide⟩ ⟨"deps", by decide⟩
  let config : Config := { rule := { name := "genrule", command := "true", outputs := ["x"] } }
  have hparse : parseConfig ["-o", "x", "--cmd", "true"] = .ok (config, []) :=
    (@Group.parseConfig_commandLine_eq_ok_iff [output, command] config []).mpr {
      name := rfl, command := rfl, outputs := rfl, sources := rfl, tools := rfl, toolFiles := rfl
      depfile := rfl, bindings := rfl, providedTools := rfl, providedFiles := rfl
      debugModes := rfl, rest := rfl }
  have hlisting : parseConfig ["-o", "x", "--cmd", "true", "-d", "deps"] =
      .ok ({ config with debugModes := [.deps] }, []) :=
    (@Group.parseConfig_commandLine_eq_ok_iff [output, command, listing] _ []).mpr {
      name := rfl, command := rfl, outputs := rfl, sources := rfl, tools := rfl, toolFiles := rfl
      depfile := rfl, bindings := rfl, providedTools := rfl, providedFiles := rfl
      debugModes := rfl, rest := rfl }
  have written : (Piece.plain "true".toList).IsWritten := .plain (by decide) (by decide)
  have hreading : Reading.ofText "true" = ⟨[.plain "true".toList], none⟩ :=
    reads_iff.mp (.piece written (by simp) .done)
  have hexpand : expand config.rule.command (config.rule.resolved config.resolver) config.vars =
      .ok ⟨"true", false⟩ := by
    rw [expand, hreading]
    rfl
  have hcollect : Dependencies.collect config.rule config.resolver =
      .ok (config.rule.resolved config.resolver) := rfl
  have hcompile := compile_eq_ok_of_expand (by simp [config]) hcollect hexpand rfl (by decide)
  have hprints : Prints ["-o", "x", "--cmd", "true"] "'true'" := ⟨config, hparse, hcompile⟩
  obtain ⟨hhelp, hrun, hinsert, hmodes⟩ := run_outcome
  obtain ⟨hcode, hstdout, -⟩ := hrun ["-o", "x", "--cmd", "true"] (by decide)
  exact ⟨hhelp _ (by decide), ⟨hcode.mpr ⟨_, hprints⟩, hstdout _ hprints⟩,
    hinsert ["-o", "x", "--cmd"] ["true"] "-v" (by decide) (.inl rfl),
    hmodes _ _ config [.deps] (by decide) (by decide) hparse hlisting⟩

end Program

end RuleCommand
