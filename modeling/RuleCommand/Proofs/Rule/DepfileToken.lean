import RuleCommand.Proofs.ShellQuoting
import RuleCommand.Proofs.Rule.Acceptance

set_option autoImplicit false

/-!
# The placeholder of the dependency file

The executor looks for the placeholder of the dependency file in a compiled command. The placeholder
is there exactly if the rule declares a dependency file, however it may have come about: by a
reference, from plain text, a variable or a path, or put together from neighbouring pieces.

## Main results

* `RuleCommand.occurrences_depfile_quote` — quoting neither makes nor breaks the placeholder.
* `RuleCommand.isInfix_command_iff_depfile` — the placeholder stands in the command of a rule
  exactly if the rule declares a dependency file.
-/

namespace RuleCommand

/-- Quoting neither makes nor breaks an occurrence of the placeholder. -/
lemma occurrences_depfile_quote (text : String) :
    occurrences Placeholder.depfile.text.toList (ShellWord.quote text).toList =
      occurrences Placeholder.depfile.text.toList text.toList :=
  ShellWord.occurrences_quote (by decide) (by decide) (by decide) text

/-- **The placeholder of the dependency file stands in the command of a rule exactly if the rule
declares a dependency file**; and quoting neither makes nor breaks an occurrence of it.

**Proof sketch.** The check of the dependency file sees the text before it is quoted, in which the
placeholder occurs as often as in the command. Without the declaration the check rejects the
placeholder; with it, the template refers to the dependency file, and a reference leaves the
placeholder in the text, wherever it stands. -/
theorem isInfix_command_iff_depfile {rule : Rule} {resolve : Resolver} {vars : Variables}
    {command : String} (h : compile rule resolve vars = .ok command) :
    (Placeholder.depfile.text.toList <:+: command.toList ↔ rule.depfile = true) ∧
      ∀ text : String,
        occurrences Placeholder.depfile.text.toList (ShellWord.quote text).toList =
          occurrences Placeholder.depfile.text.toList text.toList := by
  refine ⟨?_, occurrences_depfile_quote⟩
  obtain ⟨-, hresolvable, expansion, hexpand, hdepfile, rfl⟩ := compile_eq_ok_iff.mp h
  obtain ⟨hfault, hexpansion, huses⟩ := (expand_resolved_eq_ok_iff hresolvable).mp hexpand
  obtain ⟨habsent, hpresent⟩ := checkDepfile_eq_ok_iff.mp hdepfile
  rw [← occurrences_pos_iff, occurrences_depfile_quote, occurrences_pos_iff]
  constructor
  · intro hinfix
    by_contra hflag
    exact (habsent (eq_false_of_ne_true hflag)).2 hinfix
  · intro hflag
    exact hexpansion.isInfix_depfile hfault (huses.mp (hpresent hflag))

/-- A rule that declares a dependency file and refers to it. -/
theorem isInfix_command_of_reference :
    compile { name := "gen", command := "$(depfile)", outputs := ["out"], depfile := true }
        (fun _ => none) {} = .ok "'__SBOX_DEPFILE__'" ∧
      Placeholder.depfile.text.toList <:+: "'__SBOX_DEPFILE__'".toList := by
  have written : (Piece.ofDirective "depfile".toList ⟨.depfile, none⟩).IsWritten :=
    .directive (by decide) rfl
  have hreading : Reading.ofText "$(depfile)" =
      ⟨[.ofDirective "depfile".toList ⟨.depfile, none⟩], none⟩ :=
    reads_iff.mp (.piece written (fun _ => by simp) .done)
  have h : compile { name := "gen", command := "$(depfile)", outputs := ["out"], depfile := true }
      (fun _ => none) {} = .ok "'__SBOX_DEPFILE__'" := by
    simp only [compile, expand]
    rw [hreading]
    rfl
  exact ⟨h, (isInfix_command_iff_depfile h).1.mpr rfl⟩

end RuleCommand
