import Mathlib.Tactic.Lemma
import RuleCommand.Template.Directive

set_option autoImplicit false

/-!
# Bodies of directives

What the text between the parentheses of a directive writes, told by its trimmed form.

## Main definitions

* `RuleCommand.Directive.Kind.takesArgument` — the kinds that come with an argument.
* `RuleCommand.Directive.ownWords`, `RuleCommand.Directive.labelWords` — the words with a meaning.

## Main results

* `RuleCommand.Directive.exists_ofBody_eq_ok_iff`, `RuleCommand.Directive.ofBody_eq_error_iff` — the
  bodies that write a directive, and why others do not.
* `RuleCommand.Directive.isSome_argument` — a directive that was read has an argument exactly if
  its kind takes one.
-/

namespace RuleCommand.Directive

/-- Whether the directives of a kind come with an argument. -/
def Kind.takesArgument : Kind → Bool
  | .location | .locations | .var => true
  | _ => false

/-- The words that stand for themselves. -/
def ownWords : List (String × Kind) :=
  [("location", .bareLocation), ("in", .inputs), ("out", .outputs), ("depfile", .depfile),
    ("genDir", .outputDir)]

/-- The words that take a label. -/
def labelWords : List (String × Kind) :=
  [("location", .location), ("locations", .locations)]

/-! ## Words -/

/-- A single word fails to write a directive only if it is the word that needs a label. -/
lemma ofWord_eq_error_iff {word : String} {fault : Fault} :
    ofWord word = .error fault ↔ word = "locations" ∧ fault = .missingLabel := by
  unfold ofWord
  split <;> simp_all [eq_comm]

/-- A single word writes what it stands for, or the variable of its name. -/
lemma ofWord_eq_ok_iff {word : String} {d : Directive} :
    ofWord word = .ok d ↔ (∃ kind, (word, kind) ∈ ownWords ∧ d = ⟨kind, none⟩) ∨
      word ≠ "locations" ∧ (∀ entry ∈ ownWords, word ≠ entry.1) ∧ d = ⟨.var, some word⟩ := by
  unfold ofWord ownWords
  split <;> simp_all [eq_comm]

/-- Several words write a location of a label, or the variable of their name. -/
lemma ofPhrase_eq_iff {word label whole : String} {d : Directive} :
    ofPhrase word label whole = d ↔
      (∃ kind, (word, kind) ∈ labelWords ∧ d = ⟨kind, some label⟩) ∨
        (∀ entry ∈ labelWords, word ≠ entry.1) ∧ d = ⟨.var, some whole⟩ := by
  unfold ofPhrase labelWords
  split <;> simp_all [eq_comm]

lemma isSome_argument_ofWord {word : String} {d : Directive} (h : ofWord word = .ok d) :
    d.argument.isSome = d.kind.takesArgument := by
  unfold ofWord at h
  split at h <;> cases h <;> rfl

lemma isSome_argument_ofPhrase (word label whole : String) :
    (ofPhrase word label whole).argument.isSome =
      (ofPhrase word label whole).kind.takesArgument := by
  unfold ofPhrase
  split <;> rfl

/-! ## Bodies -/

lemma firstWord_eq_self {text : List Char} (h : afterWord text = []) : firstWord text = text := by
  have happ := firstWord_append_afterWord text
  rwa [h, List.append_nil] at happ

/-- A body that is blank writes nothing. -/
lemma ofBody_of_trim_eq_nil {body : List Char} (h : trim body = []) :
    ofBody body = .error .emptyDirective := by
  simp [ofBody, h]

/-- A body of one word writes what the word does. -/
lemma ofBody_of_word {body : List Char} (h : trim body ≠ []) (hword : afterWord (trim body) = []) :
    ofBody body = ofWord (String.ofList (trim body)) := by
  simp [ofBody, h, hword, firstWord_eq_self hword]

/-- A body of several words writes what its first word makes of the rest. -/
lemma ofBody_of_phrase {body : List Char} (h : trim body ≠ [])
    (hword : afterWord (trim body) ≠ []) :
    ofBody body = .ok (ofPhrase (String.ofList (firstWord (trim body)))
      (String.ofList (trim (afterWord (trim body)))) (String.ofList (trim body))) := by
  simp [ofBody, h, hword]

/-- A body fails to write a directive for one of two reasons: it is blank, or it is only the word
that needs a label.

**Proof sketch.** A body of one word fails only for that word. A body of several words never fails,
and is not that word, which holds no blank. -/
theorem ofBody_eq_error_iff {body : List Char} {fault : Fault} :
    ofBody body = .error fault ↔ trim body = [] ∧ fault = .emptyDirective ∨
      trim body = "locations".toList ∧ fault = .missingLabel := by
  by_cases hempty : trim body = []
  · have hne : [] ≠ "locations".toList := by decide
    rw [ofBody_of_trim_eq_nil hempty, hempty]
    simp only [hne, true_and, false_and, or_false, Except.error.injEq, eq_comm]
  by_cases hword : afterWord (trim body) = []
  · rw [ofBody_of_word hempty hword, ofWord_eq_error_iff, ← String.toList_inj,
      String.toList_ofList]
    simp only [hempty, false_and, false_or]
  · have hne : trim body ≠ "locations".toList := by
      intro hlocations
      rw [hlocations] at hword
      exact hword (by decide)
    rw [ofBody_of_phrase hempty hword]
    simp only [hempty, hne, false_and, or_self, reduceCtorEq]

/-- The bodies that write a directive are those that are not blank and not only the word that needs
a label. -/
theorem exists_ofBody_eq_ok_iff {body : List Char} :
    (∃ d, ofBody body = .ok d) ↔ trim body ≠ [] ∧ trim body ≠ "locations".toList := by
  constructor
  · rintro ⟨d, parsed⟩
    refine ⟨fun hempty => ?_, fun hlocations => ?_⟩
    · rw [ofBody_eq_error_iff.mpr (.inl ⟨hempty, rfl⟩)] at parsed
      cases parsed
    · rw [ofBody_eq_error_iff.mpr (.inr ⟨hlocations, rfl⟩)] at parsed
      cases parsed
  · rintro ⟨hempty, hlocations⟩
    cases parsed : ofBody body with
    | ok d => exact ⟨d, rfl⟩
    | error fault =>
      rcases ofBody_eq_error_iff.mp parsed with ⟨h, -⟩ | ⟨h, -⟩
      · exact absurd h hempty
      · exact absurd h hlocations

/-- A directive that was read has an argument exactly if its kind takes one. -/
theorem isSome_argument {body : List Char} {d : Directive} (h : ofBody body = .ok d) :
    d.argument.isSome = d.kind.takesArgument := by
  by_cases hempty : trim body = []
  · simp [ofBody_of_trim_eq_nil hempty] at h
  by_cases hword : afterWord (trim body) = []
  · rw [ofBody_of_word hempty hword] at h
    exact isSome_argument_ofWord h
  · rw [ofBody_of_phrase hempty hword] at h
    cases h
    exact isSome_argument_ofPhrase _ _ _

end RuleCommand.Directive
