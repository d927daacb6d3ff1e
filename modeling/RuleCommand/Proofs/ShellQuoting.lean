import Mathlib.Data.List.Infix
import RuleCommand.Compile

set_option autoImplicit false

/-!
# Occurrences in quoted text

Quoting a text for a shell writes single quotes and backslashes into it. A word that holds neither
occurs in the quoted text where it does in the text and nowhere else.

## Main definitions

* `RuleCommand.occurrences` — how often a word occurs in a text.

## Main results

* `RuleCommand.occurrences_pos_iff` — a word that occurs is a part of the text.
* `RuleCommand.ShellWord.occurrences_quote` — quoting neither makes nor breaks an occurrence.
-/

namespace RuleCommand

/-- The number of places at which a word stands in a text. -/
def occurrences (word text : List Char) : Nat :=
  text.tails.countP (word.isPrefixOf ·)

/-- A word occurs exactly if it is a part of the text. -/
theorem occurrences_pos_iff {word text : List Char} :
    0 < occurrences word text ↔ word <:+: text := by
  rw [occurrences, List.countP_pos_iff, List.infix_iff_prefix_suffix]
  refine exists_congr fun rest => ?_
  rw [List.mem_tails, List.isPrefixOf_iff_prefix, and_comm]

/-- A word occurs in front of a text with one more character, or in the text. -/
lemma occurrences_cons (word : List Char) (c : Char) (text : List Char) :
    occurrences word (c :: text) =
      occurrences word text + if word <+: c :: text then 1 else 0 := by
  rw [occurrences, List.tails_cons, List.countP_cons, occurrences]
  simp only [List.isPrefixOf_iff_prefix]

/-- No occurrence starts at a character that the word does not hold. -/
lemma occurrences_cons_of_not_mem {word : List Char} (hword : word ≠ []) {c : Char}
    (hc : c ∉ word) (text : List Char) :
    occurrences word (c :: text) = occurrences word text := by
  obtain ⟨first, others, rfl⟩ := List.exists_cons_of_ne_nil hword
  have hfirst : ¬first :: others <+: c :: text := by
    rw [List.cons_prefix_cons]
    rintro ⟨rfl, -⟩
    exact hc List.mem_cons_self
  rw [occurrences_cons, if_neg hfirst, Nat.add_zero]

namespace ShellWord

variable {word : List Char}

/-- A word without single quotes starts a text exactly if it starts the text as it is written
between single quotes. -/
lemma isPrefix_escape_iff (hquote : '\'' ∉ word) (text : List Char) :
    word <+: text.flatMap escape ++ ['\''] ↔ word <+: text := by
  induction text generalizing word with
  | nil =>
    cases word with
    | nil => simp
    | cons first others =>
      rw [List.mem_cons, not_or] at hquote
      simp [List.cons_prefix_cons, Ne.symm hquote.1]
  | cons c text ih =>
    cases word with
    | nil => simp
    | cons first others =>
      rw [List.mem_cons, not_or] at hquote
      rw [List.flatMap_cons, List.append_assoc, escape]
      by_cases hc : c = '\''
      · subst hc
        simp [List.cons_prefix_cons, Ne.symm hquote.1]
      · rw [if_neg hc, List.singleton_append, List.cons_prefix_cons, List.cons_prefix_cons,
          ih hquote.2]

/-- **Quoting neither makes nor breaks an occurrence** of a word that holds no single quote and no
backslash.

**Proof sketch.** Induction on the text. At a single quote four characters are written, at none of
which an occurrence starts; at any other character the text and the quoted text start with the same
words. -/
theorem occurrences_quote (hword : word ≠ []) (hquote : '\'' ∉ word) (hbackslash : '\\' ∉ word)
    (text : String) :
    occurrences word (quote text).toList = occurrences word text.toList := by
  rw [toList_quote, occurrences_cons_of_not_mem hword hquote]
  induction text.toList with
  | nil =>
    rw [List.flatMap_nil, List.nil_append, occurrences_cons_of_not_mem hword hquote]
  | cons c text ih =>
    rw [List.flatMap_cons, List.append_assoc, escape]
    by_cases hc : c = '\''
    · subst hc
      rw [if_pos rfl]
      simp only [List.cons_append, List.nil_append]
      rw [occurrences_cons_of_not_mem hword hquote, occurrences_cons_of_not_mem hword hbackslash,
        occurrences_cons_of_not_mem hword hquote, occurrences_cons_of_not_mem hword hquote, ih,
        occurrences_cons_of_not_mem hword hquote]
    · have hstart := isPrefix_escape_iff hquote (c :: text)
      rw [List.flatMap_cons, List.append_assoc, escape, if_neg hc, List.singleton_append] at hstart
      rw [if_neg hc, List.singleton_append, occurrences_cons, occurrences_cons, ih]
      simp only [hstart]

end ShellWord

end RuleCommand
