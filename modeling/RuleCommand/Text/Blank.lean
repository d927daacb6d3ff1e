import RuleCommand.Text.CharClass

set_option autoImplicit false

/-!
# Blanks around and between words

The two ways in which directives use blanks: text is trimmed of them, and is split at the first of
them.

## Main definitions

* `RuleCommand.trim` — a text without the blanks at its two ends.
* `RuleCommand.firstWord` — the text up to its first blank.

## Main results

* `RuleCommand.isTrimmed_trim` — a trimmed text neither starts nor ends with a blank.
* `RuleCommand.trim_eq_self` — trimming leaves such a text alone.
* `RuleCommand.trim_eq_nil_iff` — nothing is left of blanks only.
* `RuleCommand.trim_padded` — blanks around a text are trimmed off.
* `RuleCommand.firstWord_append_afterWord` — splitting at the first blank loses nothing.
* `RuleCommand.firstWord_append` — a word ends at the first blank behind it.
-/

namespace RuleCommand

/-! ## Trimming -/

/-- A text without the blanks at its start. -/
def trimLeft (text : List Char) : List Char :=
  text.dropWhile isBlank

/-- A text without the blanks at its end. -/
def trimRight (text : List Char) : List Char :=
  (trimLeft text.reverse).reverse

/-- A text without the blanks at its two ends. -/
def trim (text : List Char) : List Char :=
  trimRight (trimLeft text)

/-- A text that starts with no blank and ends with none. -/
def IsTrimmed (text : List Char) : Prop :=
  (∀ c ∈ text.head?, isBlank c = false) ∧ ∀ c ∈ text.getLast?, isBlank c = false

theorem trimLeft_eq_self {text : List Char} (h : ∀ c ∈ text.head?, isBlank c = false) :
    trimLeft text = text := by
  cases text with
  | nil => rfl
  | cons c rest => simp [trimLeft, h c (by simp)]

theorem head?_trimLeft (text : List Char) : ∀ c ∈ (trimLeft text).head?, isBlank c = false := by
  intro c member
  have first := List.head?_dropWhile_not isBlank text
  rw [trimLeft, Option.mem_def] at member
  simpa [member] using first

theorem trimLeft_suffix (text : List Char) : trimLeft text <:+ text :=
  List.dropWhile_suffix isBlank

theorem trimRight_prefix (text : List Char) : trimRight text <+: text := by
  rw [← List.reverse_suffix, trimRight, List.reverse_reverse]
  exact trimLeft_suffix _

theorem getLast?_trimRight (text : List Char) :
    ∀ c ∈ (trimRight text).getLast?, isBlank c = false := by
  rw [trimRight, List.getLast?_reverse]
  exact head?_trimLeft _

theorem trimRight_eq_self {text : List Char} (h : ∀ c ∈ text.getLast?, isBlank c = false) :
    trimRight text = text := by
  rw [trimRight, trimLeft_eq_self, List.reverse_reverse]
  rwa [List.head?_reverse]

/-- A trimmed text neither starts nor ends with a blank. -/
theorem isTrimmed_trim (text : List Char) : IsTrimmed (trim text) := by
  refine ⟨fun c member => ?_, getLast?_trimRight _⟩
  apply head?_trimLeft text c
  obtain ⟨rest, split⟩ := trimRight_prefix (trimLeft text)
  have first : (trimRight (trimLeft text)).head? = some c := member
  rw [← split, List.head?_append, first]
  rfl

/-- Trimming leaves a text alone that neither starts nor ends with a blank. -/
theorem trim_eq_self {text : List Char} (h : IsTrimmed text) : trim text = text := by
  rw [trim, trimLeft_eq_self h.1, trimRight_eq_self h.2]

/-- A text is its trimmed form between two runs of blanks. -/
theorem exists_eq_append_trim (text : List Char) :
    ∃ before after, text = before ++ trim text ++ after ∧
      (∀ c ∈ before, isBlank c = true) ∧ ∀ c ∈ after, isBlank c = true := by
  refine ⟨text.takeWhile isBlank, ((trimLeft text).reverse.takeWhile isBlank).reverse,
    ?_, ?_, ?_⟩
  · rw [List.append_assoc, trim, trimRight, ← List.reverse_append, trimLeft, trimLeft,
      List.takeWhile_append_dropWhile, List.reverse_reverse, List.takeWhile_append_dropWhile]
  · exact List.all_eq_true.mp List.all_takeWhile
  · intro c member
    exact List.all_eq_true.mp List.all_takeWhile c (List.mem_reverse.mp member)

/-- Just the texts of blanks are trimmed to nothing. -/
theorem trim_eq_nil_iff {text : List Char} : trim text = [] ↔ ∀ c ∈ text, isBlank c = true := by
  constructor
  · intro hnil
    obtain ⟨before, after, htext, hbefore, hafter⟩ := exists_eq_append_trim text
    rw [htext, hnil, List.append_nil]
    intro c hc
    rcases List.mem_append.mp hc with h | h
    · exact hbefore c h
    · exact hafter c h
  · intro hblank
    have hleft : trimLeft (text ++ []) = [] := List.dropWhile_append_of_pos hblank
    rw [List.append_nil] at hleft
    rw [trim, hleft]
    rfl

/-- A text that does not end with a blank is not trimmed to nothing. -/
theorem trim_ne_nil {text : List Char} (hne : text ≠ [])
    (hlast : ∀ c ∈ text.getLast?, isBlank c = false) : trim text ≠ [] := by
  intro hnil
  have hblank := trim_eq_nil_iff.mp hnil _ (List.getLast_mem hne)
  rw [hlast _ (by simp [List.getLast?_eq_some_getLast hne])] at hblank
  cases hblank

/-- Trimming keeps characters out that a text does not hold. -/
theorem not_mem_trim {c : Char} {text : List Char} (h : c ∉ text) : c ∉ trim text := by
  obtain ⟨before, after, htext, -, -⟩ := exists_eq_append_trim text
  intro hmem
  exact h (htext ▸ by simp [hmem])

/-- A text that starts with blanks is trimmed like what is behind them. -/
theorem trim_append_of_isBlank {blanks : List Char} (hblanks : ∀ c ∈ blanks, isBlank c = true)
    (text : List Char) : trim (blanks ++ text) = trim text := by
  rw [trim, trim, trimLeft, List.dropWhile_append_of_pos hblanks, trimLeft]

/-- A trimmed text is what is left of it between blanks. -/
theorem trim_between {before text after : List Char} (hbefore : ∀ c ∈ before, isBlank c = true)
    (htext : IsTrimmed text) (hafter : ∀ c ∈ after, isBlank c = true) :
    trim (before ++ (text ++ after)) = text := by
  rw [trim_append_of_isBlank hbefore]
  cases text with
  | nil => exact trim_eq_nil_iff.mpr hafter
  | cons c rest =>
    have hleft : trimLeft (c :: rest ++ after) = c :: rest ++ after :=
      trimLeft_eq_self (by simpa using htext.1)
    rw [trim, hleft, trimRight, List.reverse_append, trimLeft,
      List.dropWhile_append_of_pos (by simpa using hafter)]
    exact trimRight_eq_self htext.2

/-- Blanks that are put around a text are trimmed off again. -/
theorem trim_padded {before after : List Char} (hbefore : ∀ c ∈ before, isBlank c = true)
    (hafter : ∀ c ∈ after, isBlank c = true) (text : List Char) :
    trim (before ++ (text ++ after)) = trim text := by
  obtain ⟨front, back, htext, hfront, hback⟩ := exists_eq_append_trim text
  have hkept := isTrimmed_trim text
  generalize trim text = kept at htext hkept ⊢
  have hwhole : before ++ (text ++ after) = before ++ front ++ (kept ++ (back ++ after)) := by
    rw [htext]
    simp only [List.append_assoc]
  rw [hwhole]
  refine trim_between (fun c hc => ?_) hkept fun c hc => ?_
  · exact (List.mem_append.mp hc).elim (hbefore c) (hfront c)
  · exact (List.mem_append.mp hc).elim (hback c) (hafter c)

/-! ## Words -/

/-- The text up to its first blank. -/
def firstWord (text : List Char) : List Char :=
  text.takeWhile fun c => !isBlank c

/-- The text from its first blank on. -/
def afterWord (text : List Char) : List Char :=
  text.dropWhile fun c => !isBlank c

@[simp] theorem firstWord_append_afterWord (text : List Char) :
    firstWord text ++ afterWord text = text :=
  List.takeWhile_append_dropWhile

/-- The first word of a text holds no blank. -/
theorem isBlank_of_mem_firstWord (text : List Char) : ∀ c ∈ firstWord text, isBlank c = false := by
  intro c hc
  have h := List.all_eq_true.mp (List.all_takeWhile (p := fun c => !isBlank c) (l := text)) c hc
  simpa using h

/-- Behind its first word, a text that goes on does so with a blank. -/
theorem isBlank_head?_afterWord (text : List Char) :
    ∀ c ∈ (afterWord text).head?, isBlank c = true := by
  intro c hc
  have h := List.head?_dropWhile_not (fun c => !isBlank c) text
  rw [afterWord, Option.mem_def] at hc
  simpa [hc] using h

/-- A word ends at the first blank behind it. -/
theorem firstWord_append {word : List Char} (hword : ∀ c ∈ word, isBlank c = false)
    {rest : List Char} (hrest : ∀ c ∈ rest.head?, isBlank c = true) :
    firstWord (word ++ rest) = word ∧ afterWord (word ++ rest) = rest := by
  have hall : ∀ c ∈ word, (!isBlank c) = true := by simpa using hword
  rw [firstWord, afterWord, List.takeWhile_append_of_pos hall, List.dropWhile_append_of_pos hall]
  cases rest with
  | nil => simp
  | cons c rest => simp [hrest c (by simp)]

end RuleCommand
