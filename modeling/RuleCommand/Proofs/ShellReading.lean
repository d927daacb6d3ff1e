import Mathlib.Tactic.Lemma
import RuleCommand.Compile

set_option autoImplicit false

/-!
# Reading a quoted text back

What a shell makes of a quoted text. A reader of shell words takes one character after the other.
Outside quotes a single quote opens a quoted part, a backslash escapes the character behind it, a
blank ends the word, and any other character is kept but may mean something of its own. Between
single quotes every character but the single quote means itself. Over a quoted text this reader
finds one word, which is the text, and meets nothing outside quotes that a text could have smuggled
in.

## Main definitions

* `RuleCommand.replaceAll` — a text with each occurrence of a part replaced.
* `RuleCommand.ShellWord.Reader` — the state of a reader of shell words.
* `RuleCommand.ShellWord.Reader.step`, `RuleCommand.ShellWord.Reader.read` — the reader.
* `RuleCommand.ShellWord.ReadsAsWord` — a written text that stands for one word and nothing else.

## Main results

* `RuleCommand.ShellWord.Reader.read_escapes` — how the reader takes a text between quotes.
* `RuleCommand.ShellWord.Reader.read_quote` — how the reader takes a quoted text.
* `RuleCommand.ShellWord.quote_reads_back` — a quoted text stands for the text alone.
-/

namespace RuleCommand

/-! ## Replacing -/

/-- A text with each occurrence of a part, which is not empty, replaced from left to right. What was
put in is not searched again. -/
def replaceAll (old new : List Char) : List Char → List Char
  | [] => []
  | c :: rest =>
    if old.isPrefixOf (c :: rest) then new ++ replaceAll old new (rest.drop (old.length - 1))
    else c :: replaceAll old new rest
termination_by text => text.length
decreasing_by
  · simp only [List.length_drop, List.length_cons]
    omega
  · exact Nat.lt_succ_self _

@[simp] lemma replaceAll_nil (old new : List Char) : replaceAll old new [] = [] := by
  rw [replaceAll]

/-- A part that stands in front is replaced, and the search goes on behind it. -/
lemma replaceAll_append {old : List Char} (hold : old ≠ []) (new rest : List Char) :
    replaceAll old new (old ++ rest) = new ++ replaceAll old new rest := by
  obtain ⟨first, others, rfl⟩ := List.exists_cons_of_ne_nil hold
  have hprefix : (first :: others).isPrefixOf (first :: (others ++ rest)) = true :=
    List.isPrefixOf_iff_prefix.mpr (List.prefix_append (first :: others) rest)
  rw [List.cons_append, replaceAll, if_pos hprefix]
  simp

/-- Where the part does not start, a character is kept. -/
lemma replaceAll_cons {c first : Char} (hne : c ≠ first) (others new rest : List Char) :
    replaceAll (first :: others) new (c :: rest) =
      c :: replaceAll (first :: others) new rest := by
  have hprefix : ¬(first :: others).isPrefixOf (c :: rest) = true := by
    rw [List.isPrefixOf_iff_prefix, List.cons_prefix_cons]
    rintro ⟨rfl, -⟩
    exact hne rfl
  rw [replaceAll, if_neg hprefix]

namespace ShellWord

/-! ## The reader -/

/-- Where a reader stands. -/
inductive Mode where
  /-- Outside quotes. -/
  | unquoted
  /-- Behind a backslash outside quotes. -/
  | escaped
  /-- Between single quotes. -/
  | quoted
deriving DecidableEq, Repr

/-- What a reader meets outside quotes. -/
inductive Unquoted where
  /-- A single quote that opens or closes a quoted part. -/
  | quote
  /-- A character with a backslash in front of it. -/
  | escaped (c : Char)
  /-- Any other character, which may mean something of its own to the shell. -/
  | bare (c : Char)
deriving DecidableEq, Repr

/-- The state of a reader of shell words. -/
structure Reader where
  /-- Where the reader stands. -/
  mode : Mode := .unquoted
  /-- The words that were ended by a blank. -/
  ended : List (List Char) := []
  /-- The word that is being read, if one was started. -/
  word? : Option (List Char) := none
  /-- What was met outside quotes. -/
  met : List Unquoted := []
deriving DecidableEq, Repr

namespace Reader

/-- A reader that has started a word, if it had not, and has added characters to it. -/
def put (reader : Reader) (text : List Char) : Reader :=
  { reader with word? := some (reader.word?.getD [] ++ text) }

/-- A reader that has met something outside quotes. -/
def meet (reader : Reader) (unquoted : Unquoted) : Reader :=
  { reader with met := reader.met ++ [unquoted] }

/-- The reader takes a character. -/
def step (reader : Reader) (c : Char) : Reader :=
  match reader.mode with
  | .quoted =>
    if c = '\'' then { reader.meet .quote with mode := .unquoted } else reader.put [c]
  | .escaped => { (reader.put [c]).meet (.escaped c) with mode := .unquoted }
  | .unquoted =>
    if c = '\'' then { (reader.put []).meet .quote with mode := .quoted }
    else if c = '\\' then { reader with mode := .escaped }
    else if c = ' ' ∨ c = '\t' ∨ c = '\n' then
      { reader.meet (.bare c) with ended := reader.ended ++ reader.word?.toList, word? := none }
    else (reader.put [c]).meet (.bare c)

/-- The reader takes a text. -/
def read (reader : Reader) (text : List Char) : Reader :=
  text.foldl step reader

/-- The words of a text that was read to its end, which has to be outside quotes. -/
def words? (reader : Reader) : Option (List (List Char)) :=
  if reader.mode = .unquoted then some (reader.ended ++ reader.word?.toList) else none

end Reader

/-- A written text that stands for one word and nothing else. -/
structure ReadsAsWord (written word : List Char) : Prop where
  /-- The reader ends outside quotes, and the word is the only one. -/
  words : (Reader.read {} written).words? = some [word]
  /-- Outside quotes stand only single quotes, escaped ones and those around quoted parts. -/
  unquoted : ∀ u ∈ (Reader.read {} written).met, u = .quote ∨ u = .escaped '\''

/-! ## Reading a quoted text -/

/-- What a reader meets outside quotes while it takes the written form of a character. -/
def unquotedOf (c : Char) : List Unquoted :=
  if c = '\'' then [.quote, .escaped '\'', .quote] else []

namespace Reader

variable (ended : List (List Char)) (word : List Char) (met : List Unquoted)

/-- Between quotes, the written form of a character adds the character to the word. -/
lemma read_escape (c : Char) :
    read ⟨.quoted, ended, some word, met⟩ (escape c) =
      ⟨.quoted, ended, some (word ++ [c]), met ++ unquotedOf c⟩ := by
  by_cases hc : c = '\''
  · -- The quotes are closed, a quote is escaped, and the quotes are opened again.
    subst hc
    simp [read, escape, unquotedOf, step, put, meet]
  · simp [read, escape, unquotedOf, step, put, hc]

/-- Between quotes, a text as it is written there is added to the word.

**Proof sketch.** Induction on the text. After the written form of each character the reader stands
between quotes again (`read_escape`). -/
theorem read_escapes (text : List Char) :
    read ⟨.quoted, ended, some word, met⟩ (text.flatMap escape) =
      ⟨.quoted, ended, some (word ++ text), met ++ text.flatMap unquotedOf⟩ := by
  induction text generalizing word met with
  | nil => simp [read]
  | cons c text ih =>
    rw [List.flatMap_cons, read, List.foldl_append]
    have hfirst := read_escape ended word met c
    rw [read] at hfirst
    rw [hfirst]
    have hothers := ih (word ++ [c]) (met ++ unquotedOf c)
    rw [read] at hothers
    rw [hothers]
    simp

/-- Outside quotes, a quoted text is added to the word that is being read. -/
theorem read_quote (reader : Reader) (hmode : reader.mode = .unquoted) (text : String) :
    reader.read (quote text).toList =
      { reader.put text.toList with
        met := reader.met ++ .quote :: (text.toList.flatMap unquotedOf ++ [.quote]) } := by
  obtain ⟨mode, ended, word?, met⟩ := reader
  obtain rfl : mode = .unquoted := hmode
  have hopen : step ⟨.unquoted, ended, word?, met⟩ '\'' =
      ⟨.quoted, ended, some (word?.getD []), met ++ [.quote]⟩ := by
    simp [step, put, meet]
  have hinner := read_escapes ended (word?.getD []) (met ++ [.quote]) text.toList
  rw [read] at hinner
  rw [toList_quote, read, List.foldl_cons, hopen, List.foldl_append, hinner]
  simp [step, put, meet]

end Reader

/-! ## Quoting -/

/-- What is written for a single quote between quotes. -/
def escapedQuote : List Char :=
  ['\'', '\\', '\'', '\'']

/-- Between quotes stands the text with each single quote replaced. -/
lemma flatMap_escape_eq_replaceAll (text : List Char) :
    text.flatMap escape = replaceAll ['\''] escapedQuote text := by
  induction text with
  | nil => simp
  | cons c text ih =>
    rw [List.flatMap_cons, ih]
    by_cases hc : c = '\''
    · subst hc
      exact (replaceAll_append (by simp) escapedQuote text).symm
    · rw [replaceAll_cons hc, escape, if_neg hc, List.singleton_append]

/-- Replacing what is written for a single quote gives the text back.

**Proof sketch.** Induction on the text. What is written for a single quote stands in front where
the text has one; any other character is written as itself, and nothing that starts with a quote
starts there. -/
theorem replaceAll_flatMap_escape (text : List Char) :
    replaceAll escapedQuote ['\''] (text.flatMap escape) = text := by
  induction text with
  | nil => simp
  | cons c text ih =>
    rw [List.flatMap_cons]
    by_cases hc : c = '\''
    · subst hc
      have hne : escapedQuote ≠ [] := by simp [escapedQuote]
      have hfront := replaceAll_append hne ['\''] (text.flatMap escape)
      rw [ih] at hfront
      exact hfront
    · rw [escape, if_neg hc, List.singleton_append, escapedQuote, replaceAll_cons hc,
        ← escapedQuote, ih]

/-- **A quoted text stands for the text alone**, whatever the text holds: a shell reads it as one
word, which is the text, and meets nothing else outside quotes; and the text comes back when the
quotes around it are taken off and what is written for a single quote is replaced. So no two texts
are quoted alike.

**Proof sketch.** The reader goes through the written form of each character and stands between
quotes after it (`Reader.read_quote`); the replacement goes through the same written forms
(`replaceAll_flatMap_escape`), and has the text as its result, which the quoted form determines. -/
theorem quote_reads_back :
    (∀ text : String, ReadsAsWord (quote text).toList text.toList ∧
      (quote text).toList = '\'' :: (replaceAll ['\''] escapedQuote text.toList ++ ['\'']) ∧
      replaceAll escapedQuote ['\''] (replaceAll ['\''] escapedQuote text.toList) =
        text.toList) ∧
    Function.Injective quote := by
  have hinner : ∀ text : String, (quote text).toList =
      '\'' :: (replaceAll ['\''] escapedQuote text.toList ++ ['\'']) := by
    intro text
    rw [toList_quote, flatMap_escape_eq_replaceAll]
  have hback : ∀ text : String,
      replaceAll escapedQuote ['\''] (replaceAll ['\''] escapedQuote text.toList) =
        text.toList := by
    intro text
    rw [← flatMap_escape_eq_replaceAll, replaceAll_flatMap_escape]
  refine ⟨fun text => ⟨⟨?_, ?_⟩, hinner text, hback text⟩, ?_⟩
  · rw [Reader.read_quote {} rfl]
    simp [Reader.words?, Reader.put]
  · rw [Reader.read_quote {} rfl]
    intro u hu
    have hu : u = .quote ∨ ∃ c ∈ text.toList, u ∈ unquotedOf c := by
      simpa [or_comm] using hu
    rcases hu with rfl | ⟨c, -, hu⟩
    · exact .inl rfl
    · rw [unquotedOf] at hu
      split at hu
      · simpa [or_comm] using hu
      · simp at hu
  · intro text other h
    have h := congrArg String.toList h
    rw [hinner, hinner, List.cons.injEq, List.append_left_inj] at h
    rw [← String.toList_inj, ← hback text, ← hback other, h.2]

/-- A text that looks like an escaped quote is read back as it is. -/
example : (Reader.read {} (quote "'\\''").toList).words? = some ["'\\''".toList] := by decide

end ShellWord

end RuleCommand
