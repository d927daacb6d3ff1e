import RuleCommand.Text.CharClass

set_option autoImplicit false

/-!
# Quoted text

Text in messages and listings stands between quote marks. The mark around it, a backslash, a
control with a short name and a character without a shape of its own are escaped inside it, so that
quoted text never spans two lines. The other kind of mark is plain.

## Main definitions

* `RuleCommand.QuoteMark` — the marks that text stands between.
* `RuleCommand.QuoteMark.escape` — the written form of one character.
* `RuleCommand.QuoteMark.quote` — a whole text in quotes.

## Main results

* `RuleCommand.QuoteMark.newline_not_mem_escape`, `RuleCommand.QuoteMark.newline_not_mem_quote` —
  the written form of a character holds no line break, and neither does a text in quotes.
-/

namespace RuleCommand

/-- The marks that text stands between. -/
inductive QuoteMark where
  /-- The mark around a single character. -/
  | single
  /-- The mark around a text. -/
  | double
deriving DecidableEq, Repr

namespace QuoteMark

/-- The mark as it is written. -/
def char : QuoteMark → Char
  | single => '\''
  | double => '"'

/-- A character by its code point, in hexadecimal digits between braces. -/
def codePoint (c : Char) : List Char :=
  '\\' :: 'u' :: '\x7b' :: (Nat.toDigits 16 c.toNat ++ ['\x7d'])

/-- The written form of one character. -/
def escape (mark : QuoteMark) (c : Char) : List Char :=
  if c = '\x00' then ['\\', '0']
  else if c = '\t' then ['\\', 't']
  else if c = '\n' then ['\\', 'n']
  else if c = '\r' then ['\\', 'r']
  else if c = '\\' ∨ c = mark.char then ['\\', c]
  else if isPrintable c then [c]
  else codePoint c

theorem digitChar_ne_newline {n : Nat} (h : n < 16) : Nat.digitChar n ≠ '\n' := by
  intro eq
  have small : ∀ k < 16, Nat.digitChar k ≠ '\n' := by decide
  exact small n h eq

theorem newline_not_mem_toDigits (n : Nat) : '\n' ∉ Nat.toDigits 16 n := by
  induction n using Nat.strongRecOn with
  | ind n ih =>
    rw [Nat.toDigits_eq_if (by decide)]
    split
    · next small => simp [(digitChar_ne_newline small).symm]
    · next large =>
      have rest := ih (n / 16) (Nat.div_lt_self (by omega) (by decide))
      have last := digitChar_ne_newline (Nat.mod_lt n (show 0 < 16 by decide))
      simp [rest, last.symm]

/-- The written form of a character holds no line break. -/
theorem newline_not_mem_escape (mark : QuoteMark) (c : Char) : '\n' ∉ mark.escape c := by
  rw [escape]
  by_cases newline : c = '\n'
  · simp [newline]
  · repeat' split
    all_goals simp [codePoint, newline_not_mem_toDigits, Ne.symm newline]

/-- A text in quotes. -/
def quote (mark : QuoteMark) (s : String) : String :=
  String.ofList (mark.char :: (s.toList.flatMap mark.escape ++ [mark.char]))

/-- A text in quotes holds no line break. -/
theorem newline_not_mem_quote (mark : QuoteMark) (s : String) : '\n' ∉ (mark.quote s).toList := by
  have plain : '\n' ≠ mark.char := by cases mark <;> decide
  simp [quote, plain, newline_not_mem_escape]

end QuoteMark

/-- A text between double quotes, as messages show labels and arguments. -/
def quoteText (s : String) : String :=
  QuoteMark.double.quote s

/-- A character between single quotes. -/
def quoteChar (c : Char) : String :=
  QuoteMark.single.quote (String.singleton c)

end RuleCommand
