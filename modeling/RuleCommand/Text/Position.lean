set_option autoImplicit false

/-!
# Places in a text

Offsets into a text count the bytes of its UTF-8 form. A reader is shown a line, a column and the
line itself instead. Lines end at line breaks only, and columns count characters.

## Main definitions

* `RuleCommand.byteLength` — the number of bytes of a text.
* `RuleCommand.splitAtByte` — a text cut at a byte offset.
* `RuleCommand.Position` — a line, a column and the text of the line.
* `RuleCommand.Position.ofByte` — the position of a byte offset.

## Main results

* `RuleCommand.byteLength_append` — the bytes of a concatenation add up.
* `RuleCommand.byteLength_toList` — the number of bytes is the size of the text as a string.
* `RuleCommand.splitAtByte_append` — cutting at the length of a first part gives both parts back.
-/

namespace RuleCommand

/-! ## Byte offsets -/

/-- The number of bytes of a text in UTF-8. -/
def byteLength : List Char → Nat
  | [] => 0
  | c :: rest => c.utf8Size + byteLength rest

@[simp] theorem byteLength_nil : byteLength [] = 0 := rfl

@[simp] theorem byteLength_cons (c : Char) (text : List Char) :
    byteLength (c :: text) = c.utf8Size + byteLength text := rfl

/-- The bytes of a concatenation add up. -/
@[simp] theorem byteLength_append (first second : List Char) :
    byteLength (first ++ second) = byteLength first + byteLength second := by
  induction first with
  | nil => simp
  | cons c rest ih => simp [ih, Nat.add_assoc]

/-- The number of bytes is the size of the text as a string. -/
theorem byteLength_toList (text : String) : byteLength text.toList = text.utf8ByteSize := by
  suffices h : ∀ chars : List Char, byteLength chars = (String.ofList chars).utf8ByteSize by
    simpa using h text.toList
  intro chars
  induction chars with
  | nil => rfl
  | cons c rest ih =>
    rw [byteLength_cons, ih, ← List.singleton_append, String.ofList_append,
      String.utf8ByteSize_append, ← String.singleton_eq_ofList, String.utf8ByteSize_singleton]

/-- A text cut at a byte offset: the characters that start before the offset, and the others. -/
def splitAtByte (offset : Nat) : List Char → List Char × List Char
  | [] => ([], [])
  | c :: rest =>
    if offset = 0 then ([], c :: rest)
    else
      let parts := splitAtByte (offset - c.utf8Size) rest
      (c :: parts.1, parts.2)

@[simp] theorem splitAtByte_zero (text : List Char) : splitAtByte 0 text = ([], text) := by
  cases text <;> simp [splitAtByte]

/-- Cutting a concatenation at the length of its first part gives both parts back. -/
@[simp] theorem splitAtByte_append (first second : List Char) :
    splitAtByte (byteLength first) (first ++ second) = (first, second) := by
  induction first with
  | nil => simp
  | cons c rest ih =>
    have positive := c.utf8Size_pos
    have nonzero : c.utf8Size + byteLength rest ≠ 0 := by omega
    have shift : c.utf8Size + byteLength rest - c.utf8Size = byteLength rest := by omega
    rw [List.cons_append, byteLength_cons, splitAtByte, if_neg nonzero, shift, ih]

/-! ## Lines and columns -/

/-- The part of a text after its last line break. -/
def lastLine (text : List Char) : List Char :=
  (text.reverse.takeWhile (· != '\n')).reverse

/-- The part of a text before its first line break. -/
def firstLine (text : List Char) : List Char :=
  text.takeWhile (· != '\n')

/-- A place in a text, as it is shown to a reader. -/
structure Position where
  /-- The number of the line, from one. -/
  line : Nat
  /-- The number of the character in its line, from one. -/
  column : Nat
  /-- The text of the line. -/
  lineText : String
deriving DecidableEq, Repr

namespace Position

/-- The place between two parts of a text. -/
def between (before after : List Char) : Position where
  line := before.count '\n' + 1
  column := (lastLine before).length + 1
  lineText := String.ofList (lastLine before ++ firstLine after)

/-- The place of a byte offset in a text. -/
def ofByte (text : List Char) (offset : Nat) : Position :=
  let parts := splitAtByte offset text
  between parts.1 parts.2

theorem ofByte_append (before after : List Char) :
    ofByte (before ++ after) (byteLength before) = between before after := by
  simp [ofByte]

end Position

end RuleCommand
