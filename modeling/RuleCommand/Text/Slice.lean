import RuleCommand.Text.Position

set_option autoImplicit false

/-!
# Slices of a text

A text is sliced at byte offsets. A slice can be taken if it stops no earlier than it starts, ends
within the text, and cuts no character in two.

## Main definitions

* `RuleCommand.IsBoundary` — the byte offsets at which a text may be cut.
* `RuleCommand.cutAtByte?` — a text cut at a byte offset that lies between two characters.
* `RuleCommand.slice` — the part of a text between two byte offsets.
* `RuleCommand.BadSlice` — the bounds of a slice that cannot be taken.
* `RuleCommand.findByte?`, `RuleCommand.findLastByte?` — the byte offset of the first and of the
  last character with a property.
* `RuleCommand.Position.locate` — the place of a byte offset, told by slices.

## Main results

* `RuleCommand.slice_eq_ok_iff` — when a slice can be taken, and which one it is.
* `RuleCommand.findByte?_eq` — the offset found is the length of the text before the character.
* `RuleCommand.findLastByte?_append_cons` — so is the offset of the last such character.
-/

namespace RuleCommand

/-! ## Cutting -/

@[simp] theorem splitAtByte_fst_append_snd (offset : Nat) (text : List Char) :
    (splitAtByte offset text).1 ++ (splitAtByte offset text).2 = text := by
  induction text generalizing offset with
  | nil => rfl
  | cons c rest ih =>
    rw [splitAtByte]
    split
    · rfl
    · simp [ih]

/-- A byte offset that lies between two characters of a text, or at an end of it. -/
def IsBoundary (text : List Char) (offset : Nat) : Prop :=
  ∃ before after, text = before ++ after ∧ byteLength before = offset

/-- The length of a first part is a boundary. -/
theorem isBoundary_append (before after : List Char) :
    IsBoundary (before ++ after) (byteLength before) :=
  ⟨before, after, rfl, rfl⟩

/-- A text cut at a byte offset, if the offset lies between two characters or at an end. -/
def cutAtByte? (offset : Nat) (text : List Char) : Option (List Char × List Char) :=
  let parts := splitAtByte offset text
  if byteLength parts.1 = offset then some parts else none

/-- A text is cut at the length of its first part. -/
theorem cutAtByte?_eq_some_iff {offset : Nat} {text before after : List Char} :
    cutAtByte? offset text = some (before, after) ↔
      text = before ++ after ∧ byteLength before = offset := by
  constructor
  · intro h
    simp only [cutAtByte?, Option.ite_none_right_eq_some, Option.some.injEq] at h
    obtain ⟨length, parts⟩ := h
    have whole := splitAtByte_fst_append_snd offset text
    rw [parts] at length whole
    exact ⟨whole.symm, length⟩
  · rintro ⟨rfl, rfl⟩
    simp [cutAtByte?]

/-! ## Slices -/

/-- The bounds of a slice that cannot be taken. -/
structure BadSlice where
  /-- The offset at which it starts. -/
  start : Nat
  /-- The offset at which it stops. -/
  stop : Nat
deriving DecidableEq, Repr

/-- The part of a text between two byte offsets. -/
def slice (text : List Char) (start stop : Nat) : Except BadSlice (List Char) :=
  match (cutAtByte? stop text).bind fun parts => cutAtByte? start parts.1 with
  | some (_, part) => .ok part
  | none => .error ⟨start, stop⟩

/-- A slice stands in the text with its bounds as the lengths of what is before it and of what it
ends. -/
theorem slice_eq_ok_iff {text part : List Char} {start stop : Nat} :
    slice text start stop = .ok part ↔
      ∃ before after, text = before ++ part ++ after ∧ byteLength before = start ∧
        byteLength (before ++ part) = stop := by
  constructor
  · intro h
    rw [slice] at h
    split at h
    · next before _ cuts =>
      obtain ⟨⟨upTo, after⟩, outer, inner⟩ := Option.bind_eq_some_iff.mp cuts
      obtain ⟨rfl, stop_eq⟩ := cutAtByte?_eq_some_iff.mp outer
      obtain ⟨rfl, start_eq⟩ := cutAtByte?_eq_some_iff.mp inner
      cases h
      exact ⟨before, after, rfl, start_eq, stop_eq⟩
    · simp at h
  · rintro ⟨before, after, rfl, rfl, rfl⟩
    have outer : cutAtByte? (byteLength (before ++ part)) (before ++ part ++ after) =
        some (before ++ part, after) := cutAtByte?_eq_some_iff.mpr ⟨rfl, rfl⟩
    have inner : cutAtByte? (byteLength before) (before ++ part) = some (before, part) :=
      cutAtByte?_eq_some_iff.mpr ⟨rfl, rfl⟩
    rw [slice, outer, Option.bind_some, inner]

/-- The part between two others is the slice between their ends. -/
theorem slice_append (before part after : List Char) :
    slice (before ++ (part ++ after)) (byteLength before)
      (byteLength before + byteLength part) = .ok part :=
  slice_eq_ok_iff.mpr ⟨before, after, by simp, rfl, by simp⟩

/-- The part of a text from a byte offset on. -/
def sliceFrom (text : List Char) (start : Nat) : Except BadSlice (List Char) :=
  slice text start (byteLength text)

@[simp] theorem sliceFrom_append (before part : List Char) :
    sliceFrom (before ++ part) (byteLength before) = .ok part :=
  slice_eq_ok_iff.mpr ⟨before, [], by simp, rfl, rfl⟩

/-! ## Searching -/

/-- The byte offset of the first character with a property. -/
def findByte? (p : Char → Bool) : List Char → Option Nat
  | [] => none
  | c :: rest => if p c then some 0 else (findByte? p rest).map (c.utf8Size + ·)

/-- The offset found is the length of the text before the character. -/
theorem findByte?_eq (p : Char → Bool) (text : List Char) :
    findByte? p text =
      if text.dropWhile (fun c => !p c) = [] then none
      else some (byteLength (text.takeWhile fun c => !p c)) := by
  induction text with
  | nil => rfl
  | cons c rest ih =>
    rw [findByte?]
    by_cases h : p c
    · simp [h]
    · rw [if_neg h, ih]
      simp only [h, Bool.not_false, List.dropWhile_cons_of_pos, List.takeWhile_cons_of_pos,
        byteLength_cons]
      split <;> rfl

/-- The byte offset of the last character with a property. -/
def findLastByte? (p : Char → Bool) : List Char → Option Nat
  | [] => none
  | c :: rest =>
    match findLastByte? p rest with
    | some offset => some (c.utf8Size + offset)
    | none => if p c then some 0 else none

theorem findLastByte?_eq_none {p : Char → Bool} {text : List Char} (h : ∀ c ∈ text, ¬p c = true) :
    findLastByte? p text = none := by
  induction text with
  | nil => rfl
  | cons c rest ih =>
    have hrest := ih fun d member => h d (List.mem_cons_of_mem c member)
    rw [findLastByte?, hrest]
    exact if_neg (h c List.mem_cons_self)

/-- The offset found is the length of the text before the last character with the property. -/
theorem findLastByte?_append_cons {p : Char → Bool} {c : Char} {rest : List Char} (hc : p c = true)
    (h : ∀ d ∈ rest, ¬p d = true) (before : List Char) :
    findLastByte? p (before ++ c :: rest) = some (byteLength before) := by
  induction before with
  | nil =>
    rw [List.nil_append, findLastByte?, findLastByte?_eq_none h]
    exact if_pos hc
  | cons d before ih =>
    rw [List.cons_append, findLastByte?, ih]
    rfl

/-! ## Places -/

/-- The place of a byte offset, told by slices: the lines are counted before the line of the offset,
and the column is counted from the start of that line. An offset behind the end counts as the
end. -/
def Position.locate (text : List Char) (offset : Nat) : Except BadSlice Position := do
  let offset := min offset (byteLength text)
  let before ← slice text 0 offset
  let lineStart := ((findLastByte? (· == '\n') before).map (· + 1)).getD 0
  let after ← sliceFrom text offset
  let lineEnd := ((findByte? (· == '\n') after).map (offset + ·)).getD (byteLength text)
  let earlier ← slice text 0 lineStart
  let indent ← slice text lineStart offset
  let line ← slice text lineStart lineEnd
  return ⟨earlier.count '\n' + 1, indent.length + 1, String.ofList line⟩

end RuleCommand
