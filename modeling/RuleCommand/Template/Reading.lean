import RuleCommand.Template.Piece

set_option autoImplicit false

/-!
# Reading a template

A template is cut into pieces from left to right. Reading stops at the first dollar sign with
which no piece starts, and tells why.

## Main definitions

* `RuleCommand.Reading` — the pieces that were read and the fault that ended the reading, if any.
* `RuleCommand.pieceAfterDollar` — the piece that starts at a dollar sign.
* `RuleCommand.Reading.ofChars`, `RuleCommand.Reading.ofText` — the reading of a template.
* `RuleCommand.Reading.source` — the characters that were read.
* `RuleCommand.Reading.located?` — the fault with its place.

## Main results

* `RuleCommand.append_of_pieceAfterDollar` — a piece is cut off the text it stands in.
* `RuleCommand.Reading.ofChars_nil`, `RuleCommand.Reading.ofChars_dollar`,
  `RuleCommand.Reading.ofChars_plain` — the reading of a template by its first character.
-/

namespace RuleCommand

/-! ## One piece -/

/-- The piece that starts at a dollar sign and the text behind it, from the text that follows the
dollar sign. A directive ends at the first closing parenthesis. -/
def pieceAfterDollar : List Char → Except Fault (Piece × List Char)
  | [] => .error .unexpectedEnd
  | '$' :: rest => .ok (.dollar, rest)
  | '(' :: rest =>
    let body := rest.takeWhile (· != ')')
    match rest.dropWhile (· != ')') with
    | [] => .error .missingParen
    | _ :: behind => (Directive.ofBody body).map fun directive =>
        (.ofDirective body directive, behind)
  | c :: rest =>
    if isBlank c then .error (.unexpectedCharacter c)
    else .error (.missingOpenParen (String.ofList (firstWord (c :: rest))))

/-- A piece is cut off the text it stands in: nothing is lost between it and the rest. -/
theorem append_of_pieceAfterDollar {text rest : List Char} {piece : Piece}
    (h : pieceAfterDollar text = .ok (piece, rest)) : piece.source ++ rest = '$' :: text := by
  unfold pieceAfterDollar at h
  split at h
  · simp at h
  · simp only [Except.ok.injEq, Prod.mk.injEq] at h
    obtain ⟨rfl, rfl⟩ := h
    rfl
  · next inner =>
    have cut := List.takeWhile_append_dropWhile (p := (· != ')')) (l := inner)
    have closing := List.head?_dropWhile_not (· != ')') inner
    split at h
    · simp at h
    · next c behind eq =>
      rw [eq] at cut closing
      cases parsed : Directive.ofBody (inner.takeWhile (· != ')')) with
      | error fault => simp [parsed, Except.map] at h
      | ok directive =>
        simp only [parsed, Except.map, Except.ok.injEq, Prod.mk.injEq] at h
        obtain ⟨rfl, rfl⟩ := h
        have c_eq : c = ')' := by simpa using closing
        subst c_eq
        simp only [Piece.ofDirective, List.cons_append, List.append_assoc, List.nil_append]
        rw [cut]
  · split at h <;> simp at h

/-- What follows a piece is shorter than the text the piece was cut off. -/
theorem length_lt_of_pieceAfterDollar {text rest : List Char} {piece : Piece}
    (h : pieceAfterDollar text = .ok (piece, rest)) : rest.length < text.length + 1 := by
  unfold pieceAfterDollar at h
  split at h
  · simp at h
  · simp only [Except.ok.injEq, Prod.mk.injEq] at h
    obtain ⟨-, rfl⟩ := h
    simp only [List.length_cons]
    omega
  · next inner =>
    have short := (List.dropWhile_suffix (l := inner) (· != ')')).length_le
    split at h
    · simp at h
    · next c behind eq =>
      rw [eq] at short
      cases parsed : Directive.ofBody (inner.takeWhile (· != ')')) with
      | error fault => simp [parsed, Except.map] at h
      | ok directive =>
        simp only [parsed, Except.map, Except.ok.injEq, Prod.mk.injEq] at h
        obtain ⟨-, rfl⟩ := h
        simp only [List.length_cons] at short ⊢
        omega
  · split at h <;> simp at h

/-! ## The whole template -/

/-- What was read of a template. -/
structure Reading where
  /-- The pieces, in order. -/
  pieces : List Piece
  /-- The fault that ended the reading before the end of the template. -/
  fault? : Option Fault
deriving DecidableEq, Repr

namespace Reading

/-- A reading with one more piece in front. -/
def cons (piece : Piece) (reading : Reading) : Reading :=
  { reading with pieces := piece :: reading.pieces }

@[simp] theorem pieces_cons (piece : Piece) (reading : Reading) :
    (cons piece reading).pieces = piece :: reading.pieces := rfl

@[simp] theorem fault?_cons (piece : Piece) (reading : Reading) :
    (cons piece reading).fault? = reading.fault? := rfl

/-- The reading of a template given by its characters. -/
def ofChars : List Char → Reading
  | [] => ⟨[], none⟩
  | c :: rest =>
    if c = '$' then
      match _read : pieceAfterDollar rest with
      | .error fault => ⟨[], some fault⟩
      | .ok (piece, behind) => cons piece (ofChars behind)
    else
      cons (.plain (c :: rest.takeWhile (· != '$'))) (ofChars (rest.dropWhile (· != '$')))
termination_by text => text.length
decreasing_by
  · exact length_lt_of_pieceAfterDollar _read
  · exact Nat.lt_succ_of_le (List.dropWhile_suffix _).length_le

@[simp] theorem ofChars_nil : ofChars [] = ⟨[], none⟩ := by
  rw [ofChars]

/-- A template that starts with a dollar sign starts with a piece or a fault. -/
theorem ofChars_dollar (rest : List Char) :
    ofChars ('$' :: rest) = match pieceAfterDollar rest with
      | .error fault => ⟨[], some fault⟩
      | .ok (piece, behind) => cons piece (ofChars behind) := by
  rw [ofChars, if_pos rfl]
  split <;> simp_all

/-- A template that starts with another character starts with the text up to the first dollar
sign. -/
theorem ofChars_plain {c : Char} (h : c ≠ '$') (rest : List Char) :
    ofChars (c :: rest) =
      cons (.plain (c :: rest.takeWhile (· != '$'))) (ofChars (rest.dropWhile (· != '$'))) := by
  rw [ofChars, if_neg h]

/-- The reading of a template. -/
def ofText (template : String) : Reading :=
  ofChars template.toList

/-- The characters of a template that were read. -/
def source (reading : Reading) : List Char :=
  reading.pieces.flatMap (·.source)

/-- The fault that ended the reading, with the byte offset of the character at fault. -/
def located? (reading : Reading) : Option (Nat × Fault) :=
  reading.fault?.map fun fault => (byteLength reading.source + fault.lead, fault)

end Reading

end RuleCommand
