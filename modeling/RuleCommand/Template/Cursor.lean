import RuleCommand.Text.Slice
import RuleCommand.Template.Token

set_option autoImplicit false

/-!
# Reading step by step

A cursor reads a template on demand. It keeps the byte offset behind what was read and whether a
fault was met, and hands out one item at a time: a lexeme in its place, or the fault, after which
there is nothing more. All text is taken from the template by slices between byte offsets.

## Main definitions

* `RuleCommand.Cursor` — the state of a reading.
* `RuleCommand.Cursor.Item` — what a cursor hands out.
* `RuleCommand.Cursor.next` — the next item, if there is one, and the state after it.
* `RuleCommand.Cursor.answers` — what a cursor answers when it is asked again and again.
* `RuleCommand.Reading.items` — the items of a reading that was made at once.
-/

namespace RuleCommand

/-- The state of a reading. -/
structure Cursor where
  /-- The template. -/
  text : List Char
  /-- The byte offset behind what was read. -/
  offset : Nat := 0
  /-- Whether a fault was met. -/
  failed : Bool := false
deriving DecidableEq, Repr

namespace Cursor

/-- What a cursor hands out. -/
inductive Item where
  /-- A lexeme in its range of bytes, met at an offset. -/
  | found (offset : Nat) (token : Token)
  /-- A fault at an offset. -/
  | fault (offset : Nat) (fault : Fault)
deriving DecidableEq, Repr

/-- A cursor before the first character of a template. -/
def ofText (template : String) : Cursor where
  text := template.toList

/-! ## One lexeme -/

/-- The run of plain text at a cursor: it ends before the next dollar sign, or with the template. -/
def readPlain (cursor : Cursor) : Except BadSlice (Token × Cursor) := do
  let start := cursor.offset
  let rest ← sliceFrom cursor.text start
  let stop := ((findByte? (· == '$') rest).map (start + ·)).getD (byteLength cursor.text)
  let run ← slice cursor.text start stop
  return (⟨start, stop, .literal (String.ofList run)⟩, { cursor with offset := stop })

/-- The directive that a text without blanks at its ends writes. -/
def readDirective (text : List Char) : Except BadSlice (Except Fault Directive) := do
  match findByte? isBlank text with
  | none => return Directive.ofWord (String.ofList text)
  | some index =>
    let word ← slice text 0 index
    let label ← sliceFrom text index
    return .ok (Directive.ofPhrase (String.ofList word) (String.ofList (trim label))
      (String.ofList text))

/-- What the dollar sign at a cursor starts. A directive that lacks its label has been passed when
the fault is found. -/
def readDollar (cursor : Cursor) : Except BadSlice (Except (Nat × Fault) Token × Cursor) := do
  let start := cursor.offset
  let rest ← sliceFrom cursor.text (start + 1)
  match rest with
  | [] => return (.error (start, .unexpectedEnd), cursor)
  | '$' :: _ => return (.ok ⟨start, start + 2, .escape⟩, { cursor with offset := start + 2 })
  | '(' :: _ =>
    match findByte? (· == ')') rest with
    | none => return (.error (start, .missingParen), cursor)
    | some index =>
      let close := start + 1 + index
      let body ← slice cursor.text (start + 2) close
      if trim body = [] then return (.error (start, .emptyDirective), cursor)
      else
        let moved := { cursor with offset := close + 1 }
        match ← readDirective (trim body) with
        | .ok directive => return (.ok ⟨start, moved.offset, .directive directive⟩, moved)
        | .error fault => return (.error (start, fault), moved)
  | c :: _ =>
    if isBlank c then return (.error (start + 1, .unexpectedCharacter c), cursor)
    else
      match findByte? isBlank rest with
      | none => return (.error (start, .missingOpenParen (String.ofList rest)), cursor)
      | some index =>
        let name ← slice rest 0 index
        return (.error (start, .missingOpenParen (String.ofList name)), cursor)

/-! ## One item -/

/-- The next item, if there is one, and the state after it. -/
def next (cursor : Cursor) : Except BadSlice (Option Item × Cursor) := do
  if cursor.failed || byteLength cursor.text ≤ cursor.offset then return (none, cursor)
  else
    let rest ← sliceFrom cursor.text cursor.offset
    if rest.head? = some '$' then
      match ← cursor.readDollar with
      | (.ok token, after) => return (some (.found cursor.offset token), after)
      | (.error (offset, fault), after) =>
        return (some (.fault offset fault), { after with failed := true })
    else
      let (token, after) ← cursor.readPlain
      return (some (.found cursor.offset token), after)

/-- The first answers of a cursor that is asked for items again and again. -/
def answers : Nat → Cursor → Except BadSlice (List (Option Item))
  | 0, _ => return []
  | count + 1, cursor => do
    let (answer, after) ← cursor.next
    let others ← answers count after
    return answer :: others

end Cursor

/-- The items of a reading: one for each lexeme, and a last one for the fault, if any. -/
def Reading.items (reading : Reading) : List Cursor.Item :=
  reading.tokens.map (fun token => .found token.start token) ++
    (reading.located?.map fun located => .fault located.1 located.2).toList

end RuleCommand
