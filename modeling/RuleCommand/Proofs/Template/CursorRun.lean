import RuleCommand.Template.Cursor
import RuleCommand.Proofs.Template.Derivation
import RuleCommand.Proofs.Template.DirectiveBody

set_option autoImplicit false

/-!
# The run of a cursor

A cursor that stands behind what it has read takes no bad slice, and each step follows the
derivation of the reading of the rest: a piece moves it behind the source of the piece, a fault
stops it for good, and at the end it stays where it is. So a cursor that is asked again and again
hands out the items of the reading that is made at once, and nothing after them.

## Main definitions

* `RuleCommand.Cursor.between` — the cursor between two parts of a template.
* `RuleCommand.Reading.itemsFrom` — the items of the reading of the rest of a template.

## Main results

* `RuleCommand.Cursor.next_piece`, `RuleCommand.Cursor.next_fault`,
  `RuleCommand.Cursor.next_end` — the step of a cursor, one for each way to start.
* `RuleCommand.Cursor.next_directive_iff` — which directive the step hands out for a body in
  parentheses.
* `RuleCommand.Cursor.answers_ofText` — the run of a cursor.
-/

namespace RuleCommand

/-! ## Searching and slicing -/

/-- The first occurrence of a character lies behind the run of other characters. -/
lemma findByte?_run {c : Char} {run : List Char} (hrun : c ∉ run) (rest : List Char)
    (hrest : ∀ d ∈ rest.head?, d = c) :
    findByte? (· == c) (run ++ rest) = if rest = [] then none else some (byteLength run) := by
  obtain ⟨htake, hdrop⟩ := takeWhile_ne_append hrun rest hrest
  rw [findByte?_eq]
  change (if (run ++ rest).dropWhile (· != c) = [] then none
    else some (byteLength ((run ++ rest).takeWhile (· != c)))) = _
  rw [htake, hdrop]

/-- The run of other characters in the rest of a text ends at the first occurrence of a character,
or with the text. -/
lemma findByte?_run_getD {c : Char} {run : List Char} (hrun : c ∉ run) (before rest : List Char)
    (hrest : ∀ d ∈ rest.head?, d = c) :
    ((findByte? (· == c) (run ++ rest)).map (byteLength before + ·)).getD
      (byteLength (before ++ (run ++ rest))) = byteLength before + byteLength run := by
  rw [findByte?_run hrun rest hrest]
  by_cases hend : rest = []
  · simp [hend]
  · simp [hend]

/-- The first blank lies behind the first word. -/
lemma findByte?_isBlank (text : List Char) :
    findByte? isBlank text =
      if afterWord text = [] then none else some (byteLength (firstWord text)) :=
  findByte?_eq isBlank text

/-- A first part is the slice up to its length. -/
lemma slice_zero_append (part after : List Char) :
    slice (part ++ after) 0 (byteLength part) = .ok part := by
  simpa using slice_append [] part after

namespace Cursor

/-- The cursor between two parts of a template, the first of which was read. -/
def between (before rest : List Char) : Cursor where
  text := before ++ rest
  offset := byteLength before

variable (before : List Char)

@[simp] lemma text_between (rest : List Char) : (between before rest).text = before ++ rest := rfl

@[simp] lemma offset_between (rest : List Char) :
    (between before rest).offset = byteLength before := rfl

@[simp] lemma failed_between (rest : List Char) : (between before rest).failed = false := rfl

lemma ofText_eq_between (template : String) : ofText template = between [] template.toList := rfl

/-! ## One lexeme -/

/-- A trimmed body is read as its directive, without a bad slice. -/
lemma readDirective_trim {body : List Char} (h : trim body ≠ []) :
    readDirective (trim body) = .ok (Directive.ofBody body) := by
  have happ := firstWord_append_afterWord (trim body)
  have hword : slice (trim body) 0 (byteLength (firstWord (trim body))) =
      .ok (firstWord (trim body)) := by
    have hslice := slice_zero_append (firstWord (trim body)) (afterWord (trim body))
    rwa [happ] at hslice
  have hlabel : sliceFrom (trim body) (byteLength (firstWord (trim body))) =
      .ok (afterWord (trim body)) := by
    have hslice := sliceFrom_append (firstWord (trim body)) (afterWord (trim body))
    rwa [happ] at hslice
  rw [readDirective, findByte?_isBlank]
  by_cases hphrase : afterWord (trim body) = []
  · have hsame : firstWord (trim body) = trim body := by rwa [hphrase, List.append_nil] at happ
    simp [Directive.ofBody, h, hphrase, hsame, pure, Except.pure]
  · simp [Directive.ofBody, h, hphrase, hword, hlabel, bind, Except.bind, pure, Except.pure]

/-- Plain text is read up to the next dollar sign. -/
lemma readPlain_between {run rest : List Char} (hrun : '$' ∉ run)
    (hrest : ∀ c ∈ rest.head?, c = '$') :
    (between before (run ++ rest)).readPlain =
      .ok (⟨byteLength before, byteLength before + byteLength run, .literal (String.ofList run)⟩,
        { between before (run ++ rest) with offset := byteLength before + byteLength run }) := by
  have hstop := findByte?_run_getD hrun before rest hrest
  simp only [readPlain, text_between, offset_between, sliceFrom_append, bind, Except.bind]
  rw [hstop, slice_append]
  rfl

/-- The text behind a dollar sign is the slice from there on. -/
lemma sliceFrom_dollar (text : List Char) :
    sliceFrom (before ++ '$' :: text) (byteLength before + 1) = .ok text := by
  have hslice := sliceFrom_append (before ++ ['$']) text
  rwa [List.append_assoc, byteLength_append] at hslice

/-- The body of a directive is the slice between its parentheses. -/
lemma slice_body (body rest : List Char) :
    slice (before ++ '$' :: '(' :: (body ++ ')' :: rest)) (byteLength before + 2)
      (byteLength before + 1 + (1 + byteLength body)) = .ok body := by
  have hslice := slice_append (before ++ ['$', '(']) body (')' :: rest)
  have hstart : byteLength (before ++ ['$', '(']) = byteLength before + 2 := by
    rw [byteLength_append]
    rfl
  have hstop : byteLength before + 1 + (1 + byteLength body) =
      byteLength before + 2 + byteLength body := by omega
  rw [List.append_assoc, hstart] at hslice
  rwa [hstop]

/-- The closing parenthesis of a body ends at a boundary. -/
lemma isBoundary_behind (body rest : List Char) :
    IsBoundary (before ++ '$' :: '(' :: (body ++ ')' :: rest))
      (byteLength before + 1 + (1 + byteLength body) + 1) := by
  have hsize : byteLength ('$' :: '(' :: (body ++ [')'])) = byteLength body + 3 :=
    Piece.size_ofDirective body ⟨.inputs, none⟩
  refine ⟨before ++ '$' :: '(' :: (body ++ [')']), rest, by simp, ?_⟩
  rw [byteLength_append, hsize]
  omega

/-- A body in parentheses is read as the directive that it writes, if it writes one. If it writes
none, the cursor still stands at a boundary: in front of the dollar sign, or behind the body. -/
lemma readDollar_closed {body : List Char} (hbody : ')' ∉ body) (rest : List Char) :
    let cursor := between before ('$' :: '(' :: (body ++ ')' :: rest))
    match Directive.ofBody body with
    | .ok d => cursor.readDollar =
        .ok (.ok ⟨byteLength before, byteLength before + (Piece.ofDirective body d).size,
            .directive d⟩,
          { cursor with offset := byteLength before + (Piece.ofDirective body d).size })
    | .error fault => ∃ offset, IsBoundary cursor.text offset ∧
        cursor.readDollar = .ok (.error (byteLength before, fault), { cursor with offset }) := by
  have hclose : findByte? (· == ')') ('(' :: (body ++ ')' :: rest)) =
      some (1 + byteLength body) := by
    have hrun : ')' ∉ '(' :: body := by simp [hbody]
    have hfind := findByte?_run hrun (')' :: rest) (by simp)
    rwa [if_neg (List.cons_ne_nil _ _)] at hfind
  have hsize : ∀ d, byteLength before + 1 + (1 + byteLength body) + 1 =
      byteLength before + (Piece.ofDirective body d).size := by
    intro d
    rw [Piece.size_ofDirective]
    omega
  simp only [readDollar, text_between, offset_between, sliceFrom_dollar, bind, Except.bind]
  rw [hclose]
  simp only [slice_body]
  by_cases hempty : trim body = []
  · rw [if_pos hempty, Directive.ofBody_of_trim_eq_nil hempty]
    exact ⟨byteLength before, isBoundary_append _ _, rfl⟩
  · rw [if_neg hempty, readDirective_trim hempty]
    cases Directive.ofBody body with
    | ok d =>
      rw [hsize d]
      rfl
    | error fault => exact ⟨_, isBoundary_behind before body rest, rfl⟩

/-- A parenthesis that is never closed is a fault at its dollar sign. -/
lemma readDollar_unclosed {inner : List Char} (h : ')' ∉ inner) :
    (between before ('$' :: '(' :: inner)).readDollar =
      .ok (.error (byteLength before, .missingParen), between before ('$' :: '(' :: inner)) := by
  have hnone : findByte? (· == ')') ('(' :: inner) = none := by
    have hrun : ')' ∉ '(' :: inner := by simp [h]
    have hfind := findByte?_run hrun [] (by simp)
    rwa [List.append_nil, if_pos rfl] at hfind
  simp only [readDollar, text_between, offset_between, sliceFrom_dollar, bind, Except.bind]
  rw [hnone]
  rfl

/-- Any other character behind a dollar sign is a fault: a blank is shown itself, and the name that
it starts is shown at the dollar sign. -/
lemma readDollar_other {c : Char} (hdollar : c ≠ '$') (hparen : c ≠ '(') (rest : List Char) :
    (between before ('$' :: c :: rest)).readDollar =
      .ok (.error (if isBlank c then (byteLength before + 1, .unexpectedCharacter c)
          else (byteLength before, .missingOpenParen (String.ofList (firstWord (c :: rest))))),
        between before ('$' :: c :: rest)) := by
  simp only [readDollar, text_between, offset_between, sliceFrom_dollar, bind, Except.bind]
  by_cases hblank : isBlank c = true
  · rw [if_pos hblank, if_pos hblank]
    rfl
  · rw [if_neg hblank, if_neg hblank, findByte?_isBlank]
    have happ := firstWord_append_afterWord (c :: rest)
    by_cases hend : afterWord (c :: rest) = []
    · rw [if_pos hend, Directive.firstWord_eq_self hend]
      rfl
    · have hname := slice_zero_append (firstWord (c :: rest)) (afterWord (c :: rest))
      rw [happ] at hname
      simp only [if_neg hend, hname]
      rfl

/-- A piece that starts at a dollar sign is read as such, and the cursor moves behind it. -/
lemma readDollar_of_eq_ok {text rest : List Char} {piece : Piece}
    (h : pieceAfterDollar text = .ok (piece, rest)) :
    (between before ('$' :: text)).readDollar =
      .ok (.ok ⟨byteLength before, byteLength before + piece.size, piece.lexeme⟩,
        { between before ('$' :: text) with offset := byteLength before + piece.size }) := by
  cases afterDollar text with
  | nothing => simp [pieceAfterDollar_nil] at h
  | dollar behind =>
    cases h
    simp only [readDollar, text_between, offset_between, sliceFrom_dollar, bind, Except.bind]
    rfl
  | unclosed hinner => simp [pieceAfterDollar_unclosed hinner] at h
  | @closed body behind hbody =>
    rw [pieceAfterDollar_closed hbody] at h
    have hread := readDollar_closed before hbody behind
    cases parsed : Directive.ofBody body with
    | error fault => simp [parsed, Except.map] at h
    | ok d =>
      rw [parsed] at h hread
      cases h
      exact hread
  | other behind hdollar hparen =>
    rw [pieceAfterDollar_other hdollar hparen] at h
    split at h <;> simp at h

/-- A dollar sign with which no piece starts is a fault, which is shown at the dollar sign or, if a
blank follows, at the blank. The cursor stands at a boundary then. -/
lemma readDollar_of_eq_error {text : List Char} {fault : Fault}
    (h : pieceAfterDollar text = .error fault) :
    ∃ offset, IsBoundary (before ++ '$' :: text) offset ∧
      (between before ('$' :: text)).readDollar =
        .ok (.error (byteLength before + fault.lead, fault),
          { between before ('$' :: text) with offset }) := by
  have hstart := isBoundary_append before ('$' :: text)
  cases afterDollar text with
  | nothing =>
    cases h
    simp only [readDollar, text_between, offset_between, sliceFrom_dollar, bind, Except.bind]
    exact ⟨_, hstart, rfl⟩
  | dollar behind => simp [pieceAfterDollar_dollar] at h
  | unclosed hinner =>
    rw [pieceAfterDollar_unclosed hinner] at h
    cases h
    exact ⟨_, hstart, readDollar_unclosed before hinner⟩
  | @closed body behind hbody =>
    rw [pieceAfterDollar_closed hbody] at h
    have hread := readDollar_closed before hbody behind
    cases parsed : Directive.ofBody body with
    | error fault =>
      rw [parsed] at h hread
      cases h
      have hlead : fault.lead = 0 := by
        rcases Directive.ofBody_eq_error_iff.mp parsed with ⟨-, rfl⟩ | ⟨-, rfl⟩ <;> rfl
      rw [hlead]
      exact hread
    | ok d => simp [parsed, Except.map] at h
  | @other c behind hdollar hparen =>
    rw [pieceAfterDollar_other hdollar hparen] at h
    have hread := readDollar_other before hdollar hparen behind
    split at h
    · next hblank =>
      cases h
      rw [if_pos hblank] at hread
      exact ⟨_, hstart, hread⟩
    · next hblank =>
      cases h
      rw [if_neg hblank] at hread
      exact ⟨_, hstart, hread⟩

/-! ## One item -/

/-- A cursor that met a fault answers nothing. -/
lemma next_of_failed {cursor : Cursor} (h : cursor.failed = true) :
    cursor.next = .ok (none, cursor) := by
  rw [next, h]
  rfl

/-- A cursor at the end of the template answers nothing. -/
lemma next_end : (between before []).next = .ok (none, between before []) := by
  simp [next, pure, Except.pure]

/-- A cursor in front of a character looks at the text from there on. -/
lemma next_between {rest : List Char} (h : rest ≠ []) :
    (between before rest).next = (do
      if rest.head? = some '$' then
        match ← (between before rest).readDollar with
        | (.ok token, after) => return (some (.found (byteLength before) token), after)
        | (.error (offset, fault), after) =>
          return (some (.fault offset fault), { after with failed := true })
      else
        let (token, after) ← (between before rest).readPlain
        return (some (.found (byteLength before) token), after)) := by
  obtain ⟨c, rest, rfl⟩ := List.exists_cons_of_ne_nil h
  have hlt : ¬byteLength (before ++ c :: rest) ≤ byteLength before := by
    have := c.utf8Size_pos
    simp only [byteLength_append, byteLength_cons]
    omega
  simp only [next, text_between, offset_between, failed_between, hlt, sliceFrom_append, bind,
    Except.bind]
  rfl

/-- The cursor behind a piece stands where the piece has ended. -/
lemma move_between (piece : Piece) (rest : List Char) :
    { between before (piece.source ++ rest) with offset := byteLength before + piece.size } =
      between (before ++ piece.source) rest := by
  simp [between, Piece.size]

/-- The step at a piece: it is handed out in its place, and the cursor moves behind it. -/
theorem next_piece {piece : Piece} (written : piece.IsWritten) {rest : List Char}
    (hrest : piece.lexeme.isLiteral = true → ∀ c ∈ rest.head?, c = '$') :
    (between before (piece.source ++ rest)).next =
      .ok (some (.found (byteLength before)
          ⟨byteLength before, byteLength before + piece.size, piece.lexeme⟩),
        between (before ++ piece.source) rest) := by
  rw [← move_between]
  rcases written.eq_plain_or with ⟨run, nonempty, noDollar, rfl⟩ | ⟨notLiteral, hdollar⟩
  · have hhead : (run ++ rest).head? ≠ some '$' := by
      obtain ⟨c, run, rfl⟩ := List.exists_cons_of_ne_nil nonempty
      rw [List.mem_cons, not_or] at noDollar
      simpa using Ne.symm noDollar.1
    have hread := readPlain_between before noDollar (hrest rfl)
    rw [Piece.plain, next_between before (by simp [nonempty]), if_neg hhead, hread]
    rfl
  · obtain ⟨text, htext⟩ := hdollar rest
    have hread := readDollar_of_eq_ok before (pieceAfterDollar_eq_ok_iff.mpr
      ⟨written, notLiteral, htext⟩)
    rw [htext, next_between before (by simp), List.head?_cons, if_pos rfl, hread]
    rfl

/-- The step at a fault: it is handed out, and the cursor stops, at a boundary. -/
theorem next_fault {text : List Char} {fault : Fault} (h : pieceAfterDollar text = .error fault) :
    ∃ after : Cursor, after.failed = true ∧ after.text = before ++ '$' :: text ∧
      IsBoundary after.text after.offset ∧ (between before ('$' :: text)).next =
        .ok (some (.fault (byteLength before + fault.lead) fault), after) := by
  obtain ⟨offset, hboundary, hread⟩ := readDollar_of_eq_error before h
  rw [next_between before (by simp), List.head?_cons, if_pos rfl, hread]
  exact ⟨_, rfl, rfl, hboundary, rfl⟩

/-- A directive is handed out for a body in parentheses exactly if the body writes it, and then the
cursor moves behind the closing parenthesis. -/
lemma next_directive_iff {body : List Char} (hbody : ')' ∉ body) (rest : List Char)
    {d : Directive} :
    (between before ('$' :: '(' :: (body ++ ')' :: rest))).next =
        .ok (some (.found (byteLength before)
            ⟨byteLength before, byteLength before + (byteLength body + 3), .directive d⟩),
          between (before ++ '$' :: '(' :: (body ++ [')'])) rest) ↔
      Directive.ofBody body = .ok d := by
  cases parsed : Directive.ofBody body with
  | error fault =>
    have hread : pieceAfterDollar ('(' :: (body ++ ')' :: rest)) = .error fault := by
      rw [pieceAfterDollar_closed hbody, parsed, Except.map]
    obtain ⟨after, -, -, -, hnext⟩ := next_fault before hread
    rw [hnext]
    simp
  | ok found =>
    have hnext := @next_piece before _ (.directive hbody parsed) rest
      (by simp [Piece.ofDirective, Lexeme.isLiteral])
    rw [Piece.size_ofDirective] at hnext
    simp only [Piece.ofDirective, List.cons_append, List.append_assoc, List.nil_append] at hnext
    rw [hnext]
    simp

/-! ## All items -/

/-- A cursor that answers nothing and stays where it is answers nothing for ever. -/
lemma answers_of_stopped {cursor : Cursor} (h : cursor.next = .ok (none, cursor)) (count : Nat) :
    cursor.answers count = .ok (List.replicate count none) := by
  induction count with
  | zero => rfl
  | succ count ih =>
    rw [answers, h]
    simp only [bind, Except.bind]
    rw [ih]
    rfl

end Cursor

/-- The items of the reading of the rest of a template, from a byte offset on. -/
def Reading.itemsFrom (start : Nat) (reading : Reading) : List Cursor.Item :=
  (tokensFrom start reading.pieces).map (fun token => .found token.start token) ++
    (reading.fault?.map fun fault =>
      .fault (start + (byteLength reading.source + fault.lead)) fault).toList

lemma Reading.itemsFrom_zero (reading : Reading) : reading.itemsFrom 0 = reading.items := by
  simp [itemsFrom, items, tokens, located?, Option.map_map, Function.comp_def]

lemma Reading.itemsFrom_cons (start : Nat) (piece : Piece) (reading : Reading) :
    (cons piece reading).itemsFrom start =
      .found start ⟨start, start + piece.size, piece.lexeme⟩ ::
        reading.itemsFrom (start + piece.size) := by
  simp [itemsFrom, tokensFrom, source, Piece.size, Nat.add_assoc]

/-- The first answers are the first item and the answers after it. -/
lemma map_range_getElem?_cons {α : Type} (item : α) (items : List α) (count : Nat) :
    (List.range (count + 1)).map ((item :: items)[·]?) =
      some item :: (List.range count).map (items[·]?) := by
  simp [List.range_succ_eq_map, Function.comp_def]

/-- **The run of a cursor**: behind what was read it hands out the items of the reading of the
rest, one for each time that it is asked, and then nothing. No slice is bad.

**Proof sketch.** Induction on the derivation of the reading. At the end the cursor has stopped;
a fault is handed out by a step that stops it; a piece is handed out by a step behind which the
cursor stands in front of the rest. -/
theorem Cursor.answers_between {rest : List Char} {reading : Reading} (h : Reads rest reading)
    (before : List Char) (count : Nat) :
    (between before rest).answers count =
      .ok ((List.range count).map ((reading.itemsFrom (byteLength before))[·]?)) := by
  induction h generalizing before count with
  | done =>
    rw [answers_of_stopped (next_end before)]
    simp [Reading.itemsFrom, tokensFrom]
  | @fault text fault h =>
    cases count with
    | zero => rfl
    | succ count =>
      obtain ⟨after, hfailed, -, -, hnext⟩ := next_fault before h
      have hitems : Reading.itemsFrom (byteLength before) ⟨[], some fault⟩ =
          [.fault (byteLength before + fault.lead) fault] := by
        simp [Reading.itemsFrom, tokensFrom, Reading.source]
      rw [answers, hnext, hitems, map_range_getElem?_cons]
      simp only [bind, Except.bind]
      rw [answers_of_stopped (next_of_failed hfailed)]
      simp [pure, Except.pure]
  | @piece piece rest reading written hrest _ ih =>
    cases count with
    | zero => rfl
    | succ count =>
      rw [answers, next_piece before written hrest, Reading.itemsFrom_cons,
        map_range_getElem?_cons]
      simp only [bind, Except.bind]
      rw [ih, byteLength_append]
      rfl

/-- The items that a cursor hands out for a template are those of its reading. -/
theorem Cursor.answers_ofText (template : String) (count : Nat) :
    (ofText template).answers count =
      .ok ((List.range count).map ((Reading.ofText template).items[·]?)) := by
  rw [ofText_eq_between, answers_between (reads_ofText template), byteLength_nil,
    Reading.itemsFrom_zero]

end RuleCommand
