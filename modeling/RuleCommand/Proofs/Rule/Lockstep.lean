import RuleCommand.Template.Token
import RuleCommand.Proofs.Rule.Concatenation
import RuleCommand.Proofs.Template.CursorRun

set_option autoImplicit false

/-!
# Listing and expanding in lockstep

A cursor is asked for items by two loops. Listing prints a line for each item, until there is none
or a fault was met. Expanding puts a value in the place of each lexeme, and ends at the first
directive without one, so it may never come to a fault that a listing shows. As long as both loops
go on they are handed the same items: an expansion that ends at a fault was handed the fault with
which the listing ends, and one that comes to the end of the template was handed none.

## Main definitions

* `RuleCommand.ListingLine.ofItem` — the line for an item.
* `RuleCommand.Cursor.Lists` — the lines that the first loop prints.
* `RuleCommand.Cursor.Expands` — what the second loop ends with.

## Main results

* `RuleCommand.Cursor.lists_iff`, `RuleCommand.Cursor.expands_iff` — the loops print and end with
  what is computed from the reading that is made at once.
* `RuleCommand.Cursor.Expands.lockstep` — the loops agree on faults.
-/

namespace RuleCommand

/-- The line for an item. -/
def ListingLine.ofItem : Cursor.Item → ListingLine
  | .found offset token => .lexeme offset token.lexeme
  | .fault offset met => .fault offset met

/-- The lines of a listing are those for the items of the reading. -/
lemma Reading.map_ofItem_items (reading : Reading) :
    reading.items.map ListingLine.ofItem = reading.lines := by
  rw [items, lines, List.map_append, List.map_map, ← Option.toList_map, Option.map_map]
  rfl

/-- What a reading from a byte offset on adds to what was made of a template before. -/
def Reading.expandFrom (template : List Char) (deps : Dependencies) (vars : Variables) (start : Nat)
    (made : Expansion) (reading : Reading) : Except CompileError Expansion := do
  let text ← textOf deps vars reading.pieces
  match reading.fault? with
  | some fault => .error (.malformed ⟨fault, Position.ofByte template
      (start + (byteLength reading.source + fault.lead))⟩)
  | none => return {
      text := made.text ++ text
      usesDepfile := made.usesDepfile ||
        reading.pieces.any fun piece => piece.lexeme.hasKind .depfile }

namespace Reading

variable {template : List Char} {deps : Dependencies} {vars : Variables}

lemma expandFrom_nil (start : Nat) (made : Expansion) :
    expandFrom template deps vars start made ⟨[], none⟩ = .ok made := by
  simp [expandFrom, textOf, bind, Except.bind, pure, Except.pure, Except.map]

lemma expandFrom_cons (start : Nat) (made : Expansion) (piece : Piece) (reading : Reading) :
    (cons piece reading).expandFrom template deps vars start made = (do
      let text ← piece.lexeme.value deps vars
      reading.expandFrom template deps vars (start + piece.size)
        ⟨made.text ++ text, made.usesDepfile || piece.lexeme.hasKind .depfile⟩) := by
  rw [expandFrom, pieces_cons, textOf_cons]
  cases piece.lexeme.value deps vars with
  | error error => rfl
  | ok text =>
    simp only [bind, Except.bind, expandFrom]
    cases textOf deps vars reading.pieces with
    | error error => rfl
    | ok others =>
      simp [pure, Except.pure, source, Piece.size, Nat.add_assoc, String.append_assoc,
        Bool.or_assoc]

/-- A template expands to what its reading adds to nothing. -/
lemma expandFrom_zero {text : String} :
    (ofText text).expandFrom text.toList deps vars 0 ⟨"", false⟩ = expand text deps vars := by
  rw [expand_eq, expandFrom, SyntaxError.ofReading?, located?]
  cases textOf deps vars (ofText text).pieces with
  | error error => rfl
  | ok others =>
    cases (ofText text).fault? with
    | none => simp [bind, Except.bind, pure, Except.pure]
    | some fault => simp [bind, Except.bind]

end Reading

namespace Cursor

/-! ## The two loops -/

/-- The lines that are printed for the items of a cursor. A fault is printed last. -/
inductive Lists : Cursor → List ListingLine → Prop
  /-- There are no more items. -/
  | done {cursor after : Cursor} : cursor.next = .ok (none, after) → Lists cursor []
  /-- A lexeme has its line before those of what follows. -/
  | lexeme {cursor after : Cursor} {offset : Nat} {token : Token} {lines : List ListingLine} :
      cursor.next = .ok (some (.found offset token), after) → Lists after lines →
        Lists cursor (.lexeme offset token.lexeme :: lines)
  /-- A fault has the last line. -/
  | fault {cursor after : Cursor} {offset : Nat} {fault : Fault} :
      cursor.next = .ok (some (.fault offset fault), after) → Lists cursor [.fault offset fault]

/-- What is made of the items of a cursor over a template, behind the text that was made before: an
expansion, or the first error. -/
inductive Expands (template : List Char) (deps : Dependencies) (vars : Variables) :
    Cursor → Expansion → Except CompileError Expansion → Prop
  /-- There are no more items. -/
  | done {cursor after : Cursor} {made : Expansion} :
      cursor.next = .ok (none, after) → Expands template deps vars cursor made (.ok made)
  /-- A lexeme has a value, which is put behind what was made. -/
  | lexeme {cursor after : Cursor} {made : Expansion} {offset : Nat} {token : Token} {text : String}
      {result : Except CompileError Expansion} :
      cursor.next = .ok (some (.found offset token), after) →
        token.lexeme.value deps vars = .ok text →
          Expands template deps vars after
            ⟨made.text ++ text, made.usesDepfile || token.lexeme.hasKind .depfile⟩ result →
            Expands template deps vars cursor made result
  /-- A lexeme has no value. What follows is not looked at. -/
  | lacksValue {cursor after : Cursor} {made : Expansion} {offset : Nat} {token : Token}
      {error : CompileError} :
      cursor.next = .ok (some (.found offset token), after) →
        token.lexeme.value deps vars = .error error →
          Expands template deps vars cursor made (.error error)
  /-- A fault was met. -/
  | fault {cursor after : Cursor} {made : Expansion} {offset : Nat} {fault : Fault} :
      cursor.next = .ok (some (.fault offset fault), after) →
        Expands template deps vars cursor made
          (.error (.malformed ⟨fault, Position.ofByte template offset⟩))

variable {template : List Char} {deps : Dependencies} {vars : Variables} {cursor : Cursor}
  {made : Expansion} {result : Except CompileError Expansion} {lines : List ListingLine}

/-! ## What the loops compute -/

namespace Lists

variable {after : Cursor} {offset : Nat}

/-- Nothing is listed if there are no more items. -/
lemma eq_nil (h : Lists cursor lines) (hnext : cursor.next = .ok (none, after)) : lines = [] := by
  cases h with
  | done _ => rfl
  | lexeme hagain _ | fault hagain => simp [hnext] at hagain

/-- A lexeme that is handed out is listed, and what follows goes on from there. -/
lemma exists_eq_cons {token : Token} (h : Lists cursor lines)
    (hnext : cursor.next = .ok (some (.found offset token), after)) :
    ∃ others, lines = .lexeme offset token.lexeme :: others ∧ Lists after others := by
  cases h with
  | done hagain | fault hagain => simp [hnext] at hagain
  | lexeme hagain htail =>
    rw [hnext] at hagain
    cases hagain
    exact ⟨_, rfl, htail⟩

/-- A fault that is handed out is listed, and nothing else. -/
lemma eq_singleton {fault : Fault} (h : Lists cursor lines)
    (hnext : cursor.next = .ok (some (.fault offset fault), after)) :
    lines = [.fault offset fault] := by
  cases h with
  | done hagain | lexeme hagain _ => simp [hnext] at hagain
  | fault hagain =>
    rw [hnext] at hagain
    cases hagain
    rfl

/-- A cursor has one listing. -/
lemma unique {others : List ListingLine} (h : Lists cursor lines) (hothers : Lists cursor others) :
    lines = others := by
  induction h generalizing others with
  | done hnext => exact (hothers.eq_nil hnext).symm
  | lexeme hnext _ ih =>
    obtain ⟨more, rfl, hmore⟩ := hothers.exists_eq_cons hnext
    rw [ih hmore]
  | fault hnext => exact (hothers.eq_singleton hnext).symm

end Lists

/-- A cursor behind what was read lists the items of the reading of the rest.

**Proof sketch.** Induction on the derivation of the reading, with one step of the loop for each of
its steps. -/
lemma lists_between {rest : List Char} {reading : Reading} (h : Reads rest reading)
    (before : List Char) :
    Lists (between before rest)
      ((reading.itemsFrom (byteLength before)).map ListingLine.ofItem) := by
  induction h generalizing before with
  | done => exact .done (next_end before)
  | fault herror =>
    obtain ⟨after, -, -, -, hnext⟩ := next_fault before herror
    simpa [Reading.itemsFrom, tokensFrom, Reading.source, ListingLine.ofItem] using
      Lists.fault hnext
  | @piece piece rest reading written hrest _ ih =>
    have htail := ih (before ++ piece.source)
    rw [byteLength_append] at htail
    rw [Reading.itemsFrom_cons, List.map_cons]
    exact .lexeme (next_piece before written hrest) htail

/-- **The listing that is made item by item** is that of the reading that is made at once. -/
theorem lists_iff {text : String} :
    Lists (ofText text) lines ↔ lines = (Reading.ofText text).lines := by
  have hlists := lists_between (reads_ofText text) []
  rw [byteLength_nil, Reading.itemsFrom_zero, Reading.map_ofItem_items, ← ofText_eq_between]
    at hlists
  constructor
  · exact fun h => h.unique hlists
  · rintro rfl
    exact hlists

/-- Where a lexeme is handed out, its value tells how the expansion goes on. -/
lemma Expands.of_found {after : Cursor} {offset : Nat} {token : Token}
    (h : Expands template deps vars cursor made result)
    (hnext : cursor.next = .ok (some (.found offset token), after)) :
    match token.lexeme.value deps vars with
    | .ok text => Expands template deps vars after
        ⟨made.text ++ text, made.usesDepfile || token.lexeme.hasKind .depfile⟩ result
    | .error error => result = .error error := by
  cases h with
  | done hagain | fault hagain => simp [hnext] at hagain
  | lexeme hagain hvalue htail =>
    rw [hnext] at hagain
    cases hagain
    rw [hvalue]
    exact htail
  | lacksValue hagain hvalue =>
    rw [hnext] at hagain
    cases hagain
    rw [hvalue]

/-- A cursor ends an expansion in one way. -/
lemma Expands.unique {other : Except CompileError Expansion}
    (h : Expands template deps vars cursor made result)
    (hother : Expands template deps vars cursor made other) : result = other := by
  induction h generalizing other with
  | done hnext =>
    cases hother with
    | done _ => rfl
    | lexeme hagain _ _ | lacksValue hagain _ | fault hagain => simp [hnext] at hagain
  | lexeme hnext hvalue _ ih =>
    have hstep := hother.of_found hnext
    rw [hvalue] at hstep
    exact ih hstep
  | lacksValue hnext hvalue =>
    have hstep := hother.of_found hnext
    rw [hvalue] at hstep
    exact hstep.symm
  | fault hnext =>
    cases hother with
    | done hagain | lexeme hagain _ _ | lacksValue hagain _ => simp [hnext] at hagain
    | fault hagain =>
      rw [hnext] at hagain
      cases hagain
      rfl

/-- A cursor behind what was read ends an expansion with what the reading of the rest adds to it.

**Proof sketch.** Induction on the derivation of the reading, with one step of the loop for each of
its steps. -/
lemma expands_between {rest : List Char} {reading : Reading} (h : Reads rest reading)
    (before : List Char) (made : Expansion) :
    Expands template deps vars (between before rest) made
      (reading.expandFrom template deps vars (byteLength before) made) := by
  induction h generalizing before made with
  | done =>
    rw [Reading.expandFrom_nil]
    exact .done (next_end before)
  | @fault rest fault herror =>
    obtain ⟨after, -, -, -, hnext⟩ := next_fault before herror
    have hlead : byteLength before + fault.lead =
        byteLength before + (byteLength (Reading.mk [] (some fault)).source + fault.lead) := by
      simp [Reading.source]
    rw [hlead] at hnext
    exact .fault hnext
  | @piece piece rest reading written hrest _ ih =>
    have hnext := next_piece before written hrest
    rw [Reading.expandFrom_cons]
    cases hvalue : piece.lexeme.value deps vars with
    | error error => exact .lacksValue hnext hvalue
    | ok text =>
      have htail := ih (before ++ piece.source)
        ⟨made.text ++ text, made.usesDepfile || piece.lexeme.hasKind .depfile⟩
      rw [byteLength_append] at htail
      exact .lexeme hnext hvalue htail

/-- **The expansion that is made item by item** is the one that is made of the reading. -/
theorem expands_iff {text : String} :
    Expands text.toList deps vars (ofText text) ⟨"", false⟩ result ↔
      result = expand text deps vars := by
  have hexpands : Expands text.toList deps vars _ ⟨"", false⟩ _ :=
    expands_between (reads_ofText text) [] _
  rw [byteLength_nil, Reading.expandFrom_zero, ← ofText_eq_between] at hexpands
  constructor
  · exact fun h => h.unique hexpands
  · rintro rfl
    exact hexpands

/-! ## Agreement -/

/-- **The loops agree on faults.** An expansion that ends at a fault was handed the one with which
the listing ends, and one that comes to the end of the template was handed none.

**Proof sketch.** Induction on the run of the expansion. The listing is handed the same items, as
long as both go on. -/
theorem Expands.lockstep (hexpands : Expands template deps vars cursor made result)
    (hlists : Lists cursor lines) :
    (∀ error, result = .error (.malformed error) → ∃ offset,
      lines.getLast? = some (.fault offset error.fault) ∧
        error.position = Position.ofByte template offset) ∧
    ∀ expansion, result = .ok expansion → ∀ offset fault, .fault offset fault ∉ lines := by
  induction hexpands generalizing lines with
  | done hnext =>
    obtain rfl := hlists.eq_nil hnext
    simp
  | lexeme hnext _ _ ih =>
    obtain ⟨others, rfl, hothers⟩ := hlists.exists_eq_cons hnext
    obtain ⟨hmalformed, hok⟩ := ih hothers
    constructor
    · intro error herror
      obtain ⟨offset, hlast, hposition⟩ := hmalformed error herror
      exact ⟨offset, by rw [List.getLast?_cons, hlast]; rfl, hposition⟩
    · intro expansion hexpansion offset fault
      simpa using hok expansion hexpansion offset fault
  | lacksValue _ hvalue =>
    -- The listing may go on here, but the error is none of a fault.
    refine ⟨fun error herror => ?_, by simp⟩
    cases herror
    obtain ⟨d, -, hd⟩ := exists_of_value_eq_error hvalue
    exact absurd rfl (kind_ne_of_value_eq_error hd)
  | fault hnext =>
    obtain rfl := hlists.eq_singleton hnext
    refine ⟨fun error herror => ?_, by simp⟩
    cases herror
    exact ⟨_, rfl, rfl⟩

end Cursor

end RuleCommand
