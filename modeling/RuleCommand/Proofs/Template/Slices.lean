import RuleCommand.Proofs.Template.Diagnostics

set_option autoImplicit false

/-!
# No slice is bad

All text that a cursor hands out is sliced from its template at byte offsets, and so is the line in
which a fault is shown. The offsets come from searches and from counting the bytes of dollar signs
and parentheses. A cursor always stands between two characters of its template, so each of its steps
slices at such places only; and a fault is always shown in front of a character, so its line and its
column can be told by slices as well.

## Main definitions

* `RuleCommand.Sliceable` — the bounds at which a text can be sliced.
* `RuleCommand.Cursor.Reachable` — the states of a cursor that is asked again and again.
* `RuleCommand.Cursor.StandsIn` — a cursor between two characters of a template.

## Main results

* `RuleCommand.exists_slice_eq_ok_iff` — a slice can be taken just if its bounds are in order.
* `RuleCommand.Position.locate_append` — a place between two parts of a text is told by slices.
* `RuleCommand.Cursor.StandsIn.next` — a step slices well, and leads to a state that does.
* `RuleCommand.no_slice_is_bad` — no slice is bad in any state that is reached.
-/

namespace RuleCommand

/-! ## Boundaries -/

/-- The boundaries of a text are the positions in its bytes at which a character starts, and its
end. -/
lemma isBoundary_iff_isValid {text : String} {offset : Nat} :
    IsBoundary text.toList offset ↔ String.Pos.Raw.IsValid text ⟨offset⟩ := by
  rw [String.Pos.Raw.isValid_iff_exists_append]
  constructor
  · rintro ⟨before, after, htext, rfl⟩
    refine ⟨String.ofList before, String.ofList after, ?_, ?_⟩
    · rw [← String.ofList_append, ← htext, String.ofList_toList]
    · have hsize := byteLength_toList (String.ofList before)
      rw [String.toList_ofList] at hsize
      rw [hsize]
      rfl
  · rintro ⟨before, after, rfl, hoffset⟩
    refine ⟨before.toList, after.toList, String.toList_append, ?_⟩
    rw [byteLength_toList]
    exact (congrArg String.Pos.Raw.byteIdx hoffset).symm

lemma IsBoundary.le {text : List Char} {offset : Nat} (h : IsBoundary text offset) :
    offset ≤ byteLength text := by
  obtain ⟨before, after, rfl, rfl⟩ := h
  rw [byteLength_append]
  omega

/-- The bounds at which a text can be sliced. -/
structure Sliceable (text : String) (start stop : Nat) : Prop where
  /-- They are in order. -/
  le : start ≤ stop
  /-- They are within the text. -/
  le_size : stop ≤ text.utf8ByteSize
  /-- No character is cut in two where the slice starts. -/
  start_isValid : String.Pos.Raw.IsValid text ⟨start⟩
  /-- No character is cut in two where it stops. -/
  stop_isValid : String.Pos.Raw.IsValid text ⟨stop⟩

/-- A text without characters has no bytes. -/
lemma eq_nil_of_byteLength_eq_zero {text : List Char} (h : byteLength text = 0) : text = [] := by
  cases text with
  | nil => rfl
  | cons c text =>
    have hpos := c.utf8Size_pos
    rw [byteLength_cons] at h
    omega

/-- **A slice can be taken** just if its bounds are in order, within the text, and cut no character
in two.

**Proof sketch.** The text is cut at both bounds. Of the two first parts the shorter one starts the
longer one, and the slice is what the longer one goes on with. -/
theorem exists_slice_eq_ok_iff {text : String} {start stop : Nat} :
    (∃ part, slice text.toList start stop = .ok part) ↔ Sliceable text start stop := by
  simp only [slice_eq_ok_iff]
  constructor
  · rintro ⟨part, before, after, htext, rfl, rfl⟩
    have hstop : IsBoundary text.toList (byteLength (before ++ part)) :=
      ⟨before ++ part, after, htext, rfl⟩
    have hstart : IsBoundary text.toList (byteLength before) :=
      ⟨before, part ++ after, by rw [htext, List.append_assoc], rfl⟩
    refine ⟨?_, ?_, isBoundary_iff_isValid.mp hstart, isBoundary_iff_isValid.mp hstop⟩
    · rw [byteLength_append]
      omega
    · rw [← byteLength_toList]
      exact hstop.le
  · rintro ⟨hle, -, hstart, hstop⟩
    obtain ⟨before, later, htext, rfl⟩ := isBoundary_iff_isValid.mpr hstart
    obtain ⟨upTo, after, htext', rfl⟩ := isBoundary_iff_isValid.mpr hstop
    have hsplit : before ++ later = upTo ++ after := htext.symm.trans htext'
    rcases List.append_eq_append_iff.mp hsplit with ⟨part, rfl, -⟩ | ⟨part, rfl, -⟩
    · exact ⟨part, before, after, htext', rfl, rfl⟩
    · rw [byteLength_append] at hle
      obtain rfl : part = [] := eq_nil_of_byteLength_eq_zero (by omega)
      exact ⟨[], upTo, after, by simpa using htext', by simp, by simp⟩

/-! ## Places -/

/-- The last line of a text starts behind the last line break, or with the text.

**Proof sketch.** The text is put together from its lines (`exists_earlier_lines`). If its last line
is not the only one, the line break of the line before it is the last. -/
lemma exists_eq_append_lastLine (text : List Char) :
    ∃ earlier, text = earlier ++ lastLine text ∧ earlier.count '\n' = text.count '\n' ∧
      ((findLastByte? (· == '\n') text).map (· + 1)).getD 0 = byteLength earlier := by
  have hlast : ∀ c ∈ lastLine text, ¬(c == '\n') = true := by
    intro c hc hnewline
    obtain rfl := eq_of_beq hnewline
    exact not_mem_lastLine text hc
  obtain ⟨earlier, -, -, htext⟩ := exists_earlier_lines text
  refine ⟨earlier.flatMap (· ++ ['\n']), htext, ?_, ?_⟩
  · have hcount := congrArg (List.count '\n') htext
    rw [List.count_append, List.count_eq_zero.mpr (not_mem_lastLine text)] at hcount
    exact hcount.symm
  · rcases List.eq_nil_or_concat earlier with rfl | ⟨others, line, rfl⟩
    · have hsame : text = lastLine text := htext
      rw [hsame, findLastByte?_eq_none hlast]
      rfl
    · have hlines : (others.concat line).flatMap (· ++ ['\n']) =
          others.flatMap (· ++ ['\n']) ++ line ++ ['\n'] := by
        simp
      have hbreak : text = others.flatMap (· ++ ['\n']) ++ line ++ '\n' :: lastLine text := by
        rwa [hlines, List.append_assoc] at htext
      have hfind := @findLastByte?_append_cons (· == '\n') '\n' _ rfl hlast
        (others.flatMap (· ++ ['\n']) ++ line)
      rw [← hbreak] at hfind
      rw [hfind, hlines, byteLength_append (_ ++ line)]
      rfl

/-- **A place between two parts of a text is told by slices.** -/
theorem Position.locate_append (before after : List Char) :
    locate (before ++ after) (byteLength before) = .ok (between before after) := by
  obtain ⟨earlier, hbefore, hcount, hstart⟩ := exists_eq_append_lastLine before
  have hmin : min (byteLength before) (byteLength (before ++ after)) = byteLength before := by
    rw [byteLength_append]
    omega
  have hline : after = firstLine after ++ after.dropWhile (· != '\n') :=
    List.takeWhile_append_dropWhile.symm
  have hstop := findByte?_run_getD (not_mem_firstLine after) before _
    (@eq_of_mem_head?_dropWhile_ne '\n' after)
  rw [← hline] at hstop
  have hread : slice (before ++ after) 0 (byteLength before) = .ok before :=
    slice_zero_append before after
  have hearlier : slice (before ++ after) 0 (byteLength earlier) = .ok earlier := by
    apply slice_eq_ok_iff.mpr
    exact ⟨[], lastLine before ++ after, by rw [List.nil_append, ← List.append_assoc, ← hbefore],
      rfl, rfl⟩
  have hindent : slice (before ++ after) (byteLength earlier) (byteLength before) =
      .ok (lastLine before) := by
    apply slice_eq_ok_iff.mpr
    exact ⟨earlier, after, by rw [← hbefore], rfl, by rw [← hbefore]⟩
  have hsource : slice (before ++ after) (byteLength earlier)
      (byteLength before + byteLength (firstLine after)) =
        .ok (lastLine before ++ firstLine after) := by
    apply slice_eq_ok_iff.mpr
    refine ⟨earlier, after.dropWhile (· != '\n'), ?_, rfl, ?_⟩
    · rw [← List.append_assoc, ← hbefore, List.append_assoc, ← hline]
    · rw [← List.append_assoc, ← hbefore, byteLength_append]
  simp only [locate, hmin, hread, sliceFrom_append, hstart, hstop, bind, Except.bind]
  rw [hearlier, hindent, hsource, between, ← hcount]
  rfl

/-! ## Steps -/

namespace Cursor

variable {template : String} {cursor : Cursor}

/-- The states of a cursor that is asked for the items of a template again and again. -/
inductive Reachable (template : String) : Cursor → Prop
  /-- It stands before the first character. -/
  | start : Reachable template (ofText template)
  /-- It was asked once more. -/
  | step {cursor after : Cursor} {answer : Option Item} :
      Reachable template cursor → cursor.next = .ok (answer, after) → Reachable template after

/-- A cursor between two characters of a template, or at an end of it. -/
structure StandsIn (template : String) (cursor : Cursor) : Prop where
  /-- The template is its text. -/
  text_eq : cursor.text = template.toList
  /-- It stands at a boundary. -/
  boundary : IsBoundary template.toList cursor.offset

lemma standsIn_between {before rest : List Char} (h : template.toList = before ++ rest) :
    (between before rest).StandsIn template :=
  ⟨h.symm, h ▸ isBoundary_append before rest⟩

/-- **A step of a cursor that stands in a template** takes no bad slice, and leaves it standing
there. A fault that it hands out is shown in front of a character.

**Proof sketch.** A cursor that met a fault does not move. Any other stands between what it has read
and a rest, of which the reading is derived: the step is told by the last step of the derivation. -/
theorem StandsIn.next (h : cursor.StandsIn template) :
    ∃ answer after, cursor.next = .ok (answer, after) ∧ after.StandsIn template ∧
      ∀ offset fault, answer = some (.fault offset fault) →
        ∃ before c rest, template.toList = before ++ c :: rest ∧ byteLength before = offset := by
  by_cases hfailed : cursor.failed = true
  · exact ⟨none, cursor, next_of_failed hfailed, h, by simp⟩
  obtain ⟨before, rest, htext, hoffset⟩ := h.boundary
  have hcursor : cursor = between before rest := by
    obtain ⟨text, offset, failed⟩ := cursor
    obtain rfl : text = template.toList := h.text_eq
    rw [between, ← htext, hoffset]
    simpa using hfailed
  rw [hcursor]
  obtain ⟨reading, hreads⟩ : ∃ reading, Reads rest reading := ⟨_, reads_ofChars rest⟩
  cases hreads with
  | done => exact ⟨none, between before [], next_end before, standsIn_between htext, by simp⟩
  | @fault rest fault herror =>
    obtain ⟨after, -, hafter, hboundary, hnext⟩ := next_fault before herror
    have hrejects : Rejects (byteLength before) rest (byteLength before + fault.lead) fault :=
      rejects_iff.mpr ⟨herror, rfl⟩
    obtain ⟨front, c, behind, hchar, hlength, -⟩ := hrejects.exists_char
    rw [← htext] at hafter hchar
    rw [hafter] at hboundary
    refine ⟨_, after, hnext, ⟨hafter, hboundary⟩, ?_⟩
    intro offset fault hitem
    cases hitem
    exact ⟨front, c, behind, hchar, hlength⟩
  | @piece piece rest _ written hrest _ =>
    have hmoved : template.toList = before ++ piece.source ++ rest := by
      rw [htext, List.append_assoc]
    exact ⟨_, _, next_piece before written hrest, standsIn_between hmoved, by simp⟩

/-- A cursor that is reached stands in the template. -/
lemma Reachable.standsIn (h : Reachable template cursor) : cursor.StandsIn template := by
  induction h with
  | start => exact ⟨rfl, [], template.toList, rfl, rfl⟩
  | step _ hnext ih =>
    obtain ⟨answer, after, hstep, hafter, -⟩ := ih.next
    rw [hnext] at hstep
    cases hstep
    exact hafter

end Cursor

/-! ## No bad slice -/

/-- **No slice is bad.** A slice of a text can be taken just if its bounds are in order, within the
text, and cut no character in two. In each state that a cursor of a template reaches it stands in
the template at a position where a character starts, or at the end, and no slice of its next step is
bad. If the step hands out a fault, this is shown at a byte of the template, behind which there is
more, and no slice is bad in which its place is told: that is the place that the error of the fault
shows, and there is a column left of which the number is one less.

**Proof sketch.** Each step leads from a boundary to a boundary (`Cursor.StandsIn.next`), so this
holds for each state that is reached. A fault is shown in front of a character, so the template is
two parts there, between which the place is told (`Position.locate_append`). -/
theorem no_slice_is_bad (template : String) :
    (∀ (text : String) start stop,
      (∃ part, slice text.toList start stop = .ok part) ↔ Sliceable text start stop) ∧
    ∀ cursor, Cursor.Reachable template cursor →
      cursor.text = template.toList ∧ String.Pos.Raw.IsValid template ⟨cursor.offset⟩ ∧
      (∃ answer after, cursor.next = .ok (answer, after)) ∧
      ∀ offset fault after, cursor.next = .ok (some (.fault offset fault), after) →
        offset < template.utf8ByteSize ∧ String.Pos.Raw.IsValid template ⟨offset⟩ ∧
        Position.locate template.toList offset = .ok (Position.ofByte template.toList offset) ∧
        1 ≤ (Position.ofByte template.toList offset).column := by
  refine ⟨fun _ _ _ => exists_slice_eq_ok_iff, fun cursor hreachable => ?_⟩
  have hstands := hreachable.standsIn
  obtain ⟨answer, after, hnext, -, hfault⟩ := hstands.next
  refine ⟨hstands.text_eq, isBoundary_iff_isValid.mp hstands.boundary, ⟨answer, after, hnext⟩, ?_⟩
  intro offset fault after' hitem
  rw [hnext] at hitem
  cases hitem
  obtain ⟨before, c, rest, htext, rfl⟩ := hfault offset fault rfl
  have hboundary : IsBoundary template.toList (byteLength before) := by
    rw [htext]
    exact isBoundary_append before (c :: rest)
  refine ⟨?_, isBoundary_iff_isValid.mp hboundary, ?_, ?_⟩
  · have hpos := c.utf8Size_pos
    rw [← byteLength_toList, htext, byteLength_append, byteLength_cons]
    omega
  · rw [htext, Position.locate_append, Position.ofByte_append]
  · rw [htext, Position.ofByte_append, Position.between]
    exact Nat.le_add_left _ _

/-- A directive without its label, with blanks of three bytes and of one in it, behind a character
of two bytes and a line break. The cursor has passed it when it stops. A slice that starts inside
the first character would be bad. -/
theorem no_slice_is_bad_of_wide_blanks :
    let template := "é\n$(\u3000locations )x"
    let cursor : Cursor := ⟨template.toList, 3, false⟩
    let stopped : Cursor := ⟨template.toList, 19, true⟩
    Cursor.Reachable template cursor ∧ Cursor.Reachable template stopped ∧
      cursor.next = .ok (some (.fault 3 .missingLabel), stopped) ∧
      String.Pos.Raw.IsValid template ⟨19⟩ ∧ 3 < template.utf8ByteSize ∧
      Position.locate template.toList 3 = .ok ⟨2, 1, "$(\u3000locations )x"⟩ ∧
      ¬Sliceable template 1 3 := by
  have hfirst : (Cursor.ofText "é\n$(\u3000locations )x").next =
      .ok (some (.found 0 ⟨0, 3, .literal "é\n"⟩),
        ⟨"é\n$(\u3000locations )x".toList, 3, false⟩) := rfl
  have hfault : (⟨"é\n$(\u3000locations )x".toList, 3, false⟩ : Cursor).next =
      .ok (some (.fault 3 .missingLabel),
        ⟨"é\n$(\u3000locations )x".toList, 19, true⟩) := rfl
  have hposition : Position.ofByte "é\n$(\u3000locations )x".toList 3 =
      ⟨2, 1, "$(\u3000locations )x"⟩ := rfl
  have hbad : slice "é\n$(\u3000locations )x".toList 1 3 = .error ⟨1, 3⟩ := rfl
  intro template cursor stopped
  have hcursor : Cursor.Reachable template cursor := .step .start hfirst
  have hstopped : Cursor.Reachable template stopped := .step hcursor hfault
  obtain ⟨hslice, hstates⟩ := no_slice_is_bad template
  obtain ⟨-, hvalid, -, -⟩ := hstates stopped hstopped
  obtain ⟨-, -, -, hplace⟩ := hstates cursor hcursor
  obtain ⟨hinside, -, hlocate, -⟩ := hplace 3 _ stopped hfault
  refine ⟨hcursor, hstopped, hfault, hvalid, hinside,
    hlocate.trans (congrArg Except.ok hposition), ?_⟩
  rw [← hslice, hbad]
  simp

end RuleCommand
