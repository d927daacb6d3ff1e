import Mathlib.Data.List.Induction
import RuleCommand.Proofs.Template.Concatenation
import RuleCommand.Proofs.Template.Faults
import RuleCommand.Proofs.Template.Tiling

set_option autoImplicit false

/-!
# Diagnostics

An error of a template is shown by a line, a column and the line itself, with a mark below the
character at fault. Line and column lead back to the byte at which the fault was met, whatever the
characters before it take, and what is shown takes just three lines: no message breaks a line, since
a misplaced line break is escaped in it, and a name ends before the first blank.

## Main definitions

* `RuleCommand.byteOf` — the byte offset of a column of a line.
* `RuleCommand.SyntaxError.PointsAt` — errors that point at a byte of a template.

## Main results

* `RuleCommand.Position.between_lines` — a place between two parts of a text, told by its lines.
* `RuleCommand.Rejects.newline_not_mem_message` — no message of a fault breaks a line.
* `RuleCommand.diagnostics_point_at_faults` — an error points at its fault, and is shown in three
  lines.
-/

namespace RuleCommand

/-! ## Lines -/

/-- The byte offset of a column of a line, both counted from one: the bytes of the lines before it,
with their line breaks, and of the characters before it in its line. -/
def byteOf (text : List Char) (line column : Nat) : Nat :=
  let lines := text.splitOn '\n'
  byteLength ((lines.take (line - 1)).flatMap (· ++ ['\n'])) +
    byteLength ((lines.getD (line - 1) []).take (column - 1))

lemma not_mem_lastLine (text : List Char) : '\n' ∉ lastLine text := by
  rw [lastLine, List.mem_reverse]
  exact not_mem_takeWhile_ne '\n' _

lemma not_mem_firstLine (text : List Char) : '\n' ∉ firstLine text :=
  not_mem_takeWhile_ne '\n' text

/-- A text is put together from the lines before its last one, each with its line break, and the
last line. -/
lemma exists_earlier_lines (text : List Char) :
    ∃ earlier : List (List Char), (∀ line ∈ earlier, '\n' ∉ line) ∧
      earlier.length = text.count '\n' ∧ text = earlier.flatMap (· ++ ['\n']) ++ lastLine text := by
  induction text using List.reverseRecOn with
  | nil => exact ⟨[], by simp, rfl, rfl⟩
  | append_singleton text c ih =>
    obtain ⟨earlier, hearlier, hcount, htext⟩ := ih
    by_cases hc : c = '\n'
    · subst hc
      have hlast : lastLine (text ++ ['\n']) = [] := lastLine_append_of_mem (by simp) text
      refine ⟨earlier ++ [lastLine text], ?_, by simp [hcount], ?_⟩
      · rw [List.forall_mem_append]
        exact ⟨hearlier, List.forall_mem_singleton.mpr (not_mem_lastLine text)⟩
      · rw [hlast, List.append_nil, List.flatMap_append, List.flatMap_singleton,
          ← List.append_assoc, ← htext]
    · have hsingle : '\n' ∉ [c] := by simpa using Ne.symm hc
      refine ⟨earlier, hearlier, by simp [hcount, List.count_eq_zero.mpr hsingle], ?_⟩
      rw [lastLine_append_of_not_mem hsingle, ← List.append_assoc, ← htext]

/-- Lines with their line breaks are split off what is behind them. -/
lemma splitOn_flatMap_append {earlier : List (List Char)} (h : ∀ line ∈ earlier, '\n' ∉ line)
    (rest : List Char) :
    (earlier.flatMap (· ++ ['\n']) ++ rest).splitOn '\n' = earlier ++ rest.splitOn '\n' := by
  induction earlier with
  | nil => rfl
  | cons line earlier ih =>
    rw [List.forall_mem_cons] at h
    rw [List.flatMap_cons, List.append_assoc, List.append_assoc, List.singleton_append,
      List.splitOn_append_cons_self, List.splitOn_eq_singleton h.1, ih h.2]
    rfl

/-- The first line of a text goes on with the first line of what is behind a part of it. -/
lemma exists_splitOn_append {line : List Char} (h : '\n' ∉ line) (rest : List Char) :
    ∃ later, (line ++ rest).splitOn '\n' = (line ++ firstLine rest) :: later := by
  have hfirst : '\n' ∉ line ++ firstLine rest := by simp [h, not_mem_firstLine]
  have hsplit : line ++ rest = line ++ firstLine rest ++ rest.dropWhile (· != '\n') := by
    rw [List.append_assoc, firstLine, List.takeWhile_append_dropWhile]
  rw [hsplit]
  cases hdrop : rest.dropWhile (· != '\n') with
  | nil => exact ⟨[], by rw [List.append_nil, List.splitOn_eq_singleton hfirst]⟩
  | cons c later =>
    obtain rfl : c = '\n' := eq_of_mem_head?_dropWhile_ne c (by rw [hdrop, List.head?_cons]; rfl)
    refine ⟨later.splitOn '\n', ?_⟩
    rw [List.splitOn_append_cons_self, List.splitOn_eq_singleton hfirst]
    rfl

/-- **A place between two parts of a text** stands in the line with its number, and its line and
column lead back to the length of the first part.

**Proof sketch.** The first part is put together from its lines (`exists_earlier_lines`), of which
the last goes on behind the place. -/
theorem Position.between_lines (before after : List Char) :
    let position := between before after
    ((before ++ after).splitOn '\n')[position.line - 1]? = some position.lineText.toList ∧
      byteOf (before ++ after) position.line position.column = byteLength before := by
  obtain ⟨earlier, hearlier, hcount, hbefore⟩ := exists_earlier_lines before
  obtain ⟨later, hlater⟩ := exists_splitOn_append (not_mem_lastLine before) after
  have hlines : (before ++ after).splitOn '\n' =
      earlier ++ (lastLine before ++ firstLine after) :: later := by
    rw [← hlater, ← splitOn_flatMap_append hearlier, ← List.append_assoc, ← hbefore]
  have hline : before.count '\n' + 1 - 1 = earlier.length := by omega
  have hget : (earlier ++ (lastLine before ++ firstLine after) :: later)[earlier.length]? =
      some (lastLine before ++ firstLine after) := by simp
  have hcolumn : (lastLine before ++ firstLine after).take ((lastLine before).length + 1 - 1) =
      lastLine before := by
    rw [Nat.add_sub_cancel, List.take_left]
  simp only [between, byteOf, hlines, hline, String.toList_ofList]
  refine ⟨hget, ?_⟩
  rw [List.take_left, List.getD_eq_getElem?_getD, hget, Option.getD_some, hcolumn,
    ← byteLength_append, ← hbefore]

/-! ## Messages -/

lemma newline_not_mem_toString (n : Nat) : '\n' ∉ (toString n).toList := by
  rw [Nat.toString_eq_repr, Nat.repr, String.toList_ofList]
  intro h
  have hdigit := Nat.isDigit_of_mem_toDigits (by decide) (by decide) h
  cases hdigit

/-- No message of a fault breaks a line. -/
lemma Rejects.newline_not_mem_message {start offset : Nat} {rest : List Char} {fault : Fault}
    (h : Rejects start rest offset fault) : '\n' ∉ fault.message.toList := by
  cases h with
  | unexpectedEnd | missingParen _ | emptyDirective _ _ _ | missingLabel _ _ _ => decide
  | @unexpectedCharacter c _ _ =>
    have hquoted : '\n' ∉ (quoteChar c).toList := QuoteMark.newline_not_mem_quote _ _
    have hmessage : (Fault.unexpectedCharacter c).message =
        "unexpected character " ++ quoteChar c ++ " after '$'" := rfl
    rw [hmessage, String.toList_append, String.toList_append]
    exact List.not_mem_append (List.not_mem_append (by decide) hquoted) (by decide)
  | @missingOpenParen c run _ _ _ hrun _ =>
    have hname : '\n' ∉ (String.ofList (c :: run)).toList := by
      rw [String.toList_ofList]
      exact fun hmem => absurd (hrun '\n' hmem) (by decide)
    have hmessage : (Fault.missingOpenParen (String.ofList (c :: run))).message =
        "expected '(' after '$', did you mean $(" ++ String.ofList (c :: run) ++ ")?" := rfl
    rw [hmessage, String.toList_append, String.toList_append]
    exact List.not_mem_append (List.not_mem_append (by decide) hname) (by decide)

namespace SyntaxError

/-- An error whose fault breaks no line is shown in three lines: the place with the fault, the line
at fault, and a mark below the character at fault. -/
lemma splitOn_message {error : SyntaxError} (hdetail : '\n' ∉ error.detail.toList)
    (hline : '\n' ∉ error.position.lineText.toList) :
    error.message.toList.splitOn '\n' =
      [(toString error.position.line ++ ":" ++ toString error.position.column ++ ": " ++
          error.detail).toList,
        error.position.lineText.toList,
        List.replicate (error.position.column - 1) ' ' ++ "^ near here".toList] := by
  have hplace : '\n' ∉ (toString error.position.line ++ ":" ++ toString error.position.column ++
      ": " ++ error.detail).toList := by
    simp only [String.toList_append]
    exact List.not_mem_append (List.not_mem_append (List.not_mem_append (List.not_mem_append
      (newline_not_mem_toString _) (by decide)) (newline_not_mem_toString _)) (by decide)) hdetail
  have hmark : '\n' ∉ List.replicate (error.position.column - 1) ' ' ++ "^ near here".toList :=
    List.not_mem_append (fun h => absurd (List.eq_of_mem_replicate h) (by decide)) (by decide)
  have htext : error.message.toList = (toString error.position.line ++ ":" ++
      toString error.position.column ++ ": " ++ error.detail).toList ++ '\n' ::
        (error.position.lineText.toList ++ '\n' ::
          (List.replicate (error.position.column - 1) ' ' ++ "^ near here".toList)) := by
    simp only [message, String.toList_append, String.toList_ofList, List.append_assoc]
    rfl
  rw [htext, List.splitOn_append_cons_self, List.splitOn_append_cons_self,
    List.splitOn_eq_singleton hplace, List.splitOn_eq_singleton hline,
    List.splitOn_eq_singleton hmark]
  rfl

/-- Errors that point at a byte of a template. -/
structure PointsAt (template : List Char) (error : SyntaxError) (offset : Nat) : Prop where
  /-- Lines are counted from one. -/
  one_le_line : 1 ≤ error.position.line
  /-- The line that is shown is the one with the number. -/
  lineText : (template.splitOn '\n')[error.position.line - 1]? =
    some error.position.lineText.toList
  /-- Line and column lead back to the byte. -/
  byteOf_eq : byteOf template error.position.line error.position.column = offset
  /-- Columns are counted from one. -/
  one_le_column : 1 ≤ error.position.column
  /-- The column is that of a character of the line, or the one behind the last. -/
  column_le : error.position.column ≤ error.position.lineText.toList.length + 1
  /-- It is the one behind the last only at a line break behind a dollar sign. -/
  lineBreak : error.position.column = error.position.lineText.toList.length + 1 →
    error.fault = .unexpectedCharacter '\n' ∧ ∃ before behind,
      template = before ++ '$' :: '\n' :: behind ∧ byteLength before + 1 = offset

end SyntaxError

/-! ## Errors -/

/-- The character at fault is a dollar sign or the blank behind it, so it is a line break only if
that is what is misplaced. -/
lemma Rejects.exists_char {read rest : List Char} {offset : Nat} {fault : Fault}
    (h : Rejects (byteLength read) rest offset fault) :
    ∃ before c after, read ++ '$' :: rest = before ++ c :: after ∧ byteLength before = offset ∧
      (c = '\n' → fault = .unexpectedCharacter '\n' ∧ before = read ++ ['$']) := by
  cases h with
  | unexpectedEnd | missingParen _ | emptyDirective _ _ _ | missingLabel _ _ _
  | missingOpenParen _ _ _ _ => exact ⟨read, '$', _, rfl, rfl, by simp⟩
  | @unexpectedCharacter c behind _ =>
    exact ⟨read ++ ['$'], c, behind, by simp, byteLength_append read ['$'], by simp⟩

/-- A template is cut in front of the character at fault, behind which its line goes on unless that
character is a line break. -/
lemma Rejects.exists_cut {read rest : List Char} {offset : Nat} {fault : Fault}
    (h : Rejects (byteLength read) rest offset fault) :
    ∃ before after, read ++ '$' :: rest = before ++ after ∧ byteLength before = offset ∧
      (firstLine after = [] → fault = .unexpectedCharacter '\n' ∧
        ∃ behind, read ++ '$' :: rest = read ++ '$' :: '\n' :: behind ∧
          byteLength read + 1 = offset) := by
  obtain ⟨before, c, after, hcut, hoffset, hbreak⟩ := h.exists_char
  refine ⟨before, c :: after, hcut, hoffset, fun hnil => ?_⟩
  have hc : c = '\n' := by
    by_contra hc
    simp [firstLine, hc] at hnil
  obtain ⟨hfault, rfl⟩ := hbreak hc
  refine ⟨hfault, after, ?_, (byteLength_append read ['$']).symm.trans hoffset⟩
  rw [hcut, hc]
  simp

/-- **Errors point at their faults.** A template with a fault at a byte has an error with this fault
that points at the byte: its line is the one with the number, and line and column lead back to the
byte. Only a line break behind a dollar sign is shown behind the end of its line. The message of the
fault breaks no line, so the error is shown in three lines: the place with the message, the line at
fault, and a mark below the character at fault.

**Proof sketch.** The template is cut in front of the character at fault (`Rejects.exists_cut`), and
a place between two parts of a text is told by its lines (`Position.between_lines`). Neither the
message (`Rejects.newline_not_mem_message`) nor the line breaks a line, so the error has just the
lines that it is put together from (`SyntaxError.splitOn_message`). -/
theorem diagnostics_point_at_faults {template : String} {offset : Nat} {fault : Fault}
    (h : .fault offset fault ∈ (Reading.ofText template).items) :
    ∃ error, SyntaxError.ofReading? template.toList (Reading.ofText template) = some error ∧
      error.fault = fault ∧ error.PointsAt template.toList offset ∧ '\n' ∉ error.detail.toList ∧
      error.message.toList.splitOn '\n' =
        [(toString error.position.line ++ ":" ++ toString error.position.column ++ ": " ++
            error.detail).toList,
          error.position.lineText.toList,
          List.replicate (error.position.column - 1) ' ' ++ "^ near here".toList] := by
  have hlocated : (Reading.ofText template).located? = some (offset, fault) := by
    simpa [Reading.items] using h
  have hreads : Reads template.toList (Reading.ofText template) := reads_iff.mpr rfl
  obtain ⟨rest, htemplate, hrejects⟩ := hreads.exists_of_located? hlocated
  replace hrejects := rejects_iff.mpr hrejects
  obtain ⟨before, after, hcut, hoffset, hbreak⟩ := hrejects.exists_cut
  rw [← htemplate] at hcut hbreak
  have hposition : Position.ofByte template.toList offset = .between before after := by
    rw [hcut, ← hoffset, Position.ofByte_append]
  obtain ⟨hline, hbyte⟩ := Position.between_lines before after
  rw [← hcut, hoffset] at hbyte
  rw [← hcut] at hline
  have hdetail := hrejects.newline_not_mem_message
  refine ⟨⟨fault, .between before after⟩, ?_, rfl, ?_, hdetail,
    SyntaxError.splitOn_message hdetail ?_⟩
  · rw [SyntaxError.ofReading?, hlocated, Option.map_some, hposition]
  · refine ⟨Nat.le_add_left _ _, hline, hbyte, Nat.le_add_left _ _, ?_, fun hcolumn => ?_⟩
    · simp [Position.between]
    · have hnil : firstLine after = [] := by simpa [Position.between] using hcolumn
      obtain ⟨hfault, behind, htext, hstart⟩ := hbreak hnil
      exact ⟨hfault, _, behind, htext, hstart⟩
  · simp [Position.between, not_mem_lastLine, not_mem_firstLine]

/-- A line break behind a dollar sign, in a line that holds a character of two bytes and stands
behind another such line. -/
theorem diagnostics_point_at_faults_line_break :
    let error : SyntaxError := ⟨.unexpectedCharacter '\n', ⟨2, 4, "à $"⟩⟩
    .fault 7 (.unexpectedCharacter '\n') ∈ (Reading.ofText "é\nà $\nb").items ∧
      SyntaxError.ofReading? "é\nà $\nb".toList (Reading.ofText "é\nà $\nb") = some error ∧
      error.PointsAt "é\nà $\nb".toList 7 ∧
      error.message.toList.splitOn '\n' =
        ["2:4: unexpected character '\\n' after '$'".toList, "à $".toList,
          "   ^ near here".toList] := by
  intro error
  have written : (Piece.plain "é\nà ".toList).IsWritten := .plain (by decide) (by decide)
  have hreading : Reading.ofText "é\nà $\nb" =
      ⟨[.plain "é\nà ".toList], some (.unexpectedCharacter '\n')⟩ :=
    reads_iff.mp (.piece written (by simp) (.fault rfl))
  have hfault : .fault 7 (.unexpectedCharacter '\n') ∈ (Reading.ofText "é\nà $\nb").items := by
    rw [hreading]
    decide
  have herror : SyntaxError.ofReading? "é\nà $\nb".toList (Reading.ofText "é\nà $\nb") =
      some error := by
    rw [hreading]
    rfl
  obtain ⟨found, hfound, -, hpoints, -, hmessage⟩ := diagnostics_point_at_faults hfault
  obtain rfl : error = found := Option.some.inj (herror.symm.trans hfound)
  refine ⟨hfault, herror, hpoints, hmessage.trans ?_⟩
  decide

end RuleCommand
