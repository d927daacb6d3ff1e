import RuleCommand.CompileError
import RuleCommand.Proofs.Template.Derivation

set_option autoImplicit false

/-!
# Templates put one behind the other

What is read of a template does not depend on what stands before it, as long as that is read to
its end. There are two things that the boundary does change: plain text on both sides of it is read
as one run, and a fault behind it is shown in a later place.

## Main definitions

* `RuleCommand.Position.behind` — a place in a text that was put behind another.
* `RuleCommand.Reading.glue` — a piece in front of a reading, with which it may become one run.
* `RuleCommand.Reading.prepend` — several pieces in front of a reading.

## Main results

* `RuleCommand.Position.ofByte_append_add` — how the place of a byte moves.
* `RuleCommand.Reading.ofChars_append_of_isWritten` — what is read behind written pieces.
* `RuleCommand.SyntaxError.ofReading?_prepend` — how the error of a reading moves.
-/

namespace RuleCommand

/-! ## Places -/

/-- A concatenation is cut in its second part if the offset lies there. -/
lemma splitAtByte_append_add (before text : List Char) (offset : Nat) :
    splitAtByte (byteLength before + offset) (before ++ text) =
      (before ++ (splitAtByte offset text).1, (splitAtByte offset text).2) := by
  induction before with
  | nil => simp
  | cons c before ih =>
    have hpos := c.utf8Size_pos
    have hne : c.utf8Size + byteLength before + offset ≠ 0 := by omega
    have hshift : c.utf8Size + byteLength before + offset - c.utf8Size =
        byteLength before + offset := by omega
    rw [List.cons_append, byteLength_cons, splitAtByte, if_neg hne, hshift, ih]
    rfl

lemma lastLine_of_not_mem {text : List Char} (h : '\n' ∉ text) : lastLine text = text := by
  have hreverse : '\n' ∉ text.reverse := by rwa [List.mem_reverse]
  obtain ⟨htake, -⟩ := takeWhile_ne_append hreverse [] (by simp)
  rw [List.append_nil] at htake
  rw [lastLine, htake, List.reverse_reverse]

/-- Without a line break, a text goes on with the last line of what is before it. -/
lemma lastLine_append_of_not_mem {text : List Char} (h : '\n' ∉ text) (before : List Char) :
    lastLine (before ++ text) = lastLine before ++ text := by
  have hall : ∀ c ∈ text.reverse, (c != '\n') = true := by
    intro c hc
    rw [bne_iff_ne]
    rintro rfl
    exact h (List.mem_reverse.mp hc)
  rw [lastLine, List.reverse_append, List.takeWhile_append_of_pos hall, List.reverse_append,
    List.reverse_reverse, lastLine]

/-- With a line break, a text has a last line of its own. -/
lemma lastLine_append_of_mem {text : List Char} (h : '\n' ∈ text) (before : List Char) :
    lastLine (before ++ text) = lastLine text := by
  obtain ⟨line, others, hsplit, hline⟩ :=
    List.eq_append_cons_of_mem (List.mem_reverse.mpr h)
  have hlast : ∀ rest, (line ++ '\n' :: rest).takeWhile (· != '\n') = line := fun rest =>
    (takeWhile_ne_append hline ('\n' :: rest) (by simp)).1
  rw [lastLine, lastLine, List.reverse_append, hsplit, List.append_assoc, List.cons_append, hlast,
    hlast]

namespace Position

/-- A place in a text that was put behind another: its line is counted from the first line of the
other text, and if it was in the first line, that line is now the end of a longer one. -/
def behind (before : List Char) (position : Position) : Position where
  line := position.line + before.count '\n'
  column :=
    if position.line = 1 then position.column + (lastLine before).length else position.column
  lineText :=
    if position.line = 1 then String.ofList (lastLine before) ++ position.lineText
    else position.lineText

lemma between_append (before middle after : List Char) :
    between (before ++ middle) after = (between middle after).behind before := by
  have hfirst : (between middle after).line = 1 ↔ '\n' ∉ middle := by
    rw [between, Nat.add_eq_right, List.count_eq_zero]
  rw [behind]
  by_cases h : '\n' ∈ middle
  · rw [if_neg (by simpa [hfirst] using h), if_neg (by simpa [hfirst] using h), between, between,
      lastLine_append_of_mem h, List.count_append]
    simp only [mk.injEq, and_true]
    omega
  · rw [if_pos (hfirst.mpr h), if_pos (hfirst.mpr h), between, between,
      lastLine_append_of_not_mem h, lastLine_of_not_mem h, List.count_append, List.length_append,
      List.append_assoc, String.ofList_append]
    simp only [mk.injEq, and_true]
    omega

/-- The place of a byte moves by the text that is put before it. -/
theorem ofByte_append_add (before text : List Char) (offset : Nat) :
    ofByte (before ++ text) (byteLength before + offset) = (ofByte text offset).behind before := by
  rw [ofByte, splitAtByte_append_add, ofByte, between_append]

end Position

/-! ## Readings -/

namespace Reading

/-- A piece in front of a reading. Plain text becomes one run with plain text that follows it. -/
def glue (piece : Piece) (reading : Reading) : Reading :=
  match piece.lexeme, reading.pieces with
  | .literal text, ⟨source, .literal more⟩ :: others =>
    { reading with pieces := ⟨piece.source ++ source, .literal (text ++ more)⟩ :: others }
  | _, _ => cons piece reading

/-- Pieces in front of a reading. -/
def prepend (pieces : List Piece) (reading : Reading) : Reading :=
  pieces.foldr glue reading

/-- A piece is put in front as it is, or is one run with the plain text that follows it. -/
lemma glue_eq_cons_or (piece : Piece) (reading : Reading) :
    glue piece reading = cons piece reading ∨
      ∃ text source more others, piece.lexeme = .literal text ∧
        reading.pieces = ⟨source, .literal more⟩ :: others ∧
        glue piece reading =
          ⟨⟨piece.source ++ source, .literal (text ++ more)⟩ :: others, reading.fault?⟩ := by
  rw [glue]
  split
  · next text source more others hlexeme hpieces =>
    exact .inr ⟨text, source, more, others, hlexeme, hpieces, rfl⟩
  · exact .inl rfl

/-- A piece that is not plain text is put in front as it is. -/
lemma glue_of_left {piece : Piece} (h : piece.lexeme.isLiteral = false) (reading : Reading) :
    glue piece reading = cons piece reading := by
  rcases glue_eq_cons_or piece reading with hcons | ⟨_, _, _, _, hlexeme, -, -⟩
  · exact hcons
  · rw [hlexeme] at h
    cases h

/-- A piece is put in front of a piece that is not plain text as it is. -/
lemma glue_of_right (piece : Piece) {next : Piece} (h : next.lexeme.isLiteral = false)
    (reading : Reading) : glue piece (cons next reading) = cons piece (cons next reading) := by
  rcases glue_eq_cons_or piece (cons next reading) with hcons | ⟨_, _, _, _, -, hpieces, -⟩
  · exact hcons
  · rw [pieces_cons, List.cons.injEq] at hpieces
    rw [hpieces.1] at h
    cases h

/-- Two runs of plain text become one. -/
lemma glue_plain (run more : List Char) (reading : Reading) :
    glue (.plain run) (cons (.plain more) reading) = cons (.plain (run ++ more)) reading := by
  simp [glue, Piece.plain, cons, String.ofList_append]

@[simp] lemma fault?_glue (piece : Piece) (reading : Reading) :
    (glue piece reading).fault? = reading.fault? := by
  rcases glue_eq_cons_or piece reading with hcons | ⟨_, _, _, _, -, -, hglue⟩
  · rw [hcons, fault?_cons]
  · rw [hglue]

@[simp] lemma source_glue (piece : Piece) (reading : Reading) :
    (glue piece reading).source = piece.source ++ reading.source := by
  rcases glue_eq_cons_or piece reading with hcons | ⟨_, _, _, _, -, hpieces, hglue⟩
  · rw [hcons, source, pieces_cons, List.flatMap_cons, source]
  · rw [hglue, source, source, hpieces]
    simp

@[simp] lemma prepend_nil (reading : Reading) : prepend [] reading = reading := rfl

@[simp] lemma prepend_cons (piece : Piece) (pieces : List Piece) (reading : Reading) :
    prepend (piece :: pieces) reading = glue piece (prepend pieces reading) := rfl

@[simp] lemma fault?_prepend (pieces : List Piece) (reading : Reading) :
    (prepend pieces reading).fault? = reading.fault? := by
  induction pieces with
  | nil => rfl
  | cons piece pieces ih => rw [prepend_cons, fault?_glue, ih]

@[simp] lemma source_prepend (pieces : List Piece) (reading : Reading) :
    (prepend pieces reading).source = pieces.flatMap (·.source) ++ reading.source := by
  induction pieces with
  | nil => rfl
  | cons piece pieces ih =>
    rw [prepend_cons, source_glue, ih, List.flatMap_cons, List.append_assoc]

end Reading

/-- A written piece is read in front of any reading.

**Proof sketch.** Only plain text reaches further than it did: in front of the end, a fault or a
piece that starts with a dollar sign it stands alone, and in front of another run of plain text it
becomes one run with it. -/
lemma Reads.glue {piece : Piece} (written : piece.IsWritten) {rest : List Char} {reading : Reading}
    (h : Reads rest reading) : Reads (piece.source ++ rest) (.glue piece reading) := by
  rcases written.eq_plain_or with ⟨run, nonempty, noDollar, rfl⟩ | ⟨notLiteral, -⟩
  · cases h with
    | done => exact .piece written (by simp) .done
    | fault herror => exact .piece written (by simp) (.fault herror)
    | @piece next rest reading hnext hrest hreads =>
      rcases hnext.eq_plain_or with ⟨more, -, hmore, rfl⟩ | ⟨notLiteral, hdollar⟩
      · have merged : (Piece.plain (run ++ more)).IsWritten :=
          .plain (by simp [nonempty]) (by simp [noDollar, hmore])
        rw [Reading.glue_plain, Piece.plain, Piece.plain, ← List.append_assoc]
        exact .piece merged hrest hreads
      · rw [Reading.glue_of_right _ notLiteral]
        refine .piece written (fun _ => ?_) (.piece hnext hrest hreads)
        obtain ⟨text, htext⟩ := hdollar rest
        rw [htext]
        simp
  · rw [Reading.glue_of_left notLiteral]
    exact .piece written (by simp [notLiteral]) h

/-- **What is read behind written pieces** is read as if they were not there, but for a run of plain
text that goes on with the last of them.

**Proof sketch.** Induction on the pieces: each of them is read in front of what is read behind it
(`Reads.glue`). -/
theorem Reading.ofChars_append_of_isWritten {pieces : List Piece}
    (written : ∀ piece ∈ pieces, piece.IsWritten) (rest : List Char) :
    ofChars (pieces.flatMap (·.source) ++ rest) = prepend pieces (ofChars rest) := by
  refine reads_iff.mp ?_
  induction pieces with
  | nil => exact reads_iff.mpr rfl
  | cons piece pieces ih =>
    have hothers := ih fun p hp => written p (List.mem_cons_of_mem piece hp)
    rw [List.flatMap_cons, List.append_assoc, prepend_cons]
    exact hothers.glue (written piece List.mem_cons_self)

/-! ## Errors -/

/-- The error of a template that was put behind another text is in a later place. -/
def SyntaxError.behind (before : List Char) (error : SyntaxError) : SyntaxError :=
  { error with position := error.position.behind before }

/-- **The error of a reading moves** by the pieces that are put before it. -/
theorem SyntaxError.ofReading?_prepend (pieces : List Piece) (text : List Char)
    (reading : Reading) :
    ofReading? (pieces.flatMap (·.source) ++ text) (.prepend pieces reading) =
      (ofReading? text reading).map (behind (pieces.flatMap (·.source))) := by
  rw [ofReading?, ofReading?, Reading.located?, Reading.located?, Reading.fault?_prepend,
    Reading.source_prepend]
  cases reading.fault? with
  | none => rfl
  | some fault =>
    simp only [Option.map_some, byteLength_append, Nat.add_assoc, Position.ofByte_append_add]
    rfl

end RuleCommand
