import RuleCommand.Proofs.CommandLine.Provision
import RuleCommand.Proofs.Rule.Lockstep
import RuleCommand.Proofs.Template.Diagnostics

set_option autoImplicit false

/-!
# Listings and the command

What is listed for debugging tells the same as the command. The listing of the template ends with
the fault that compiling reports, at the byte to which its line and column lead; a template whose
listing ends with a fault has no command; and without a fault the listing starts at the first byte
and goes on from lexeme to lexeme. The listing of the dependencies is the error that compiling
reports for a reference, if it reports one.

## Main definitions

* `RuleCommand.Reading.offsetsFrom` — the offsets that a listing shows.
* `RuleCommand.Config.FailsCollecting` — the error of the references of a configuration.

## Main results

* `RuleCommand.Reads.pairwise_offsetsFrom` — the offsets of a listing are increasing.
* `RuleCommand.collect_eq_error_iff_compile` — the errors of references among those of a rule.
* `RuleCommand.Config.getLast?_lines_of_malformed` — the fault that is reported is listed last.
* `RuleCommand.Config.dependencyListing_eq_iff` — when the dependencies are listed as an error.
* `RuleCommand.listings_agree_with_compile` — what the listings have to do with the command.
-/

namespace RuleCommand

/-! ## Lines -/

/-- The line of a fault, as it is printed. -/
lemma ListingLine.render_fault (offset : Nat) (met : Fault) :
    (fault offset met).render =
      alignRight 4 (toString offset) ++ " error: " ++ met.message ++ "\n" := by
  have hspace : (" error: " : String) = " " ++ "error: " := rfl
  simp only [render, ListingLine.offset, content, hspace, String.append_assoc]

namespace Reading

variable {reading : Reading} {offset : Nat} {fault : Fault}

lemma fault_mem_lines_iff :
    .fault offset fault ∈ reading.lines ↔ reading.located? = some (offset, fault) := by
  simp [lines]

/-- A listing ends with the fault that ended the reading. -/
lemma getLast?_lines_eq_fault_iff :
    reading.lines.getLast? = some (.fault offset fault) ↔
      reading.located? = some (offset, fault) := by
  constructor
  · intro h
    exact fault_mem_lines_iff.mp (List.mem_of_getLast? h)
  · intro h
    rw [lines, h]
    exact List.getLast?_concat

/-- The text of a listing ends with its last line. -/
lemma exists_listing_eq_append {line : ListingLine} (h : reading.lines.getLast? = some line) :
    ∃ earlier, reading.listing = earlier ++ line.render := by
  obtain ⟨earlier, hlines⟩ := List.getLast?_eq_some_iff.mp h
  refine ⟨String.join (earlier.map ListingLine.render), ?_⟩
  rw [listing, hlines, List.map_append, String.join_append, List.map_singleton, String.join_cons,
    String.join_nil, String.append_empty]

/-- A listing without a fault starts at the first byte. -/
lemma offset_eq_zero_of_mem_head? (hnone : ∀ offset fault, .fault offset fault ∉ reading.lines) :
    ∀ line ∈ reading.lines.head?, line.offset = 0 := by
  obtain ⟨pieces, fault?⟩ := reading
  cases pieces with
  | cons piece pieces => simp [lines, tokens, tokensFrom, ListingLine.offset]
  | nil =>
    cases fault? with
    | none => simp [lines, tokens, tokensFrom, located?]
    | some fault => exact absurd (fault_mem_lines_iff.mpr rfl) (hnone _ fault)

/-- The offsets of the lines of a reading that starts at a byte offset. -/
def offsetsFrom (start : Nat) (reading : Reading) : List Nat :=
  (reading.itemsFrom start).map fun item => (ListingLine.ofItem item).offset

lemma offsetsFrom_zero : reading.offsetsFrom 0 = reading.lines.map (·.offset) := by
  rw [offsetsFrom, itemsFrom_zero, ← map_ofItem_items, List.map_map]
  rfl

lemma offsetsFrom_cons (start : Nat) (piece : Piece) :
    (cons piece reading).offsetsFrom start = start :: reading.offsetsFrom (start + piece.size) := by
  rw [offsetsFrom, itemsFrom_cons]
  rfl

lemma offsetsFrom_fault (start : Nat) :
    offsetsFrom start ⟨[], some fault⟩ = [start + fault.lead] := by
  simp [offsetsFrom, itemsFrom, tokensFrom, source, ListingLine.ofItem, ListingLine.offset]

end Reading

namespace Reads

variable {rest : List Char} {reading : Reading}

lemma le_of_mem_offsetsFrom (h : Reads rest reading) {start offset : Nat}
    (hoffset : offset ∈ reading.offsetsFrom start) : start ≤ offset := by
  induction h generalizing start with
  | done => cases hoffset
  | fault _ =>
    rw [Reading.offsetsFrom_fault, List.mem_singleton] at hoffset
    omega
  | piece _ _ _ ih =>
    rw [Reading.offsetsFrom_cons, List.mem_cons] at hoffset
    rcases hoffset with rfl | hoffset
    · exact le_rfl
    · have := ih hoffset
      omega

/-- **The offsets of a listing are increasing**, since each piece takes at least a byte. -/
theorem pairwise_offsetsFrom (h : Reads rest reading) (start : Nat) :
    (reading.offsetsFrom start).Pairwise (· < ·) := by
  induction h generalizing start with
  | done => exact .nil
  | fault _ =>
    rw [Reading.offsetsFrom_fault]
    exact List.pairwise_singleton _ _
  | @piece piece rest reading written _ hreads ih =>
    rw [Reading.offsetsFrom_cons, List.pairwise_cons]
    refine ⟨fun offset hoffset => ?_, ih _⟩
    have hpos := written.size_pos
    have hle := hreads.le_of_mem_offsetsFrom hoffset
    omega

/-- Line and column of a fault lead back to its byte. -/
lemma byteOf_of_located? (h : Reads rest reading) {offset : Nat} {fault : Fault}
    (hlocated : reading.located? = some (offset, fault)) :
    byteOf rest (Position.ofByte rest offset).line (Position.ofByte rest offset).column =
      offset := by
  obtain ⟨behind, htext, hrejects⟩ := h.exists_of_located? hlocated
  obtain ⟨before, after, hcut, rfl, -⟩ := (rejects_iff.mpr hrejects).exists_cut
  rw [htext, hcut, Position.ofByte_append]
  exact (Position.between_lines before after).2

end Reads

/-! ## Errors -/

section

variable {rule : Rule} {resolve : Resolver} {vars : Variables} {error : CompileError}

/-- A fault is reported for a rule only by expanding its template. -/
lemma exists_expand_eq_of_malformed {fault : SyntaxError}
    (h : compile rule resolve vars = .error (.malformed fault)) :
    ∃ deps, expand rule.command deps vars = .error (.malformed fault) := by
  rcases compile_eq_error_iff.mp h with
    ⟨-, herror⟩ | ⟨-, hreference | ⟨hresolvable, htemplate | ⟨_, -, hcheck⟩⟩⟩
  · cases herror
  · obtain ⟨_, _, _, -, -, hoffends⟩ := hreference
    cases hoffends
  · exact ⟨_, (expand_resolved_eq_error_iff hresolvable).mpr htemplate⟩
  · rcases checkDepfile_eq_error_iff.mp hcheck with ⟨-, -, herror⟩ | ⟨-, -, herror⟩
    · cases herror
    · cases herror

/-- **The errors of references** are those of their two kinds, if the rule produces anything. -/
theorem collect_eq_error_iff_compile (houtputs : rule.outputs ≠ []) :
    Dependencies.collect rule resolve = .error error ↔
      compile rule resolve vars = .error error ∧
        (error.kind = .unresolvedDependency ∨ error.kind = .notATool) := by
  rw [collect_eq_error_iff]
  constructor
  · intro h
    refine ⟨compile_eq_error_iff.mpr (.inr ⟨houtputs, .inl h⟩), ?_⟩
    obtain ⟨_, _, _, -, -, hoffends⟩ := h
    cases hoffends with
    | notATool _ => exact .inr rfl
    | unresolved _ => exact .inl rfl
  · rintro ⟨hcompile, hkind⟩
    exact firstBad_of_compile hcompile hkind

end

/-! ## The listing of the dependencies -/

/-- A text starts like its first line. -/
lemma head?_toList_join {lines : List String} {starts : List Char}
    (h : ∀ line ∈ lines, ∃ c ∈ starts, line.toList.head? = some c) :
    ∀ c ∈ (String.join lines).toList.head?, c ∈ starts := by
  cases lines with
  | nil => simp
  | cons line lines =>
    obtain ⟨c, hc, hline⟩ := h line List.mem_cons_self
    rw [String.join_cons, String.toList_append, List.head?_append, hline]
    simpa using hc

/-- The listing of resolved references does not start like an error. -/
lemma Dependencies.listing_ne_error (deps : Dependencies) (text : String) :
    deps.listing ≠ "error: " ++ text := by
  have hstart : ∀ c ∈ deps.listing.toList.head?, c ∈ ['t', 's'] := by
    apply head?_toList_join
    intro line hline
    simp only [List.mem_append, List.mem_map] at hline
    rcases hline with (⟨tool, -, rfl⟩ | ⟨path, -, rfl⟩) | ⟨path, -, rfl⟩
    · exact ⟨'t', by simp, by simp⟩
    · exact ⟨'t', by simp, by simp⟩
    · exact ⟨'s', by simp, by simp⟩
  intro h
  rw [h, String.toList_append] at hstart
  simpa using hstart 'e' rfl

namespace Config

variable {config : Config}

/-- The error of a configuration that cannot be compiled because of a reference. -/
def FailsCollecting (config : Config) (error : CompileError) : Prop :=
  config.compile = .error error ∧
    (error.kind = .unresolvedDependency ∨ error.kind = .notATool)

/-- **The dependencies are listed as an error** exactly if they cannot be resolved. -/
theorem dependencyListing_eq_iff {message : String} :
    config.dependencyListing = "error: " ++ message ++ "\n" ↔
      ∃ error, Dependencies.collect config.rule config.resolver = .error error ∧
        error.message = message := by
  rw [dependencyListing]
  cases Dependencies.collect config.rule config.resolver with
  | error error =>
    simp only [String.append_left_inj, String.append_right_inj, Except.error.injEq]
    exact ⟨fun h => ⟨error, rfl, h⟩, fun ⟨_, herror, h⟩ => herror ▸ h⟩
  | ok deps =>
    rw [String.append_assoc]
    exact ⟨fun h => absurd h (deps.listing_ne_error _), by simp⟩

/-! ## The listing of the template -/

/-- A fault that is reported is in the last line of the listing, at the byte to which its line and
column lead.

**Proof sketch.** The expansion of the template is handed the items that are listed, and ends at
the fault (`Cursor.Expands.lockstep`). -/
lemma getLast?_lines_of_malformed {error : SyntaxError}
    (h : config.compile = .error (.malformed error)) :
    (Reading.ofText config.rule.command).lines.getLast? =
      some (.fault (byteOf config.rule.command.toList error.position.line error.position.column)
        error.fault) := by
  obtain ⟨deps, hexpand⟩ := exists_expand_eq_of_malformed h
  have hexpands := Cursor.expands_iff.mpr hexpand.symm
  obtain ⟨offset, hlast, hposition⟩ := (hexpands.lockstep (Cursor.lists_iff.mpr rfl)).1 error rfl
  have hlocated := Reading.getLast?_lines_eq_fault_iff.mp hlast
  rw [hposition, (reads_ofText _).byteOf_of_located? hlocated]
  exact hlast

/-- The listing of a template that has a command shows no fault. -/
lemma fault_not_mem_lines_of_compile {command : String} (h : config.compile = .ok command)
    (offset : Nat) (fault : Fault) :
    .fault offset fault ∉ (Reading.ofText config.rule.command).lines := by
  obtain ⟨-, -, expansion, hexpand, -⟩ := compile_eq_ok_iff.mp h
  have hexpands := Cursor.expands_iff.mpr hexpand.symm
  exact (hexpands.lockstep (Cursor.lists_iff.mpr rfl)).2 expansion rfl offset fault

end Config

/-! ## Configurations -/

/-- **The listings agree with the command.** The template is listed item by item.

* A fault that is reported for the rule is in the last line of its listing, at the byte to which
  the line and the column of the report lead.
* A rule whose listing ends with a fault has no command.
* The offsets of a listing are increasing. Without a fault they start with the first byte, and no
  fault is reported for the rule.
* If the rule produces anything, its dependencies are listed as an error exactly if that error is
  reported for it, and it is one of a reference.

**Proof sketch.** The listing and the expansion of the template agree on faults
(`Config.getLast?_lines_of_malformed`, `Config.fault_not_mem_lines_of_compile`). The references are
resolved by the same collecting, of which the error is that of the rule
(`collect_eq_error_iff_compile`). -/
theorem listings_agree_with_compile (config : Config) :
    let lines := (Reading.ofText config.rule.command).lines
    ((Cursor.ofText config.rule.command).Lists lines ∧
      config.listing .directives = String.join (lines.map ListingLine.render)) ∧
    (∀ error, config.compile = .error (.malformed error) →
      let offset := byteOf config.rule.command.toList error.position.line error.position.column
      lines.getLast? = some (.fault offset error.fault) ∧
        ∃ earlier, config.listing .directives =
          earlier ++ (alignRight 4 (toString offset) ++ " error: " ++ error.detail ++ "\n")) ∧
    (∀ offset fault, lines.getLast? = some (.fault offset fault) →
      ∀ command, config.compile ≠ .ok command) ∧
    (lines.map (·.offset)).Pairwise (· < ·) ∧
    ((∀ offset fault, .fault offset fault ∉ lines) →
      (∀ line ∈ lines.head?, line.offset = 0) ∧
        ∀ error, config.compile ≠ .error (.malformed error)) ∧
    (config.rule.outputs ≠ [] →
      (∀ error, Dependencies.collect config.rule config.resolver = .error error ↔
        config.FailsCollecting error) ∧
      ∀ message, config.listing .deps = "error: " ++ message ++ "\n" ↔
        ∃ error, config.FailsCollecting error ∧ error.message = message) := by
  intro lines
  refine ⟨⟨Cursor.lists_iff.mpr rfl, rfl⟩, ?_, ?_, ?_, ?_, ?_⟩
  · intro error herror offset
    have hlast := Config.getLast?_lines_of_malformed herror
    obtain ⟨earlier, hlisting⟩ := Reading.exists_listing_eq_append hlast
    rw [ListingLine.render_fault] at hlisting
    exact ⟨hlast, earlier, hlisting⟩
  · intro offset fault hlast command hcommand
    exact Config.fault_not_mem_lines_of_compile hcommand offset fault (List.mem_of_getLast? hlast)
  · rw [← Reading.offsetsFrom_zero]
    exact (reads_ofText config.rule.command).pairwise_offsetsFrom 0
  · intro hnone
    refine ⟨Reading.offset_eq_zero_of_mem_head? hnone, fun error herror => ?_⟩
    exact hnone _ _ (List.mem_of_getLast? (Config.getLast?_lines_of_malformed herror))
  · intro houtputs
    have hcollect : ∀ error, Dependencies.collect config.rule config.resolver = .error error ↔
        config.FailsCollecting error := fun _ => collect_eq_error_iff_compile houtputs
    refine ⟨hcollect, fun message => ?_⟩
    rw [Config.listing, Config.dependencyListing_eq_iff]
    exact exists_congr fun error => and_congr_left fun _ => hcollect error

/-- A fault in a line that holds a character of two bytes and stands behind another such line; a
template without a fault; and a reference that cannot be resolved, which is reported before the
fault. -/
theorem listings_agree_with_compile_of_errors :
    let faulty : Config := { rule := { name := "gen", command := "é\nà $", outputs := ["out"] } }
    let sound : Config := { rule := { name := "gen", command := "é$$", outputs := ["out"] } }
    let unresolved : Config :=
      { rule := { name := "gen", command := "$", outputs := ["out"], sources := [":h"] } }
    faulty.compile = .error (.malformed ⟨.unexpectedEnd, ⟨2, 3, "à $"⟩⟩) ∧
      (Reading.ofText "é\nà $").lines.getLast? = some (.fault 6 .unexpectedEnd) ∧
      (∃ earlier, faulty.listing .directives =
        earlier ++ "   6 error: expected character after '$'\n") ∧
      (∀ command, faulty.compile ≠ .ok command) ∧
      (∀ offset fault, .fault offset fault ∉ (Reading.ofText "é$$").lines) ∧
      (∀ error, sound.compile ≠ .error (.malformed error)) ∧
      unresolved.FailsCollecting (.unresolvedDependency ":h") ∧
      unresolved.listing .deps = "error: unresolved dependency \":h\"\n" := by
  have hplain : (Piece.plain "é\nà ".toList).IsWritten := .plain (by decide) (by decide)
  have hfaulty : Reading.ofText "é\nà $" = ⟨[.plain "é\nà ".toList], some .unexpectedEnd⟩ :=
    reads_iff.mp (.piece hplain (by simp) (.fault rfl))
  have hexpand : ∀ deps vars, expand "é\nà $" deps vars =
      .error (.malformed ⟨.unexpectedEnd, ⟨2, 3, "à $"⟩⟩) := by
    intro deps vars
    rw [expand, hfaulty]
    rfl
  have hbyte : byteOf "é\nà $".toList 2 3 = 6 := by decide
  have hstart : (Piece.plain "é".toList).IsWritten := .plain (by decide) (by decide)
  have hsound : Reading.ofText "é$$" = ⟨[.plain "é".toList, .dollar], none⟩ :=
    reads_iff.mp (.piece hstart (by simp [Piece.dollar]) (.piece .dollar (by simp) .done))
  have hnone : ∀ offset fault, .fault offset fault ∉ (Reading.ofText "é$$").lines := by
    simp [Reading.fault_mem_lines_iff, Reading.located?, hsound]
  have hresolvable : ∀ resolve,
      Resolvable { name := "gen", command := "é\nà $", outputs := ["out"] } resolve :=
    fun _ => ⟨by simp, by simp, by simp⟩
  intro faulty sound unresolved
  have hcompile : faulty.compile = .error (.malformed ⟨.unexpectedEnd, ⟨2, 3, "à $"⟩⟩) :=
    compile_eq_error_iff.mpr (.inr ⟨by simp [faulty], .inr ⟨hresolvable _,
      .inl ((expand_resolved_eq_error_iff (hresolvable _)).mp (hexpand _ _))⟩⟩)
  obtain ⟨-, hfault, hfails, -, -⟩ := listings_agree_with_compile faulty
  obtain ⟨-, -, -, -, hnever, -⟩ := listings_agree_with_compile sound
  obtain ⟨-, -, -, -, -, hdeps⟩ := listings_agree_with_compile unresolved
  obtain ⟨hcollect, hlisting⟩ := hdeps (by simp [unresolved])
  have hunresolved : unresolved.FailsCollecting (.unresolvedDependency ":h") :=
    (hcollect _).mp rfl
  have hshown := hfault _ hcompile
  rw [hbyte] at hshown
  obtain ⟨hlast, hprinted⟩ := hshown
  exact ⟨hcompile, hlast, hprinted, hfails _ _ hlast, hnone, (hnever hnone).2, hunresolved,
    (hlisting _).mpr ⟨_, hunresolved, rfl⟩⟩

end RuleCommand
