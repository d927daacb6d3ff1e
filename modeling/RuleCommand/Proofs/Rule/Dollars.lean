import RuleCommand.Proofs.Rule.Acceptance

set_option autoImplicit false

/-!
# Dollar signs in a command

A compiled command may still hold dollar signs, of which two kinds are meant: doubled ones, which
are kept as they stand in the template, and those with which the placeholder of the inputs starts.
Which is which depends on where one starts to read, since whatever stands next to a dollar sign
could pair up with it. Read from the start of the command, the dollar signs fall into the two kinds,
as long as the values that come from outside hold none: there is a lone dollar sign for each
reference to the inputs and no other. So no directive is left.

## Main definitions

* `RuleCommand.loneDollars` — the dollar signs of a text that are not doubled.
* `RuleCommand.Settled` — a text put together so that its dollar signs are of the two kinds.
* `RuleCommand.BringsNoDollar` — variables and declared paths that hold no dollar sign.

## Main results

* `RuleCommand.Settled.length_loneDollars`, `RuleCommand.Settled.isPrefix_of_mem_loneDollars` —
  the lone dollar signs of such a text.
* `RuleCommand.Settled.quote` — a text that is put together so stays so when it is quoted.
* `RuleCommand.lone_dollars_are_inputs` — the lone dollar signs in the command of a rule.
-/

namespace RuleCommand

/-! ## Lone dollar signs -/

/-- The dollar signs met while a text is read from left to right and each doubled dollar sign is
taken as one unit, each with all that follows it. -/
def loneDollars : List Char → List (List Char)
  | [] => []
  | '$' :: '$' :: rest => loneDollars rest
  | '$' :: rest => ('$' :: rest) :: loneDollars rest
  | _ :: rest => loneDollars rest

lemma loneDollars_dollars (rest : List Char) :
    loneDollars ('$' :: '$' :: rest) = loneDollars rest :=
  rfl

lemma loneDollars_inputs (rest : List Char) :
    loneDollars (Placeholder.inputs.text.toList ++ rest) =
      (Placeholder.inputs.text.toList ++ rest) :: loneDollars rest :=
  rfl

lemma loneDollars_of_ne {c : Char} (hc : c ≠ '$') (rest : List Char) :
    loneDollars (c :: rest) = loneDollars rest := by
  rw [loneDollars] <;> simp [hc]

/-! ## Settled texts -/

/-- A text put together from doubled dollar signs, a number of placeholders of the inputs, and
characters that are not dollar signs. -/
inductive Settled : Nat → List Char → Prop
  /-- Nothing. -/
  | nil : Settled 0 []
  /-- A doubled dollar sign stands in front. -/
  | dollars {n : Nat} {rest : List Char} : Settled n rest → Settled n ('$' :: '$' :: rest)
  /-- The placeholder of the inputs stands in front. -/
  | inputs {n : Nat} {rest : List Char} :
      Settled n rest → Settled (n + 1) (Placeholder.inputs.text.toList ++ rest)
  /-- Any other character stands in front. -/
  | other {n : Nat} {c : Char} {rest : List Char} :
      c ≠ '$' → Settled n rest → Settled n (c :: rest)

namespace Settled

variable {m n : Nat} {text : List Char}

/-! ### Reading a settled text

A reader that starts in front of a part of a settled text gets behind it without looking at what
follows, so it never pairs up dollar signs of two parts. -/

/-- A settled text has a lone dollar sign for each placeholder of the inputs. -/
theorem length_loneDollars (h : Settled n text) : (loneDollars text).length = n := by
  induction h with
  | nil => rfl
  | dollars _ ih => rw [loneDollars_dollars, ih]
  | inputs _ ih => rw [loneDollars_inputs, List.length_cons, ih]
  | other hc _ ih => rw [loneDollars_of_ne hc, ih]

/-- The lone dollar signs of a settled text are those with which the placeholder of the inputs
starts. -/
theorem isPrefix_of_mem_loneDollars (h : Settled n text) :
    ∀ rest ∈ loneDollars text, Placeholder.inputs.text.toList <+: rest := by
  induction h with
  | nil => simp [loneDollars]
  | dollars _ ih =>
    rw [loneDollars_dollars]
    exact ih
  | inputs _ ih =>
    rw [loneDollars_inputs, List.forall_mem_cons]
    exact ⟨List.prefix_append _ _, ih⟩
  | other hc _ ih =>
    rw [loneDollars_of_ne hc]
    exact ih

/-! ### Putting texts together -/

lemma of_not_mem (h : '$' ∉ text) : Settled 0 text := by
  induction text with
  | nil => exact .nil
  | cons c text ih =>
    rw [List.mem_cons, not_or] at h
    exact .other (Ne.symm h.1) (ih h.2)

/-- Settled texts are put together to one, whatever stands where they meet. -/
theorem append {behind : List Char} (h : Settled m text) (hbehind : Settled n behind) :
    Settled (m + n) (text ++ behind) := by
  induction h with
  | nil => rwa [Nat.zero_add]
  | dollars _ ih => exact .dollars ih
  | inputs _ ih =>
    rw [List.append_assoc, Nat.add_right_comm]
    exact .inputs ih
  | other hc _ ih => exact .other hc ih

/-- Texts for the members of a list, some of which are given a placeholder, are put together. -/
lemma flatMap {α : Type} {f : α → List Char} {p : α → Bool} {xs : List α}
    (h : ∀ x ∈ xs, Settled (if p x then 1 else 0) (f x)) :
    Settled (xs.countP p) (xs.flatMap f) := by
  induction xs with
  | nil => exact .nil
  | cons x xs ih =>
    rw [List.forall_mem_cons] at h
    rw [List.flatMap_cons, List.countP_cons, Nat.add_comm]
    exact h.1.append (ih h.2)

/-! ### Quoting -/

/-- The written form of a character other than a dollar sign holds none. -/
lemma escape {c : Char} (hc : c ≠ '$') : Settled 0 (ShellWord.escape c) := by
  refine of_not_mem ?_
  rw [ShellWord.escape]
  split
  · decide
  · simp [Ne.symm hc]

/-- A settled text is settled as it is written between single quotes: no quote comes between the
two dollar signs of a doubled one, or into a placeholder. -/
lemma flatMap_escape (h : Settled n text) : Settled n (text.flatMap ShellWord.escape) := by
  induction h with
  | nil => exact .nil
  | dollars _ ih => exact .dollars ih
  | inputs _ ih => exact .inputs ih
  | @other n c rest hc _ ih =>
    have hboth := (escape hc).append ih
    rwa [Nat.zero_add] at hboth

/-- A settled text is settled as a quoted word. -/
theorem quote {text : String} (h : Settled n text.toList) :
    Settled n (ShellWord.quote text).toList := by
  rw [ShellWord.toList_quote]
  exact .other (by decide) (h.flatMap_escape.append (of_not_mem (by decide)))

end Settled

/-! ## Values -/

/-- Variables and declared references that bring no dollar sign into a command. -/
structure BringsNoDollar (rule : Rule) (resolve : Resolver) (vars : Variables) : Prop where
  /-- No value that a name is bound to holds a dollar sign. -/
  vars : ∀ name value, vars.lookup name = some value → '$' ∉ value.toList
  /-- No path that a declared label stands for holds a dollar sign. -/
  paths : ∀ label ∈ rule.tools ++ (rule.toolFiles ++ rule.sources),
    ∀ path ∈ expansionOf resolve label, '$' ∉ path.toList

variable {rule : Rule} {resolve : Resolver} {vars : Variables}

/-- A character that neither texts nor what separates them hold does not come up between them. -/
lemma not_mem_intercalate {c : Char} {separator : List Char} (hseparator : c ∉ separator)
    {texts : List (List Char)} (h : ∀ text ∈ texts, c ∉ text) :
    c ∉ separator.intercalate texts := by
  induction texts with
  | nil => simp
  | cons first others ih =>
    rw [List.forall_mem_cons] at h
    cases others with
    | nil =>
      rw [List.intercalate_singleton]
      exact h.1
    | cons second others =>
      rw [List.intercalate_cons_cons, List.mem_append, List.mem_append, not_or, not_or]
      exact ⟨⟨h.1, hseparator⟩, ih h.2⟩

namespace BringsNoDollar

/-- The paths of a declared name hold no dollar sign. -/
lemma paths_of_firstDeclares (h : BringsNoDollar rule resolve vars) {name : String}
    {paths : List String} (hfirst : FirstDeclares (rule.declarations resolve) name paths) :
    ∀ path ∈ paths, '$' ∉ path.toList := by
  obtain ⟨before, after, hdeclarations, -⟩ := hfirst
  have hentry : (name, paths) ∈ rule.declarations resolve := by simp [hdeclarations]
  intro path hpath
  obtain ⟨label, hlabel, hmem⟩ := exists_label_of_mem_declarations hentry hpath
  exact h.paths label hlabel path hmem

/-- The value of a directive is the placeholder of the inputs if the directive refers to them, and
otherwise holds no dollar sign. -/
theorem settled_value (h : BringsNoDollar rule resolve vars) {d : Directive} {text : String}
    (hvalue : HasValue rule resolve vars d text) :
    Settled (if d.kind = .inputs then 1 else 0) text.toList := by
  cases hvalue with
  | @onlyTool label path htools hresolve =>
    have hlabel : label ∈ rule.tools ++ (rule.toolFiles ++ rule.sources) := by simp [htools]
    have hpath : text ∈ expansionOf resolve label := by simp [expansionOf_of_tool hresolve]
    exact .of_not_mem (h.paths label hlabel text hpath)
  | onlyToolFile _ hpaths =>
    obtain ⟨label, hlabel, hpath⟩ := List.mem_flatMap.mp ((hpaths text).mpr rfl)
    exact .of_not_mem (h.paths label (by simp [hlabel]) text hpath)
  | location hfirst =>
    exact .of_not_mem (h.paths_of_firstDeclares hfirst text List.mem_cons_self)
  | locations hfirst _ =>
    refine .of_not_mem ?_
    rw [String.toList_intercalate]
    refine not_mem_intercalate (by decide) ?_
    rw [List.forall_mem_map]
    exact h.paths_of_firstDeclares hfirst
  | inputs => exact .inputs .nil
  | outputs => exact .of_not_mem (by decide)
  | depfile => exact .of_not_mem (by decide)
  | outputDir => exact .of_not_mem (by decide)
  | var hlookup => exact .of_not_mem (h.vars _ _ hlookup)

end BringsNoDollar

/-! ## Commands -/

/-- A template with values for its directives is settled if the values are, since its plain text
holds no dollar sign. -/
lemma Reads.settled_exchanged {text : List Char} {reading : Reading} (h : Reads text reading)
    {value : Directive → String}
    (hvalue : ∀ d ∈ reading.directives,
      Settled (if d.kind = .inputs then 1 else 0) (value d).toList) :
    Settled (reading.directives.countP (·.kind = .inputs)) (reading.exchanged value).toList := by
  rw [← Reading.countP_hasKind, Reading.exchanged, String.toList_join, List.flatMap_map]
  refine .flatMap fun piece hpiece => ?_
  cases hlexeme : piece.lexeme with
  | directive d =>
    have hd := hvalue d (Reading.mem_directives.mpr ⟨piece, hpiece, hlexeme⟩)
    simpa [Lexeme.hasKind, Lexeme.exchanged] using hd
  | escape =>
    rw [Lexeme.exchanged]
    exact .dollars .nil
  | literal plain =>
    cases h.isWritten piece hpiece with
    | plain _ noDollar =>
      cases hlexeme
      rw [Lexeme.exchanged, String.toList_ofList]
      exact .of_not_mem noDollar
    | dollar | directive _ _ => cases hlexeme

/-- **The lone dollar signs in the command of a rule** are those with which the placeholder of the
inputs starts, one for each reference to the inputs, if variables and declared paths bring none
along. In particular none of them starts a directive.

**Proof sketch.** The expansion is put together from plain text, doubled dollar signs and values, of
which only the placeholder of the inputs holds a dollar sign (`BringsNoDollar.settled_value`,
`Reads.settled_exchanged`), and quoting leaves the dollar signs as they are (`Settled.quote`). -/
theorem lone_dollars_are_inputs {command : String}
    (h : compile rule resolve vars = .ok command) (hbrings : BringsNoDollar rule resolve vars) :
    (∀ rest ∈ loneDollars command.toList,
      Placeholder.inputs.text.toList <+: rest ∧ ¬['$', '('] <+: rest) ∧
    (loneDollars command.toList).length =
      (Reading.ofText rule.command).directives.countP (·.kind = .inputs) := by
  obtain ⟨-, hresolvable, expansion, hexpand, -, rfl⟩ := compile_eq_ok_iff.mp h
  obtain ⟨hfault, ⟨value, hvalue, hsplice⟩, -⟩ :=
    (expand_resolved_eq_ok_iff hresolvable).mp hexpand
  have hreads : Reads rule.command.toList (Reading.ofText rule.command) := reads_iff.mpr rfl
  have hexpansion := hreads.settled_exchanged fun d hd => hbrings.settled_value (hvalue d hd)
  rw [← (Reading.splice_eq_ok_iff hfault).mp hsplice] at hexpansion
  refine ⟨fun rest hrest => ?_, hexpansion.quote.length_loneDollars⟩
  have hinputs := hexpansion.quote.isPrefix_of_mem_loneDollars rest hrest
  refine ⟨hinputs, fun hdirective => ?_⟩
  obtain ⟨behind, rfl⟩ := hinputs
  simp [Placeholder.text, List.cons_prefix_cons] at hdirective

/-- A doubled dollar sign before a parenthesis, a reference to the inputs, a single quote and a
variable. -/
theorem lone_dollars_are_inputs_between_others :
    compile { name := "gen", command := "$$($(in)'$(x)", outputs := ["out"] } (fun _ => none)
        (Variables.bind {} "x" "v") = .ok "'$$($\x7bin\x7d'\\''v'" ∧
      (∀ rest ∈ loneDollars "'$$($\x7bin\x7d'\\''v'".toList,
        Placeholder.inputs.text.toList <+: rest ∧ ¬['$', '('] <+: rest) ∧
      (loneDollars "'$$($\x7bin\x7d'\\''v'".toList).length = 1 := by
  have paren : (Piece.plain ['(']).IsWritten := .plain (by decide) (by decide)
  have inputs : (Piece.ofDirective "in".toList ⟨.inputs, none⟩).IsWritten :=
    .directive (by decide) rfl
  have singleQuote : (Piece.plain ['\'']).IsWritten := .plain (by decide) (by decide)
  have bound : (Piece.ofDirective "x".toList ⟨.var, some "x"⟩).IsWritten :=
    .directive (by decide) rfl
  have hreading : Reading.ofText "$$($(in)'$(x)" =
      ⟨[.dollar, .plain ['('], .ofDirective "in".toList ⟨.inputs, none⟩, .plain ['\''],
        .ofDirective "x".toList ⟨.var, some "x"⟩], none⟩ :=
    reads_iff.mp (.piece .dollar (by simp [Lexeme.isLiteral, Piece.dollar])
      (.piece paren (by simp [Piece.ofDirective])
      (.piece inputs (by simp [Lexeme.isLiteral, Piece.ofDirective])
      (.piece singleQuote (by simp [Piece.ofDirective])
      (.piece bound (by simp) .done)))))
  have hexpand : expand "$$($(in)'$(x)" (Rule.resolved ⟨"gen", "$$($(in)'$(x)", ["out"], [], [], [],
      false⟩ fun _ => none) (Variables.bind {} "x" "v") = .ok ⟨"$$($\x7bin\x7d'v", false⟩ := by
    rw [expand, hreading]
    rfl
  have h := compile_eq_ok_iff.mpr ⟨by simp, ⟨by simp, by simp, by simp⟩, _, hexpand,
    checkDepfile_eq_ok_iff.mpr ⟨fun _ => ⟨rfl, by decide⟩, by simp⟩, rfl⟩
  have hbrings : BringsNoDollar ⟨"gen", "$$($(in)'$(x)", ["out"], [], [], [], false⟩
      (fun _ => none) (Variables.bind {} "x" "v") := by
    refine ⟨fun name value hlookup => ?_, by simp⟩
    rw [Variables.lookup_bind] at hlookup
    split at hlookup
    · cases hlookup
      decide
    · cases hlookup
  obtain ⟨hlone, hlength⟩ := lone_dollars_are_inputs h hbrings
  rw [hreading] at hlength
  exact ⟨h, hlone, hlength⟩

end RuleCommand
