import RuleCommand.Proofs.Rule.Dependence
import RuleCommand.Proofs.Template.Rewriting

set_option autoImplicit false

/-!
# Asking for all paths

The paths of a label are asked for by one of two words: one for its only path, the other for all of
them. Where a label has one path both give it, so in a rule that is compiled the first word can be
exchanged for the second wherever it stands, and the command stays. Where a label has several paths
only the second word has a value, so the exchange is the way out of the error for the first.

## Main definitions

* `RuleCommand.Token.widening?` — the edit that makes a location ask for all paths.
* `RuleCommand.widen` — a template in which chosen locations ask for all paths.

## Main results

* `RuleCommand.exists_widen` — the expansion of such a template.
* `RuleCommand.exists_widen_of_expand` — asking for all paths keeps expansions.
* `RuleCommand.widening_keeps_commands` — asking for all paths keeps commands, and gives all paths
  where there is not one.
-/

namespace RuleCommand

variable {deps : Dependencies} {vars : Variables} {chosen : Token → Bool}

/-! ## Templates -/

/-- The edit that makes a chosen location of a label ask for all paths of the label. -/
def Token.widening? (chosen : Token → Bool) (token : Token) : Option Edit :=
  match token.lexeme with
  | .directive ⟨.location, some label⟩ =>
    if chosen token then some ⟨token.start, token.stop, "$(locations " ++ label ++ ")"⟩ else none
  | _ => none

/-- A template in which chosen locations of labels ask for all paths. -/
def widen (template : String) (chosen : Token → Bool) : Except BadSlice String :=
  (splice template.toList
    ((Reading.ofText template).tokens.filterMap (Token.widening? chosen))).map String.ofList

/-- The piece that asks for all paths in the place of a chosen location of a label. -/
def Token.widened? (chosen : Token → Bool) (token : Token) : Option Piece :=
  match token.lexeme with
  | .directive ⟨.location, some label⟩ =>
    if chosen token then some (Lexeme.directive ⟨.locations, some label⟩).toPiece else none
  | _ => none

/-- A location is made to ask for all paths by exchanging it for the piece that does. -/
lemma Token.widening?_eq_editWith (chosen : Token → Bool) :
    widening? chosen = editWith (widened? chosen) := by
  have htext : ∀ label : String, "$(locations " ++ label ++ ")" =
      String.ofList (Lexeme.directive ⟨.locations, some label⟩).toPiece.source := by
    intro label
    have hword : "$(locations " = "$(" ++ "locations " := rfl
    rw [Lexeme.toPiece, String.ofList_toList, Lexeme.render, Directive.render, Directive.body,
      hword]
    simp only [String.append_assoc]
  funext token
  rw [widening?, editWith, widened?]
  split
  · next label _ =>
    rw [htext label]
    split <;> rfl
  · rfl

/-- What takes the place of a token is read as before, or it asks for all paths where the only path
of a label was asked for. -/
lemma Token.lexemeWith_widened? (chosen : Token → Bool) (token : Token) :
    token.lexemeWith (widened? chosen) = token.lexeme ∨
      ∃ label, token.lexeme = .directive ⟨.location, some label⟩ ∧
        token.lexemeWith (widened? chosen) = .directive ⟨.locations, some label⟩ := by
  rw [lexemeWith, widened?]
  split
  · next label hlexeme =>
    split
    · exact .inr ⟨label, hlexeme, rfl⟩
    · exact .inl rfl
  · exact .inl rfl

/-- In the place of a chosen location of a label all paths of the label are asked for. -/
lemma Token.lexemeWith_widened?_of_chosen {token : Token} {label : String}
    (hlexeme : token.lexeme = .directive ⟨.location, some label⟩) (hchosen : chosen token = true) :
    token.lexemeWith (widened? chosen) = .directive ⟨.locations, some label⟩ := by
  rw [lexemeWith, widened?, hlexeme]
  simp only [if_pos hchosen]
  rfl

/-- The label of a location that was read can be written behind the word that asks for all paths. -/
lemma Reading.rewrites_widened? (template : String) (chosen : Token → Bool) :
    (ofText template).Rewrites (Token.widened? chosen) := by
  intro token htoken piece hpiece
  rw [Token.widened?] at hpiece
  split at hpiece
  · next label hlexeme =>
    split at hpiece
    · cases hpiece
      have hmem : .directive ⟨.location, some label⟩ ∈ (ofText template).lexemes :=
        List.mem_map.mpr ⟨token, htoken, hlexeme⟩
      cases Directive.isReadable_of_mem_lexemes hmem with
      | location hlabel =>
        have hreadable := Directive.IsReadable.locations hlabel
        rw [Lexeme.toPiece_directive, hlexeme]
        exact ⟨.directive hreadable.not_mem_body hreadable.ofBody_body, rfl⟩
    · cases hpiece
  · cases hpiece

/-! ## Values -/

/-- All paths of a label that has one are that path. -/
lemma Dependencies.locations_eq_of_location {label path : String}
    (h : deps.location label = .ok path) : deps.locations label = .ok path :=
  locations_eq_ok_iff.mpr
    ⟨[path], location_eq_ok_iff.mp h, List.cons_ne_nil _ _, String.intercalate_singleton.symm⟩

/-- All paths of a label that has several are those of its first declaration. -/
lemma Dependencies.exists_locations_of_multipleFiles {label : String} {count : Nat}
    (h : deps.location label = .error (.multipleFiles label count)) :
    ∃ paths, FirstDeclares deps.declarations label paths ∧ paths.length = count ∧ 2 ≤ count ∧
      deps.locations label = .ok (" ".intercalate paths) := by
  rcases location_eq_error_iff.mp h with hpaths | ⟨paths, hfirst, hseveral, herror⟩
  · rcases pathsOf_eq_error_iff.mp hpaths with ⟨-, herror⟩ | ⟨-, herror⟩
    · cases herror
    · cases herror
  · cases herror
    have hne : paths ≠ [] := List.ne_nil_of_length_pos (by omega)
    exact ⟨paths, hfirst, rfl, hseveral, locations_eq_ok_iff.mpr ⟨paths, hfirst, hne, rfl⟩⟩

/-- What takes the place of a token has its value, if the token has one. -/
lemma Token.value_widened {token : Token} {value : String}
    (h : token.lexeme.value deps vars = .ok value) :
    (token.lexemeWith (widened? chosen)).value deps vars = .ok value := by
  rcases token.lexemeWith_widened? chosen with hsame | ⟨label, hlexeme, hwidened⟩
  · rw [hsame, h]
  · rw [hlexeme] at h
    rw [hwidened]
    exact Dependencies.locations_eq_of_location h

/-- What takes the places of tokens has their values, if each of them has one. -/
lemma mapM_value_widened {tokens : List Token}
    (h : ∀ token ∈ tokens, ∃ value, token.lexeme.value deps vars = .ok value) :
    (tokens.mapM fun token => (token.lexemeWith (Token.widened? chosen)).value deps vars) =
      tokens.mapM fun token => token.lexeme.value deps vars := by
  refine mapM_congr fun token htoken => ?_
  obtain ⟨value, hvalue⟩ := h token htoken
  rw [hvalue, Token.value_widened hvalue]

/-- What takes the place of a token refers to the dependency file if the token does. -/
lemma Token.hasKind_widened (token : Token) :
    (token.lexemeWith (widened? chosen)).hasKind .depfile = token.lexeme.hasKind .depfile := by
  rcases token.lexemeWith_widened? chosen with hsame | ⟨label, hlexeme, hwidened⟩
  · rw [hsame]
  · rw [hwidened, hlexeme]
    rfl

/-! ## Expansions -/

/-- A template that is read to its end can be made to ask for all paths at any of its locations, and
is then expanded token by token. -/
theorem exists_widen {template : String} (h : (Reading.ofText template).fault? = none)
    (chosen : Token → Bool) :
    ∃ text, widen template chosen = .ok text ∧ ∀ (deps : Dependencies) (vars : Variables),
      expand text deps vars = do
        let values ← (Reading.ofText template).tokens.mapM fun token =>
          (token.lexemeWith (Token.widened? chosen)).value deps vars
        return ⟨String.join values,
          (Reading.ofText template).tokens.any fun token => token.lexeme.hasKind .depfile⟩ := by
  obtain ⟨text, hsplice, hfault, hlexemes⟩ :=
    Reading.exists_rewritten template (Reading.rewrites_widened? template chosen)
  refine ⟨text, ?_, fun deps vars => ?_⟩
  · rw [widen, Token.widening?_eq_editWith, hsplice, Except.map, String.ofList_toList]
  · rw [expand_eq_of_fault?_eq_none (hfault.trans h), hlexemes, List.mapM_map, List.any_map]
    simp only [Function.comp_def, Token.hasKind_widened]

/-- Asking for all paths keeps expansions. -/
lemma exists_widen_of_expand {template : String} {expansion : Expansion}
    (hexpand : expand template deps vars = .ok expansion) (chosen : Token → Bool) :
    ∃ text, widen template chosen = .ok text ∧ expand text deps vars = .ok expansion := by
  have h := (expand_eq_ok_iff.mp hexpand).1
  obtain ⟨text, hwiden, hwidened⟩ := exists_widen h chosen
  rw [expand_eq_of_fault?_eq_none h, Reading.lexemes, List.mapM_map, List.any_map] at hexpand
  obtain ⟨values, hvalues, hexpansion⟩ := bind_eq_ok_iff.mp hexpand
  have hall : ∀ token ∈ (Reading.ofText template).tokens,
      ∃ value, token.lexeme.value deps vars = .ok value := by
    intro token htoken
    cases hvalue : token.lexeme.value deps vars with
    | ok value => exact ⟨value, rfl⟩
    | error e => exact absurd hvalue (exists_mapM_eq_ok_iff.mp ⟨values, hvalues⟩ token htoken e)
  refine ⟨text, hwiden, ?_⟩
  rw [hwidened, mapM_value_widened hall]
  exact hexpand

/-! ## Commands -/

/-- **Asking for all paths keeps commands, and gives all paths where there is not one.** In a rule
that is compiled any of the locations of labels can be made to ask for all paths, and the command
stays. In a template in which a location of a label is the only directive without a value, because
the label has several paths, it can be made to ask for all of them: then the template is expanded,
with the paths by the first declaration of the label in its place, and everything else as it is.

**Proof sketch.** A template in which locations ask for all paths is read as before up to the words
that were exchanged, so it is expanded token by token (`exists_widen`). Where a label has one path,
it is also all of its paths (`Token.value_widened`), so the values stay. Where it has several, they
are the value of the location that was made to ask for them. -/
theorem widening_keeps_commands :
    (∀ {rule : Rule} {resolve : Resolver} {vars : Variables} {command : String},
      compile rule resolve vars = .ok command → ∀ chosen : Token → Bool,
        ∃ text, widen rule.command chosen = .ok text ∧
          compile { rule with command := text } resolve vars = .ok command) ∧
    ∀ {template : String} {deps : Dependencies} {vars : Variables} {before after : List Token}
      {token : Token} {label : String} {count : Nat},
      (Reading.ofText template).fault? = none →
      (Reading.ofText template).tokens = before ++ token :: after →
      token.lexeme = .directive ⟨.location, some label⟩ →
      token.lexeme.value deps vars = .error (.multipleFiles label count) →
      (∀ other ∈ before ++ after, ∃ value, other.lexeme.value deps vars = .ok value) →
        ∃ text paths front back, widen template (fun other => other = token) = .ok text ∧
          FirstDeclares deps.declarations label paths ∧ paths.length = count ∧ 2 ≤ count ∧
          before.mapM (fun other => other.lexeme.value deps vars) = .ok front ∧
          after.mapM (fun other => other.lexeme.value deps vars) = .ok back ∧
          expand text deps vars = .ok ⟨String.join (front ++ " ".intercalate paths :: back),
            (before ++ after).any fun other => other.lexeme.hasKind .depfile⟩ := by
  constructor
  · intro rule resolve vars command hcompile chosen
    obtain ⟨-, hresolvable, expansion, hexpand, -⟩ := compile_eq_ok_iff.mp hcompile
    obtain ⟨text, hwiden, hexpandText⟩ := exists_widen_of_expand hexpand chosen
    refine ⟨text, hwiden, ?_⟩
    have hwidened : Resolvable { rule with command := text } resolve :=
      ⟨hresolvable.tools, hresolvable.toolFiles, hresolvable.sources⟩
    have hexpansion : rule.expansion resolve vars =
        Rule.expansion { rule with command := text } resolve vars := by
      rw [hresolvable.expansion_eq, hwidened.expansion_eq, hexpand]
      exact hexpandText.symm
    have hsame : compile rule resolve vars =
        compile { rule with command := text } resolve vars := compile_congr Iff.rfl rfl hexpansion
    rw [← hsame, hcompile]
  · intro template deps vars before after token label count h htokens hlexeme hvalue hothers
    obtain ⟨text, hwiden, hwidened⟩ := exists_widen h fun other => other = token
    rw [hlexeme] at hvalue
    obtain ⟨paths, hfirst, hcount, hseveral, hlocations⟩ :=
      Dependencies.exists_locations_of_multipleFiles hvalue
    have hnone : ∀ other ∈ before ++ after, ∀ e, other.lexeme.value deps vars ≠ .error e := by
      intro other hother e herror
      obtain ⟨value, hvalue⟩ := hothers other hother
      cases hvalue.symm.trans herror
    rw [List.forall_mem_append] at hothers hnone
    obtain ⟨front, hfront⟩ := exists_mapM_eq_ok_iff.mpr hnone.1
    obtain ⟨back, hback⟩ := exists_mapM_eq_ok_iff.mpr hnone.2
    refine ⟨text, paths, front, back, hwiden, hfirst, hcount, hseveral, hfront, hback, ?_⟩
    rw [hwidened, htokens, List.mapM_append, List.mapM_cons,
      mapM_value_widened hothers.1, mapM_value_widened hothers.2, hfront, hback,
      Token.lexemeWith_widened?_of_chosen hlexeme (by simp),
      show Lexeme.value deps vars (.directive ⟨.locations, some label⟩) = _ from hlocations]
    simp [bind, Except.bind, pure, Except.pure, hlexeme, Lexeme.hasKind]

/-- A label with a blank, a dollar sign and a character of two bytes, behind another location: with
one path the command stays, and with two both are given. -/
theorem widening_keeps_commands_of_group :
    let resolve (paths : List String) : Resolver :=
      (Catalog.ofList [("p", .files ["x"]), ("g $é", .files paths)]).resolve
    let rule : Rule :=
      ⟨"gen", "$(location p)$(location g $é)", ["out"], ["p", "g $é"], [], [], false⟩
    let token : Token := ⟨13, 30, .directive ⟨.location, some "g $é"⟩⟩
    let text := "$(location p)$(locations g $é)"
    widen rule.command (fun other => other = token) = .ok text ∧
      compile { rule with command := text } (resolve ["u"]) {} = .ok "'xu'" ∧
      expand text (rule.resolved (resolve ["u", "v"])) {} = .ok ⟨"xu v", false⟩ := by
  intro resolve rule token text
  have first : (Piece.ofDirective "location p".toList ⟨.location, some "p"⟩).IsWritten :=
    .directive (by decide) rfl
  have second : (Piece.ofDirective "location g $é".toList ⟨.location, some "g $é"⟩).IsWritten :=
    .directive (by decide) rfl
  have hreading : Reading.ofText "$(location p)$(location g $é)" =
      ⟨[.ofDirective "location p".toList ⟨.location, some "p"⟩,
        .ofDirective "location g $é".toList ⟨.location, some "g $é"⟩], none⟩ :=
    reads_iff.mp (.piece first (by simp [Lexeme.isLiteral, Piece.ofDirective])
      (.piece second (by simp) .done))
  have hsplice : splice rule.command.toList ((Reading.ofText rule.command).tokens.filterMap
      (Token.widening? fun other => other = token)) = .ok text.toList := by
    simp only [rule, token, text, hreading]
    decide +kernel
  have hwiden : widen rule.command (fun other => other = token) = .ok text := by
    rw [widen, hsplice, Except.map, String.ofList_toList]
  have hcollect : Dependencies.collect rule (resolve ["u"]) =
      .ok (rule.resolved (resolve ["u"])) := rfl
  have hexpand : expand rule.command (rule.resolved (resolve ["u"])) {} = .ok ⟨"xu", false⟩ := by
    rw [expand, hreading]
    rfl
  have hcompile := compile_eq_ok_of_expand (by simp [rule]) hcollect hexpand rfl (by decide)
  obtain ⟨one, hone, hcommand⟩ := widening_keeps_commands.1 hcompile fun other => other = token
  cases hwiden.symm.trans hone
  have htokens : (Reading.ofText rule.command).tokens =
      [⟨0, 13, .directive ⟨.location, some "p"⟩⟩] ++ token :: [] := by
    rw [hreading]
    rfl
  have hothers : ∀ other ∈ ([⟨0, 13, .directive ⟨.location, some "p"⟩⟩] : List Token) ++ [],
      ∃ value, other.lexeme.value (rule.resolved (resolve ["u", "v"])) {} = .ok value :=
    List.forall_mem_singleton.mpr ⟨"x", rfl⟩
  obtain ⟨several, paths, front, back, hseveral, hfirst, -, -, hfront, hback, h⟩ :=
    widening_keeps_commands.2 (by rw [hreading]) htokens rfl rfl hothers
  cases hwiden.symm.trans hseveral
  cases hfront
  cases hback
  obtain rfl : ["u", "v"] = paths :=
    Option.some.inj (lookup_eq_some_iff_firstDeclares.mpr hfirst)
  exact ⟨hwiden, hcommand, h⟩

end RuleCommand
