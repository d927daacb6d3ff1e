import RuleCommand.Proofs.Rule.Acceptance

set_option autoImplicit false

/-!
# Rules that are extended

A rule that is compiled goes on to be compiled, to the same command, when it is given more outputs
and more sources and is compiled with a resolver and variables that know more. What was declared
stays the first declaration of its name, since new sources are declared behind everything else,
even if they repeat a name that is in use.

## Main definitions

* `RuleCommand.Rule.extend` — a rule with more outputs and sources.
* `RuleCommand.Resolver.Extends`, `RuleCommand.Variables.Extends` — resolvers and variables that
  know more.

## Main results

* `RuleCommand.Resolvable.declarations_extend` — new sources are declared behind everything else.
* `RuleCommand.HasValue.extend` — a directive keeps the value it has.
* `RuleCommand.compile_extend` — a rule keeps the command it has.
-/

namespace RuleCommand

/-! ## Extensions -/

/-- A rule with more outputs and, behind its own, more sources. -/
def Rule.extend (rule : Rule) (outputs sources : List String) : Rule :=
  { rule with outputs := rule.outputs ++ outputs, sources := rule.sources ++ sources }

/-- A resolver that answers like another one wherever that has an answer. -/
def Resolver.Extends (larger resolve : Resolver) : Prop :=
  ∀ label resource, resolve label = some resource → larger label = some resource

/-- Variables that have the values of others wherever these have one. -/
def Variables.Extends (larger vars : Variables) : Prop :=
  ∀ name value, vars.lookup name = some value → larger.lookup name = some value

/-- A catalog knows more with an entry for a label that stood for nothing. -/
lemma Catalog.extends_register {catalog : Catalog} {label : String}
    (h : catalog.resolve label = none) (resource : Resource) :
    Resolver.Extends (catalog.register label resource).resolve catalog.resolve := by
  intro other found hfound
  rw [resolve_register, if_neg, hfound]
  rintro rfl
  rw [h] at hfound
  cases hfound

/-- Variables know more with a binding of a name that was not bound. -/
lemma Variables.extends_bind {vars : Variables} {name : String} (h : vars.lookup name = none)
    (value : String) : (vars.bind name value).Extends vars := by
  intro other found hfound
  rw [lookup_bind, if_neg, hfound]
  rintro rfl
  rw [h] at hfound
  cases hfound

variable {rule : Rule} {resolve larger : Resolver} {vars more : Variables}
  {outputs sources : List String}

/-! ## Declarations -/

/-- A label that stands for something goes on to stand for the same paths. -/
lemma Resolver.Extends.expansionOf_eq (h : larger.Extends resolve) {label : String}
    (hlabel : ∃ resource, resolve label = some resource) :
    expansionOf larger label = expansionOf resolve label := by
  obtain ⟨resource, hresource⟩ := hlabel
  rw [expansionOf, expansionOf, h label resource hresource, hresource]

namespace Resolvable

/-- The references of an extended rule can be resolved if the new ones can. -/
lemma extend (h : Resolvable rule resolve) (hresolve : larger.Extends resolve)
    (hsources : ∀ label ∈ sources, ∃ resource, larger label = some resource) :
    Resolvable (rule.extend outputs sources) larger where
  tools := by
    intro label hlabel
    obtain ⟨path, hpath⟩ := h.tools label hlabel
    exact ⟨path, hresolve label _ hpath⟩
  toolFiles := by
    intro label hlabel
    obtain ⟨resource, hresource⟩ := h.toolFiles label hlabel
    exact ⟨resource, hresolve label _ hresource⟩
  sources := by
    intro label hlabel
    rcases List.mem_append.mp hlabel with hlabel | hlabel
    · obtain ⟨resource, hresource⟩ := h.sources label hlabel
      exact ⟨resource, hresolve label _ hresource⟩
    · exact hsources label hlabel

/-- What the labels of a rule stand for stays the same. -/
lemma expansionOf_eq (h : Resolvable rule resolve) (hresolve : larger.Extends resolve) :
    ∀ label ∈ rule.labels, expansionOf larger label = expansionOf resolve label :=
  fun _ hlabel => hresolve.expansionOf_eq (h.exists_resource hlabel)

/-- New sources are declared behind everything else. -/
theorem declarations_extend (h : Resolvable rule resolve) (hresolve : larger.Extends resolve)
    (outputs sources : List String) :
    (rule.extend outputs sources).declarations larger =
      rule.declarations resolve ++ fileDeclarations larger sources := by
  have hsame := h.expansionOf_eq hresolve
  rw [Rule.labels, List.forall_mem_append] at hsame
  have htools : rule.tools.map (fun label => (label, expansionOf larger label)) =
      rule.tools.map fun label => (label, expansionOf resolve label) :=
    List.map_congr_left fun label hlabel => by rw [hsame.1 label hlabel]
  have hfiles : fileDeclarations larger (rule.toolFiles ++ rule.sources) =
      fileDeclarations resolve (rule.toolFiles ++ rule.sources) :=
    List.flatMap_congr fun label hlabel => by rw [hsame.2 label hlabel]
  rw [Rule.declarations_eq, Rule.declarations_eq, Rule.extend, htools, ← hfiles,
    ← List.append_assoc rule.toolFiles, fileDeclarations, List.flatMap_append, List.append_assoc]
  rfl

end Resolvable

/-- The first declaration of a name stays the first when more declarations follow. -/
lemma FirstDeclares.append {declarations : List (String × List String)} {name : String}
    {paths : List String} (h : FirstDeclares declarations name paths)
    (others : List (String × List String)) : FirstDeclares (declarations ++ others) name paths := by
  obtain ⟨before, after, rfl, hbefore⟩ := h
  exact ⟨before, after ++ others, by simp, hbefore⟩

/-! ## Values -/

/-- **A directive keeps the value it has** when a rule is extended. -/
theorem HasValue.extend (h : Resolvable rule resolve) (hresolve : larger.Extends resolve)
    (hvars : more.Extends vars) {d : Directive} {text : String}
    (hvalue : HasValue rule resolve vars d text) :
    HasValue (rule.extend outputs sources) larger more d text := by
  have hsame := h.expansionOf_eq hresolve
  have hfirst : ∀ {name paths}, FirstDeclares (rule.declarations resolve) name paths →
      FirstDeclares ((rule.extend outputs sources).declarations larger) name paths := by
    intro name paths hname
    rw [h.declarations_extend hresolve]
    exact hname.append _
  cases hvalue with
  | onlyTool htools hlabel => exact .onlyTool htools (hresolve _ _ hlabel)
  | onlyToolFile htools hpaths =>
    have htoolFiles : rule.toolFiles.flatMap (expansionOf larger) =
        rule.toolFiles.flatMap (expansionOf resolve) :=
      List.flatMap_congr fun label hlabel => hsame label (by simp [Rule.labels, hlabel])
    refine .onlyToolFile htools ?_
    rwa [← htoolFiles] at hpaths
  | location hname => exact .location (hfirst hname)
  | locations hname hne => exact .locations (hfirst hname) hne
  | inputs => exact .inputs
  | outputs => exact .outputs
  | depfile => exact .depfile
  | outputDir => exact .outputDir
  | var hlookup => exact .var (hvars _ _ hlookup)

/-- The template of a rule keeps its expansion when the rule is extended. -/
lemma IsExpansion.extend (h : Resolvable rule resolve) (hresolve : larger.Extends resolve)
    (hvars : more.Extends vars) {text : String} (htext : IsExpansion rule resolve vars text) :
    IsExpansion (rule.extend outputs sources) larger more text := by
  obtain ⟨value, hvalue, hsplice⟩ := htext
  exact ⟨value, fun d hd => (hvalue d hd).extend h hresolve hvars, hsplice⟩

/-! ## Commands -/

/-- **A rule keeps the command it has** when outputs are added to it, when references that can be
resolved are added behind its sources, and when the resolver and the variables know more.

**Proof sketch.** Each directive keeps its value (`HasValue.extend`), so the template keeps its
expansion, and the check of the dependency file sees the same text as before. -/
theorem compile_extend {command : String} (h : compile rule resolve vars = .ok command)
    (hresolve : larger.Extends resolve) (hvars : more.Extends vars) (outputs : List String)
    (hsources : ∀ label ∈ sources, ∃ resource, larger label = some resource) :
    compile (rule.extend outputs sources) larger more = .ok command := by
  obtain ⟨houtputs, hresolvable, expansion, hexpand, hdepfile, rfl⟩ := compile_eq_ok_iff.mp h
  obtain ⟨hfault, hexpansion, huses⟩ := (expand_resolved_eq_ok_iff hresolvable).mp hexpand
  have hextended : Resolvable (rule.extend outputs sources) larger :=
    hresolvable.extend hresolve hsources
  refine compile_eq_ok_iff.mpr ⟨?_, hextended, expansion, ?_, hdepfile, rfl⟩
  · exact List.append_ne_nil_of_left_ne_nil houtputs outputs
  · exact (expand_resolved_eq_ok_iff hextended).mpr
      ⟨hfault, hexpansion.extend hresolvable hresolve hvars, huses⟩

/-- A new source is a group of two files that are called like the tool and the source that there
are. -/
theorem compile_extend_of_collision :
    let rule : Rule := ⟨"gen", "$(location t)$(x)", ["out"], ["g"], ["t"], [], false⟩
    let catalog := Catalog.ofList [("t", .tool "bin/t"), ("g", .files ["a"])]
    let vars := Variables.bind {} "x" "v"
    compile rule catalog.resolve vars = .ok "'bin/tv'" ∧
      compile (rule.extend ["log"] ["h", "g"])
        (catalog.register "h" (.files ["t", "g"])).resolve (vars.bind "y" "w") =
          .ok "'bin/tv'" := by
  intro rule catalog vars
  have tool : (Piece.ofDirective "location t".toList ⟨.location, some "t"⟩).IsWritten :=
    .directive (by decide) rfl
  have bound : (Piece.ofDirective "x".toList ⟨.var, some "x"⟩).IsWritten :=
    .directive (by decide) rfl
  have hreading : Reading.ofText "$(location t)$(x)" =
      ⟨[.ofDirective "location t".toList ⟨.location, some "t"⟩,
        .ofDirective "x".toList ⟨.var, some "x"⟩], none⟩ :=
    reads_iff.mp (.piece tool (by simp [Lexeme.isLiteral, Piece.ofDirective])
      (.piece bound (by simp) .done))
  have hcollect : Dependencies.collect rule catalog.resolve = .ok (rule.resolved catalog.resolve) :=
    rfl
  have hexpand : expand rule.command (rule.resolved catalog.resolve) vars =
      .ok ⟨"bin/tv", false⟩ := by
    rw [expand, hreading]
    rfl
  have h := compile_eq_ok_of_expand (by simp [rule]) hcollect hexpand rfl (by decide)
  have hsources : ∀ label ∈ ["h", "g"], ∃ resource,
      (catalog.register "h" (.files ["t", "g"])).resolve label = some resource :=
    List.forall_mem_cons.mpr ⟨⟨_, rfl⟩, List.forall_mem_singleton.mpr ⟨_, rfl⟩⟩
  exact ⟨h, compile_extend h (catalog.extends_register rfl _) (vars.extends_bind rfl _) ["log"]
    hsources⟩

end RuleCommand
