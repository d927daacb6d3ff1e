set_option autoImplicit false

/-!
# Rules

A rule generates files by running a command. It names what it produces and what it needs, and gives
the command as a template. It refers to the things it needs by labels. What a label stands for is
known to whoever owns the build graph; a rule is compiled against any function that answers for
labels. The template may refer to variables by name, of which the values are inserted as they are.

## Main definitions

* `RuleCommand.Rule` — a rule.
* `RuleCommand.Resource` — what a label can stand for.
* `RuleCommand.Resolver` — a function that answers for labels.
* `RuleCommand.Catalog` — a resolver given by a table, in which the latest entry for a label
  counts.
* `RuleCommand.Variables` — the bindings of names to values, of which the latest for a name
  counts.

## Main results

* `RuleCommand.lookup_cons_eq_ite` — the first entry of a table counts for its key.
* `RuleCommand.Catalog.resolve_register` — a new entry counts for its label and for no other.
* `RuleCommand.Variables.lookup_bind` — a new binding counts for its name and for no other.
-/

namespace RuleCommand

/-! ## Rules -/

/-- A rule that generates files by running a command. -/
structure Rule where
  /-- The name of the rule. -/
  name : String
  /-- The template of its command. -/
  command : String
  /-- The files that it produces. -/
  outputs : List String := []
  /-- The labels of the files that it reads. -/
  sources : List String := []
  /-- The labels of the tools that it runs. -/
  tools : List String := []
  /-- The labels of the files that it uses as tools. -/
  toolFiles : List String := []
  /-- Whether its command writes a dependency file. -/
  depfile : Bool := false
deriving DecidableEq, Repr, Inhabited

/-! ## Tables -/

/-- The first entry of a table counts for its key and for no other. -/
theorem lookup_cons_eq_ite {β : Type} {entry : String × β} {entries : List (String × β)}
    {key : String} :
    (entry :: entries).lookup key = if key = entry.1 then some entry.2 else entries.lookup key := by
  rw [List.lookup_cons]
  by_cases hkey : key = entry.1
  · rw [if_pos hkey, beq_iff_eq.mpr hkey]
  · rw [if_neg hkey, beq_false_of_ne hkey]

/-! ## Labels -/

/-- What a label stands for. -/
inductive Resource where
  /-- Something that runs on the host, at a path. -/
  | tool (path : String)
  /-- Any number of files, in order. -/
  | files (paths : List String)
deriving DecidableEq, Repr

/-- A function that tells what labels stand for, where they stand for anything. -/
abbrev Resolver := String → Option Resource

/-- A table of labels. The latest entry comes first. -/
structure Catalog where
  /-- The labels with what they stand for. -/
  entries : List (String × Resource) := []
deriving Repr, Inhabited

namespace Catalog

/-- A catalog with one more entry, which counts from now on. -/
def register (catalog : Catalog) (label : String) (resource : Resource) : Catalog :=
  ⟨(label, resource) :: catalog.entries⟩

/-- A catalog of entries given in the order in which they were made. -/
def ofList (entries : List (String × Resource)) : Catalog :=
  ⟨entries.reverse⟩

/-- What a label stands for in a catalog. -/
def resolve (catalog : Catalog) : Resolver :=
  fun label => catalog.entries.lookup label

/-- A new entry counts for its label and for no other. -/
theorem resolve_register (catalog : Catalog) (label other : String) (resource : Resource) :
    (catalog.register label resource).resolve other =
      if other = label then some resource else catalog.resolve other :=
  lookup_cons_eq_ite

end Catalog

/-! ## Variables -/

/-- Bindings of names to values. The latest comes first. -/
structure Variables where
  /-- The names with their values. -/
  bindings : List (String × String) := []
deriving Repr, Inhabited

namespace Variables

/-- The variables with one more binding, which counts from now on. -/
def bind (vars : Variables) (name value : String) : Variables :=
  ⟨(name, value) :: vars.bindings⟩

/-- The variables bound by a list in which later bindings count. -/
def ofList (bindings : List (String × String)) : Variables :=
  ⟨bindings.reverse⟩

/-- The value of a name. -/
def lookup (vars : Variables) (name : String) : Option String :=
  vars.bindings.lookup name

/-- A new binding counts for its name and for no other. -/
theorem lookup_bind (vars : Variables) (name other value : String) :
    (vars.bind name value).lookup other =
      if other = name then some value else vars.lookup other :=
  lookup_cons_eq_ite

end Variables

end RuleCommand
