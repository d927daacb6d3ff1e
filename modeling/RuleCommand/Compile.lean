import RuleCommand.Expansion

set_option autoImplicit false

/-!
# Compiling a rule

The command of a rule is compiled to one word for a shell: the outputs are checked, the references
are resolved, the template is expanded, and what it says of the dependency file is checked. The
expanded text becomes one word of a POSIX shell by standing between single quotes, where every
character but the single quote means itself. A single quote in the text closes the quotes, stands
escaped outside them, and opens them again.

## Main definitions

* `RuleCommand.ShellWord.escape` — the written form of one character.
* `RuleCommand.ShellWord.quote` — a text as one word.
* `RuleCommand.checkOutputs`, `RuleCommand.checkDepfile` — the two checks.
* `RuleCommand.compile` — the command of a rule.
-/

namespace RuleCommand

/-! ## Shell words -/

namespace ShellWord

/-- The written form of one character between single quotes. -/
def escape (c : Char) : List Char :=
  if c = '\'' then ['\'', '\\', '\'', '\''] else [c]

/-- A text as one word. -/
def quote (text : String) : String :=
  String.ofList ('\'' :: (text.toList.flatMap escape ++ ['\'']))

@[simp] theorem toList_quote (text : String) :
    (quote text).toList = '\'' :: (text.toList.flatMap escape ++ ['\'']) := by
  simp [quote]

end ShellWord

/-! ## Rules -/

/-- A rule has to produce something. -/
def checkOutputs (rule : Rule) : Except CompileError Unit :=
  if rule.outputs = [] then .error .missingOutput else .ok ()

/-- A rule has to declare a dependency file exactly if its template refers to one. Without the
declaration the placeholder may not even occur in the text, wherever it comes from. -/
def checkDepfile (rule : Rule) (expansion : Expansion) : Except CompileError Unit :=
  if rule.depfile then
    if expansion.usesDepfile then .ok () else .error (.depfileMismatch .flaggedWithoutUse)
  else if expansion.usesDepfile || expansion.text.contains Placeholder.depfile.text then
    .error (.depfileMismatch .usedWithoutFlag)
  else .ok ()

/-- The command of a rule as one word for a shell, or the first error on the way. -/
def compile (rule : Rule) (resolve : Resolver) (vars : Variables) :
    Except CompileError String := do
  checkOutputs rule
  let deps ← Dependencies.collect rule resolve
  let expansion ← expand rule.command deps vars
  checkDepfile rule expansion
  return ShellWord.quote expansion.text

end RuleCommand
