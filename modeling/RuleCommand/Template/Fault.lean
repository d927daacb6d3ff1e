import RuleCommand.Text.Quoted

set_option autoImplicit false

/-!
# Faults of a template

What can be wrong with a dollar sign in a command template.

## Main definitions

* `RuleCommand.Fault` — the faults.
* `RuleCommand.Fault.message` — the text shown for one.
* `RuleCommand.Fault.lead` — how far behind the dollar sign the fault is shown.
-/

namespace RuleCommand

/-- A reason why no piece of a template starts at a dollar sign. -/
inductive Fault where
  /-- The dollar sign is the last character. -/
  | unexpectedEnd
  /-- A parenthesis follows that is never closed. -/
  | missingParen
  /-- A blank follows. -/
  | unexpectedCharacter (c : Char)
  /-- A name follows that is not in parentheses. -/
  | missingOpenParen (name : String)
  /-- Nothing but blanks stands between the parentheses. -/
  | emptyDirective
  /-- The paths of a label are asked for, but no label is given. -/
  | missingLabel
deriving DecidableEq, Repr

namespace Fault

/-- The text shown for a fault. -/
def message : Fault → String
  | unexpectedEnd => "expected character after '$'"
  | missingParen => "missing )"
  | unexpectedCharacter c => "unexpected character " ++ quoteChar c ++ " after '$'"
  | missingOpenParen name => "expected '(' after '$', did you mean $(" ++ name ++ ")?"
  | emptyDirective => "empty directive"
  | missingLabel => "$(locations) requires a label"

/-- The number of bytes from the dollar sign to the character at fault: a misplaced blank is shown
itself, in every other case the dollar sign is. -/
def lead : Fault → Nat
  | unexpectedCharacter _ => 1
  | _ => 0

end Fault

end RuleCommand
