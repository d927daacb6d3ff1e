import RuleCommand.Main
import RuleCommand.Template.Cursor
import RuleCommand.Proofs.Template.Derivation
import RuleCommand.Proofs.Template.DirectiveBody
import RuleCommand.Proofs.Template.Grammar
import RuleCommand.Proofs.Template.CursorRun
import RuleCommand.Proofs.Template.Tiling
import RuleCommand.Proofs.Outcome
import RuleCommand.Proofs.Rule.Declarations
import RuleCommand.Proofs.Template.Splice
import RuleCommand.Proofs.Rule.Expansion
import RuleCommand.Proofs.Rule.Acceptance
import RuleCommand.Proofs.ShellQuoting
import RuleCommand.Proofs.Rule.DepfileToken
import RuleCommand.Proofs.Rule.Concatenation
import RuleCommand.Proofs.ShellReading
import RuleCommand.Proofs.Rule.Rejection
import RuleCommand.Proofs.Rule.Dollars
import RuleCommand.Proofs.Rule.Dependence
import RuleCommand.Proofs.Rule.Order
import RuleCommand.Proofs.Rule.Extension
import RuleCommand.Proofs.CommandLine.Run
import RuleCommand.Proofs.Rule.Locations
import RuleCommand.Proofs.Rule.Redeclaration
import RuleCommand.Proofs.Template.Faults
import RuleCommand.Proofs.Template.Rewriting
import RuleCommand.Proofs.Rule.AllPaths
import RuleCommand.Proofs.Template.Spelling
import RuleCommand.Proofs.Rule.Respacing
import RuleCommand.Proofs.Template.Diagnostics
import RuleCommand.Proofs.CommandLine.Accounting
import RuleCommand.Proofs.CommandLine.Provision
import RuleCommand.Proofs.CommandLine.Bindings
import RuleCommand.Proofs.Template.Slices
import RuleCommand.Proofs.Rule.Lockstep
import RuleCommand.Proofs.CommandLine.Listings
