import RuleCommand.CommandLine.Failure

set_option autoImplicit false

/-!
# The program

The program compiles the rule that its command line describes and prints the command.

## Main definitions

* `RuleCommand.Outcome` — what a run of the program leaves behind.
* `RuleCommand.Program.run` — a run of the program.
-/

namespace RuleCommand

/-- What a run of the program leaves behind. -/
structure Outcome where
  /-- The exit code. -/
  code : Nat
  /-- What is printed as the result. -/
  stdout : String
  /-- What is printed besides it. -/
  stderr : String
deriving DecidableEq, Repr

namespace Program

/-- The help text. -/
def help : String :=
  String.join
    [ "usage: genrule [options] --cmd TEMPLATE\n",
      "\n",
      "options:\n",
      "  --name NAME                      rule name [default: genrule]\n",
      "  -o, --out FILE                   declared output (repeatable)\n",
      "  -s, --src LABEL                  source reference (repeatable)\n",
      "  -t, --tool LABEL                 tool reference (repeatable)\n",
      "  -f, --tool-file LABEL            tool file reference (repeatable)\n",
      "  --depfile                        the command writes a depfile\n",
      "  --var NAME=VALUE                 define $(NAME) (repeatable)\n",
      "  --provide-tool LABEL=PATH        resolve LABEL to a host tool\n",
      "  --provide-files LABEL=PATH,...   resolve LABEL to a group of files\n",
      "  -d MODE                          debugging modes: directives, deps\n",
      "  -v, --verbose                    log more (also see RUST_LOG)\n",
      "  -h, --help                       print this help\n" ]

/-- Whether help is asked for, by any word. -/
def asksForHelp (words : List String) : Bool :=
  "-h" ∈ words || "--help" ∈ words

/-- The words without the first request for more messages: the short spelling is looked for before
the long one. -/
def withoutVerbose (words : List String) : List String :=
  ((takeFlag "-v" words).orElse fun _ => takeFlag "--verbose" words).getD words

/-- The end of a run that failed. -/
def fail (failure : Failure) : Outcome :=
  ⟨1, "", failure.report⟩

/-- A run on a configuration: the listings that it asks for are printed first. -/
def runConfig (config : Config) : Outcome :=
  let listings := String.join (config.debugModes.map config.listing)
  match config.compile with
  | .ok command => ⟨0, command ++ "\n", listings⟩
  | .error error =>
    let failed := fail (.rule config.rule.name error)
    { failed with stderr := listings ++ failed.stderr }

/-- A run of the program on the words of its command line. -/
def run (words : List String) : Outcome :=
  if asksForHelp words then ⟨0, help, ""⟩
  else
    match parseConfig (withoutVerbose words) with
    | .error error => fail (.arguments error)
    | .ok (config, []) => runConfig config
    | .ok (_, rest) => fail (.unexpected rest)

end Program

end RuleCommand
