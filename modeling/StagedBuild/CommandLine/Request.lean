import StagedBuild.CommandLine.Arguments

/-!
# Requests

What a command line asks for.

## Main definitions

* `Request`: the five commands with their arguments.
* `ShellVariables`: the environment variables that count.
* `Request.parse`: the request that a command line makes.
-/

namespace StagedBuild

inductive PlanFormat where
  | json
  | markdown
  | outline
deriving DecidableEq, Repr

/-- What `plan` is asked. -/
structure PlanRequest where
  root : String
  mode : Option String
  legacy : Bool
  typescript : Bool
  /-- The targets to plan; none stands for all. -/
  targets : List String
  format : PlanFormat
  /-- The directory to write the plan to, instead of printing it. -/
  outDir : Option String
deriving DecidableEq, Repr

/-- A command with its arguments. -/
inductive Request where
  | plan (request : PlanRequest)
  | resolve (specifier root : String)
  | filterDiagnostics (root : String)
  | explain (stage : String)
  | listStages (asJson : Bool)
deriving DecidableEq, Repr

/-- The environment variables that stand in for options. -/
structure ShellVariables where
  /-- Stands in for `--mode`. -/
  nodeEnv : Option String := none
  /-- Stands in for `--legacy`. -/
  legacyBuild : Option String := none
deriving DecidableEq, Repr

namespace ShellVariables

/-- The words that switch a variable off, in lower case. -/
def offWords : List String := ["n", "no", "f", "false", "off", "0"]

/-- A variable is on unless it is empty or one of the words that switch it off. -/
def isOn (text : String) : Bool :=
  text ≠ "" && !offWords.contains (String.ofList (text.toList.map Char.toLower))

end ShellVariables

namespace Request

def planGrammar : CommandGrammar where
  options := [("root", .value), ("mode", .value), ("legacy", .flag), ("typescript", .flag),
    ("target", .values), ("format", .choice ["json", "md", "text"]), ("out-dir", .value)]
  plainCount := 0

def resolveGrammar : CommandGrammar where
  options := [("root", .value)]
  plainCount := 1

def filterGrammar : CommandGrammar where
  options := [("root", .value)]
  plainCount := 0

def explainGrammar : CommandGrammar where
  options := []
  plainCount := 1

def listGrammar : CommandGrammar where
  options := [("format", .choice ["text", "json"])]
  plainCount := 0

/-- The project's root directory that was given, or else the current one. -/
def rootOf (given : GivenArguments) : String :=
  (given.value? "root").getD "."

def formatOf (given : GivenArguments) : PlanFormat :=
  match given.value? "format" with
  | some "md" => .markdown
  | some "text" => .outline
  | _ => .json

/-- The request for a plan. Options win over environment variables. -/
def ofPlanArguments (shell : ShellVariables) (given : GivenArguments) : PlanRequest where
  root := rootOf given
  mode := (given.value? "mode").or shell.nodeEnv
  legacy := given.has "legacy" || (shell.legacyBuild.map ShellVariables.isOn).getD false
  typescript := given.has "typescript"
  targets := given.values "target"
  format := formatOf given
  outDir := given.value? "out-dir"

/-- The one plain argument of a command. -/
def onlyPlain (given : GivenArguments) : Except ReadingStop String :=
  match given.plain with
  | [word] => .ok word
  | _ => .error .misuse

def commands : List String :=
  ["plan", "resolve", "filter-diagnostics", "explain", "list-stages", "help"]

/-- Help is asked for on the whole or on one command. -/
def parseHelp : List String → ReadingStop
  | [] => .help
  | [command] => if commands.contains command then .help else .misuse
  | _ => .misuse

def parseCommand (shell : ShellVariables) (command : String) (words : List String) :
    Except ReadingStop Request :=
  match command with
  | "plan" => do
    return .plan (ofPlanArguments shell (← planGrammar.read words))
  | "resolve" => do
    let given ← resolveGrammar.read words
    return .resolve (← onlyPlain given) (rootOf given)
  | "filter-diagnostics" => do
    return .filterDiagnostics (rootOf (← filterGrammar.read words))
  | "explain" => do
    return .explain (← onlyPlain (← explainGrammar.read words))
  | "list-stages" => do
    let given ← listGrammar.read words
    return .listStages (given.value? "format" == some "json")
  | "help" => .error (parseHelp words)
  | _ => .error .misuse

def parse (shell : ShellVariables) : List String → Except ReadingStop Request
  | [] => .error .misuse
  | word :: words =>
    match word.toList with
    | ['-', '-', 'h', 'e', 'l', 'p'] => .error .help
    | ['-', '-', 'v', 'e', 'r', 's', 'i', 'o', 'n'] => .error .version
    | '-' :: 'h' :: _ => .error .help
    | '-' :: 'V' :: _ => .error .version
    | _ => parseCommand shell word words

end Request
end StagedBuild
