/-!
# Reading a command line

A command has options, each written as a word that begins with two dashes, and a fixed number of
plain arguments. Options and plain arguments may be mixed; after the word `--` all are plain.

## Main definitions

* `OptionKind`, `CommandGrammar`: what a command understands.
* `GivenArguments`: what it was given.
* `CommandGrammar.read`: reading the words from left to right.

## Design notes

The value of an option is the next word, or follows a `=` in the same word. A next word that begins
with a dash is no value, unless it is a single dash. The first word that asks for help or cannot
stand where it stands decides the outcome.
-/

namespace StagedBuild

/-- What an option takes. -/
inductive OptionKind where
  /-- Nothing; the option is given or not. -/
  | flag
  | value
  /-- A text, and the option may be given again. -/
  | values
  /-- One of the listed words. -/
  | choice (words : List String)
deriving DecidableEq, Repr

structure CommandGrammar where
  /-- The options by their names without dashes. -/
  options : List (String × OptionKind)
  plainCount : Nat
deriving DecidableEq, Repr

/-- What a command was given. -/
structure GivenArguments where
  /-- The options in order, each with its value; flags have an empty one. -/
  options : List (String × String) := []
  plain : List String := []
deriving DecidableEq, Repr

/-- Why the words of a command line do not make a request. -/
inductive ReadingStop where
  | help
  | version
  | misuse
deriving DecidableEq, Repr

namespace GivenArguments

def has (given : GivenArguments) (name : String) : Bool :=
  given.options.any (·.1 == name)

/-- The value of an option that is given once at most. -/
def value? (given : GivenArguments) (name : String) : Option String :=
  given.options.lookup name

def values (given : GivenArguments) (name : String) : List String :=
  (given.options.filter (·.1 == name)).map (·.2)

end GivenArguments

/-- The name of an option's word, and the value that follows a `=` in it. -/
def splitOption (word : List Char) : String × Option String :=
  let name := String.ofList (word.takeWhile (· ≠ '='))
  match word.dropWhile (· ≠ '=') with
  | [] => (name, none)
  | _ :: value => (name, some (String.ofList value))

/-- A word that may be the value of the option before it. -/
def mayBeValue (word : String) : Bool :=
  word = "-" || word.toList.head? != some '-'

namespace CommandGrammar

def takePlain (grammar : CommandGrammar) (given : GivenArguments) (word : String) :
    Except ReadingStop GivenArguments :=
  if given.plain.length < grammar.plainCount then
    .ok { given with plain := given.plain ++ [word] }
  else .error .misuse

def takeOption (given : GivenArguments) (name value : String) (kind : OptionKind) :
    Except ReadingStop GivenArguments :=
  let next := { given with options := given.options ++ [(name, value)] }
  match kind with
  | .values => .ok next
  | .flag | .value => if given.has name then .error .misuse else .ok next
  | .choice words =>
    if given.has name || !words.contains value then .error .misuse else .ok next

/-- Read the words after those that have been given. An option whose value is still due is
`pending`. -/
def readFrom (grammar : CommandGrammar) (pending : Option (String × OptionKind))
    (given : GivenArguments) : List String → Except ReadingStop GivenArguments
  | [] => if pending.isSome then .error .misuse else .ok given
  | word :: rest =>
    match pending with
    | some (name, kind) =>
      if mayBeValue word then do
        grammar.readFrom none (← takeOption given name word kind) rest
      else .error .misuse
    | none =>
      match word.toList with
      | ['-', '-'] => rest.foldlM grammar.takePlain given
      | '-' :: '-' :: letters =>
        let (name, attached) := splitOption letters
        if name = "help" then .error (if attached.isSome then .misuse else .help)
        else
          match grammar.options.lookup name, attached with
          | none, _ => .error .misuse
          | some .flag, some _ => .error .misuse
          | some .flag, none => do
            grammar.readFrom none (← takeOption given name "" .flag) rest
          | some kind, some value => do
            grammar.readFrom none (← takeOption given name value kind) rest
          | some kind, none => grammar.readFrom (some (name, kind)) given rest
      | ['-'] => do grammar.readFrom none (← grammar.takePlain given word) rest
      | '-' :: letter :: _ => .error (if letter = 'h' then .help else .misuse)
      | _ => do grammar.readFrom none (← grammar.takePlain given word) rest

def read (grammar : CommandGrammar) (words : List String) : Except ReadingStop GivenArguments :=
  grammar.readFrom none {} words

end CommandGrammar
end StagedBuild
