import StagedBuild.Json.Basic
import StagedBuild.Json.Token

/-!
# Reading JSON

Tokens are put together by a machine with a stack of open containers. It takes one token at a time,
so a text is read from left to right without looking ahead.

## Main definitions

* `JsonFrame`: an open container with what it holds so far.
* `JsonReader`: the stack, and what may come next.
* `JsonReader.step`: what one token does.
* `Json.parse?`: the value of a text that is one JSON value, with white space around it.
-/

namespace StagedBuild

/-- An open container. What it holds so far is listed last first. -/
inductive JsonFrame where
  | array (items : List Json)
  /-- No members once a name has been met that has no text. -/
  | object (members : Option (List (String × Json)))
  /-- An object whose next member has its name and still lacks its value. -/
  | member (members : Option (List (String × Json))) (name : Option String)

inductive JsonExpect where
  | value
  | valueOrClose
  | commaOrClose
  | name
  | nameOrClose
  | colon
  /-- The outermost value is complete. -/
  | nothing (value : Json)

/-- The machine's state: the open containers, innermost first, and what may come next. -/
structure JsonReader where
  stack : List JsonFrame
  expect : JsonExpect

namespace JsonReader

def start : JsonReader := ⟨[], .value⟩

/-- The state after a complete value. -/
def complete (stack : List JsonFrame) (value : Json) : Option JsonReader :=
  match stack with
  | [] => some ⟨[], .nothing value⟩
  | .array items :: rest => some ⟨.array (value :: items) :: rest, .commaOrClose⟩
  | .member members name :: rest =>
    let members := members.bind fun members => name.map fun name => (name, value) :: members
    some ⟨.object members :: rest, .commaOrClose⟩
  | .object _ :: _ => none

/-- A container inside `enclosing` others, or no value when it is nested too deeply. -/
def sealed (enclosing : Nat) (container : Json) : Json :=
  if enclosing < Json.nestingLimit then container else .unreadable

def closeArray : List JsonFrame → Option JsonReader
  | .array items :: rest => complete rest (sealed rest.length (.array items.reverse))
  | _ => none

def closeObject : List JsonFrame → Option JsonReader
  | .object (some members) :: rest =>
    complete rest (sealed rest.length (.object members.reverse))
  | .object none :: rest => complete rest .unreadable
  | _ => none

/-- The value of a literal token that is a whole value. -/
def literal? : JsonToken → Option Json
  | .null => some .null
  | .bool b => some (.bool b)
  | .number n =>
    some (if n.inRange then (n.natural?.map Json.natural).getD .otherNumber else .unreadable)
  | .string (some s) => some (.string s)
  | .string none => some .unreadable
  | _ => none

/-- The state after a token where a value may stand. -/
def takeValue (stack : List JsonFrame) : JsonToken → Option JsonReader
  | .openBracket => some ⟨.array [] :: stack, .valueOrClose⟩
  | .openBrace => some ⟨.object (some []) :: stack, .nameOrClose⟩
  | token => (literal? token).bind (complete stack)

/-- The state after a token where a member's name may stand. -/
def takeName : List JsonFrame → JsonToken → Option JsonReader
  | .object members :: rest, .string name => some ⟨.member members name :: rest, .colon⟩
  | _, _ => none

/-- The state after one more token, if it may stand here. -/
def step (reader : JsonReader) (token : JsonToken) : Option JsonReader :=
  match reader.expect with
  | .value => takeValue reader.stack token
  | .valueOrClose =>
    if token = .closeBracket then closeArray reader.stack else takeValue reader.stack token
  | .commaOrClose =>
    match reader.stack, token with
    | .array _ :: _, .comma => some { reader with expect := .value }
    | .object _ :: _, .comma => some { reader with expect := .name }
    | .array _ :: _, .closeBracket => closeArray reader.stack
    | .object _ :: _, .closeBrace => closeObject reader.stack
    | _, _ => none
  | .name => takeName reader.stack token
  | .nameOrClose =>
    if token = .closeBrace then closeObject reader.stack else takeName reader.stack token
  | .colon => if token = .colon then some { reader with expect := .value } else none
  | .nothing _ => none

/-- The value that the tokens from a state on complete. -/
def run : JsonReader → List JsonToken → Option Json
  | reader, [] =>
    match reader.expect with
    | .nothing value => some value
    | _ => none
  | reader, token :: rest =>
    match reader.step token with
    | none => none
    | some next => run next rest

end JsonReader

/-- The value that a text spells, if it is one JSON value with white space around it. -/
def Json.parse? (text : String) : Option Json :=
  (scanJson text).bind (JsonReader.start.run ·)

end StagedBuild
