import StagedBuild.Json.Token

/-!
# Quoted texts in configuration files

A text stands between quotation marks or apostrophes, one of them on a line or three of them over
several lines. Between quotation marks a backslash begins an escape.

## Main definitions

* `QuoteStyle`: the four ways to write a text.
* `QuoteScan`: where a scan stands inside a text.
* `readQuoted`: the text from a position on, and what follows it.

## Design notes

Over several lines a text is closed by the first three quotes in a row that two more quotes do not
follow; those two belong to the text. A backslash at the end of a line hides the line's end and all
white space after it.
-/

namespace StagedBuild

/-- A way to write a text. -/
structure QuoteStyle where
  quote : Char
  /-- Three quotes stand at either end, and lines may end inside. -/
  multiline : Bool
deriving DecidableEq, Repr

/-- A backslash begins an escape between quotation marks only. -/
def QuoteStyle.escapes (style : QuoteStyle) : Bool :=
  style.quote == '"'

/-- Where a scan stands inside a text. -/
inductive QuoteScan where
  | plain
  /-- After some quotes in a row. -/
  | quotes (count : Nat)
  /-- After a carriage return, which a line feed has to follow. -/
  | lineEnd
  | escape
  /-- Inside a numeric escape, with the digits still due and the value so far. -/
  | digits (due value : Nat)
  /-- After a backslash and spaces, where the line has to end. -/
  | hidden
  /-- After a carriage return at such a line's end. -/
  | hiddenEnd
  /-- In the white space after such a line's end. -/
  | folded
  /-- After a carriage return in that white space. -/
  | foldedEnd
deriving DecidableEq, Repr

namespace QuoteScan

/-- Characters that may stand in a text or a comment: all but control characters, and the tab. -/
def isTextChar (c : Char) : Bool :=
  c == '\t' || (0x20 ≤ c.toNat && c.toNat ≠ 0x7F)

/-- Space and tab. -/
def isSpace (c : Char) : Bool :=
  c == ' ' || c == '\t'

/-- The character that a one letter escape stands for. -/
def shortEscape? : Char → Option Char
  | 'b' => some '\x08'
  | 't' => some '\t'
  | 'n' => some '\n'
  | 'f' => some '\x0c'
  | 'r' => some '\r'
  | 'e' => some '\x1b'
  | '"' => some '"'
  | '\\' => some '\\'
  | _ => none

/-- The number of digits of a numeric escape. -/
def escapeDigits? : Char → Option Nat
  | 'x' => some 2
  | 'u' => some 4
  | 'U' => some 8
  | _ => none

/-- The character of a code point; halves of surrogate pairs have none. -/
def ofCodePoint? (n : Nat) : Option Char :=
  if n.isValidChar then some (Char.ofNat n) else none

/-- The position after a character that is no quote, and the text so far, last character first. -/
def takePlain (style : QuoteStyle) (text : List Char) (c : Char) : Option (QuoteScan × List Char) :=
  if style.escapes && c == '\\' then some (escape, text)
  else if style.multiline && c == '\n' then some (plain, c :: text)
  else if style.multiline && c == '\r' then some (lineEnd, c :: text)
  else if isTextChar c then some (plain, c :: text)
  else none

/-- The position after the character that follows a backslash. -/
def takeEscape (style : QuoteStyle) (text : List Char) (c : Char) :
    Option (QuoteScan × List Char) :=
  match shortEscape? c, escapeDigits? c with
  | some plainChar, _ => some (plain, plainChar :: text)
  | none, some due => some (digits due 0, text)
  | none, none =>
    if style.multiline && isSpace c then some (hidden, text)
    else if style.multiline && c == '\n' then some (folded, text)
    else if style.multiline && c == '\r' then some (hiddenEnd, text)
    else none

/-- The position after a digit of a numeric escape. -/
def takeDigit (due value : Nat) (text : List Char) (c : Char) : Option (QuoteScan × List Char) := do
  let value := value * 16 + (← hexValue? c)
  if due ≤ 1 then return (plain, (← ofCodePoint? value) :: text)
  else return (digits (due - 1) value, text)

end QuoteScan

open QuoteScan in
/-- The text from a position on, and what follows its closing quotes. -/
def readQuoted (style : QuoteStyle) :
    QuoteScan → List Char → List Char → Option (List Char × List Char)
  | .plain, text, c :: rest =>
    if c = style.quote then
      if style.multiline then readQuoted style (.quotes 1) text rest else some (text.reverse, rest)
    else
      match takePlain style text c with
      | none => none
      | some (scan, text) => readQuoted style scan text rest
  | .quotes count, text, [] =>
    if count < 3 then none else some ((List.replicate (count - 3) style.quote ++ text).reverse, [])
  | .quotes count, text, c :: rest =>
    if c = style.quote then
      if count < 4 then readQuoted style (.quotes (count + 1)) text rest
      else some ((style.quote :: style.quote :: text).reverse, rest)
    else if count < 3 then
      match takePlain style (List.replicate count style.quote ++ text) c with
      | none => none
      | some (scan, text) => readQuoted style scan text rest
    else some ((List.replicate (count - 3) style.quote ++ text).reverse, c :: rest)
  | .lineEnd, text, c :: rest =>
    if c = '\n' then readQuoted style .plain (c :: text) rest else none
  | .escape, text, c :: rest =>
    match takeEscape style text c with
    | none => none
    | some (scan, text) => readQuoted style scan text rest
  | .digits due value, text, c :: rest =>
    match takeDigit due value text c with
    | none => none
    | some (scan, text) => readQuoted style scan text rest
  | .hidden, text, c :: rest =>
    if isSpace c then readQuoted style .hidden text rest
    else if c = '\n' then readQuoted style .folded text rest
    else if c = '\r' then readQuoted style .hiddenEnd text rest
    else none
  | .hiddenEnd, text, c :: rest => if c = '\n' then readQuoted style .folded text rest else none
  | .folded, text, c :: rest =>
    if isSpace c || c == '\n' then readQuoted style .folded text rest
    else if c = '\r' then readQuoted style .foldedEnd text rest
    else if c = style.quote then readQuoted style (.quotes 1) text rest
    else
      match takePlain style text c with
      | none => none
      | some (scan, text) => readQuoted style scan text rest
  | .foldedEnd, text, c :: rest => if c = '\n' then readQuoted style .folded text rest else none
  | _, _, [] => none

/-- Characters without a line end right at the start. -/
def dropLineEnd : List Char → List Char
  | '\n' :: rest => rest
  | '\r' :: '\n' :: rest => rest
  | cs => cs

/-- The text that begins with a quote, and what follows it. A line end right after three opening
quotes does not belong to the text. -/
def readString? (cs : List Char) : Option (String × List Char) :=
  let read (style : QuoteStyle) (cs : List Char) :=
    (readQuoted style .plain [] cs).map fun (text, rest) => (String.ofList text, rest)
  match cs with
  | '"' :: '"' :: '"' :: rest => read ⟨'"', true⟩ (dropLineEnd rest)
  | '"' :: rest => read ⟨'"', false⟩ rest
  | '\'' :: '\'' :: '\'' :: rest => read ⟨'\'', true⟩ (dropLineEnd rest)
  | '\'' :: rest => read ⟨'\'', false⟩ rest
  | _ => none

end StagedBuild
