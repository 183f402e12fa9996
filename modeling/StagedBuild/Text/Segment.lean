/-!
# Segments of a specifier and of a message

Names are compared with longer texts by whole segments. A specifier is cut at `/` only. A message
may hold paths of either kind, so both slashes end a segment there.

## Main definitions

* `Text.segmentRest?`: what follows a name that leads a specifier.
* `Text.isSegmentPrefix`: the name is the specifier or a leading part of it that ends at a slash.
* `Text.hasSegment`: the name stands in a message between two separators.

## Design notes

The package whose copies are merged is compared by `isSegmentPrefix`, an alias name by what `segmentRest?`
finds after it. The two are defined apart, as they are used; that they are one relation is a theorem.
-/

namespace StagedBuild
namespace Text

/-- What follows `name` in `text`, when `name` leads `text` and nothing or a slash comes next. -/
def segmentRestChars? (name text : List Char) : Option (List Char) :=
  match name.isPrefixOf? text with
  | some [] => some []
  | some ('/' :: rest) => some ('/' :: rest)
  | _ => none

/-- What follows the name `name` in the specifier `text`; nothing unless `name` is the whole of it
or ends where a slash follows. -/
def segmentRest? (name text : String) : Option String :=
  (segmentRestChars? name.toList text.toList).map String.ofList

/-- A name is a segment prefix of a specifier that it equals, or that continues with a slash. -/
def isSegmentPrefix (name text : String) : Bool :=
  (name.toList.isPrefixOf? text.toList).any fun rest => rest.isEmpty || rest.head? == some '/'

/-- The characters that separate the parts of a path inside a message. -/
def isSeparator (c : Char) : Bool :=
  c == '/' || c == '\\'

/-- A message part that begins with the name and then a separator. -/
def leadsWithSegment (name text : List Char) : Bool :=
  match name.isPrefixOf? text with
  | some (c :: _) => isSeparator c
  | _ => false

/-- A message has the name as a segment when the name stands in it literally, with a separator
before it and a separator after it. -/
def hasSegmentChars (name : List Char) : List Char → Bool
  | [] => false
  | c :: text => (isSeparator c && leadsWithSegment name text) || hasSegmentChars name text

/-- The name stands in the message between two separators. -/
def hasSegment (name message : String) : Bool :=
  hasSegmentChars name.toList message.toList

end Text
end StagedBuild
