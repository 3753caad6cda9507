import EquationNetwork.Document.Reader

/-!
# The sections of a document

Blank lines and comment lines, which start with `#` or `//`, are dropped before a document is
read. A title that comes again continues its section. Whatever the reader leaves is an error, and
so is a document without a section.

`sections` is the whole way from a text to its sections, one for each title.
-/

namespace EquationNetwork.Document

/-- What is wrong with the form of a document. -/
inductive FormError where
  /-- The document does not start with a section. -/
  | unreadable (failure : Failure)
  /-- A line is neither a title nor an entry. -/
  | strayLine (line : String)
  /-- No section may have this title. -/
  | unknownSection (title : String)
deriving DecidableEq

def FormError.message : FormError → String
  | unreadable failure => s!"cannot parse document: {failure.message}"
  | strayLine line => s!"unexpected line '{line}'"
  | unknownSection title => s!"unknown section '{title}'"

/-! ## Comments -/

/-- Does the line hold anything but blanks or a comment? -/
def isContent (line : List Char) : Bool :=
  match Text.trim line with
  | [] => false
  | '#' :: _ => false
  | '/' :: '/' :: _ => false
  | _ => true

/-- The lines that are neither blank nor comments. -/
def contentLines (cs : List Char) : List (List Char) := (Text.lines cs).filter isContent

/-- The text without blank lines and comments. -/
def content (cs : List Char) : List Char := Text.unlines (contentLines cs)

/-! ## Merging -/

/-- Adds a section to those before it. Entries go to the section of the same title, if there is
one. -/
def insertSection (sections : List Section) (new : Section) : List Section :=
  match sections with
  | [] => [new]
  | old :: rest =>
      if old.1 = new.1 then (old.1, old.2 ++ new.2) :: rest else old :: insertSection rest new

/-- The sections with one for each title, in order of first appearance. -/
def mergeSections (sections : List Section) : List Section := sections.foldl insertSection []

/-- The entries under a title. -/
def entries? (sections : List Section) (title : String) : Option (List Entry) :=
  sections.lookup title

/-! ## From text to sections -/

/-- The first line of a text, trimmed. -/
def firstLine (cs : List Char) : String :=
  String.ofList (Text.trim ((Text.lines cs).headD []))

/-- The sections of a document. -/
def sections (text : String) : Except FormError (List Section) :=
  match readSections (content text.toList) with
  | .error failure => .error (.unreadable failure)
  | .ok (found, rest) =>
      if (Text.trim rest).isEmpty then .ok (mergeSections found)
      else .error (.strayLine (firstLine rest))

end EquationNetwork.Document
