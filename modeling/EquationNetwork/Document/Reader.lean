import EquationNetwork.Text.Lines
import EquationNetwork.Text.Quoted

/-!
# Reading documents

A document is a list of sections. A section is a title line, which holds an identifier and nothing
else, and the entry lines under it, each a key, a colon and a value that reaches to the end of the
line. Blanks and tabs may stand around identifiers.

Each reader takes the text at a place and gives what it read with the text that is left, or a
`Failure` that says where it stopped. Entries and sections are read as long as there are any, so
what is left after a document is the first line that is neither.

* `readIdentifier`, `readTitle`, `readEntry`, `readSection` and `readSections` are the readers.
* `length_readEntry` and `length_readTitle` say that a line is used up whenever one is read, which
  ends the loops.
-/

namespace EquationNetwork.Document

/-- A key and its value. -/
abbrev Entry := String × String

/-- A title and the entries under it. -/
abbrev Section := String × List Entry

/-! ## Failures -/

/-- What was missing where a reader stopped. -/
inductive Missing where
  /-- A character or a word that has to stand there. -/
  | mark
  /-- The end of the line or of the text. -/
  | lineEnd
deriving DecidableEq

/-- The word for what was missing. -/
def Missing.code : Missing → String
  | mark => "Tag"
  | lineEnd => "Eof"

/-- Where a reader stopped, and what it missed there. -/
structure Failure where
  rest : List Char
  missing : Missing
deriving DecidableEq

def Failure.message (failure : Failure) : String :=
  let input := Text.quoted (String.ofList failure.rest)
  s!"Error(Error \x7b input: {input}, code: {failure.missing.code} \x7d)"

/-- What was read and the text that is left, or where reading stopped. -/
abbrev Reading (α : Type) := Except Failure (α × List Char)

/-! ## Within a line -/

def isHead (c : Char) : Bool := c.isAlpha || c == '_'

def isTail (c : Char) : Bool := c.isAlphanum || c == '_'

/-- Reads an identifier: a letter or `_`, then letters, digits and `_`. -/
def readIdentifier (cs : List Char) : Reading String :=
  match cs with
  | [] => .error ⟨cs, .mark⟩
  | c :: tail =>
      if isHead c then .ok (String.ofList (c :: tail.takeWhile isTail), tail.dropWhile isTail)
      else .error ⟨cs, .mark⟩

def isSpace (c : Char) : Bool := c == ' ' || c == '\t'

/-- The text after spaces and tabs. -/
def skipSpaces (cs : List Char) : List Char := cs.dropWhile isSpace

/-- The text after a line ending, if one stands here. -/
def skipLineEnd? : List Char → Option (List Char)
  | '\n' :: rest => some rest
  | '\r' :: '\n' :: rest => some rest
  | _ => none

def isLineChar (c : Char) : Bool := c != '\n' && c != '\r'

/-- Reads to the end of the line. A `\r` that no `\n` follows is no line ending and cannot stand
in a line. -/
def readLineRest (cs : List Char) : Reading (List Char) :=
  let rest := cs.dropWhile isLineChar
  if rest.head? = some '\r' ∧ skipLineEnd? rest = none then .error ⟨cs, .mark⟩
  else .ok (cs.takeWhile isLineChar, rest)

/-! ## Lines -/

/-- Reads an identifier with spaces around it. -/
def readSpacedIdentifier (cs : List Char) : Reading String :=
  (readIdentifier (skipSpaces cs)).map fun (name, rest) => (name, skipSpaces rest)

/-- Reads a title line. -/
def readTitle (cs : List Char) : Reading String :=
  match readSpacedIdentifier cs with
  | .error failure => .error failure
  | .ok (title, rest) =>
      match skipLineEnd? rest with
      | some next => .ok (title, next)
      | none => if rest.isEmpty then .ok (title, []) else .error ⟨rest, .lineEnd⟩

/-- Reads an entry line. The value has no blanks at its ends. -/
def readEntry (cs : List Char) : Reading Entry :=
  match readSpacedIdentifier cs with
  | .error failure => .error failure
  | .ok (key, ':' :: rest) =>
      match readLineRest (skipSpaces rest) with
      | .error failure => .error failure
      | .ok (value, rest) =>
          .ok ((key, String.ofList (Text.trim value)), (skipLineEnd? rest).getD rest)
  | .ok (_, rest) => .error ⟨rest, .mark⟩

/-! ## What reading uses up -/

theorem length_dropWhile_le {α : Type} (p : α → Bool) (l : List α) :
    (l.dropWhile p).length ≤ l.length :=
  (List.dropWhile_sublist p).length_le

theorem length_readIdentifier {cs rest : List Char} {name : String}
    (h : readIdentifier cs = .ok (name, rest)) : rest.length < cs.length := by
  unfold readIdentifier at h
  split at h
  · simp at h
  · split at h
    · simp only [Except.ok.injEq, Prod.mk.injEq] at h
      rw [← h.2, List.length_cons]
      exact Nat.lt_succ_of_le (length_dropWhile_le _ _)
    · simp at h

theorem length_readSpacedIdentifier {cs rest : List Char} {name : String}
    (h : readSpacedIdentifier cs = .ok (name, rest)) : rest.length < cs.length := by
  unfold readSpacedIdentifier at h
  cases hr : readIdentifier (skipSpaces cs) with
  | error failure => simp [hr, Except.map] at h
  | ok read =>
    obtain ⟨found, left⟩ := read
    simp only [hr, Except.map, Except.ok.injEq, Prod.mk.injEq] at h
    have h1 := length_readIdentifier hr
    have h2 := length_dropWhile_le isSpace left
    have h3 := length_dropWhile_le isSpace cs
    rw [← h.2]
    unfold skipSpaces at h1 ⊢
    omega

theorem length_skipLineEnd {cs rest : List Char} (h : skipLineEnd? cs = some rest) :
    rest.length < cs.length := by
  unfold skipLineEnd? at h
  split at h
  · simp only [Option.some.injEq] at h
    rw [h, List.length_cons]
    exact Nat.lt_succ_self _
  · simp only [Option.some.injEq] at h
    rw [h, List.length_cons, List.length_cons]
    exact Nat.lt_add_of_pos_right Nat.two_pos
  · simp at h

theorem length_readLineRest {cs rest value : List Char}
    (h : readLineRest cs = .ok (value, rest)) : rest.length ≤ cs.length := by
  unfold readLineRest at h
  simp only at h
  split at h
  · simp at h
  · simp only [Except.ok.injEq, Prod.mk.injEq] at h
    rw [← h.2]
    exact length_dropWhile_le _ _

/-- A title uses up text. -/
theorem length_readTitle {cs rest : List Char} {title : String}
    (h : readTitle cs = .ok (title, rest)) : rest.length < cs.length := by
  unfold readTitle at h
  split at h
  · simp at h
  · rename_i left hid
    have h1 := length_readSpacedIdentifier hid
    split at h
    · rename_i next hnext
      simp only [Except.ok.injEq, Prod.mk.injEq] at h
      have h2 := length_skipLineEnd hnext
      rw [← h.2]
      omega
    · split at h
      · simp only [Except.ok.injEq, Prod.mk.injEq] at h
        rw [← h.2, List.length_nil]
        omega
      · simp at h

/-- An entry uses up text. -/
theorem length_readEntry {cs rest : List Char} {entry : Entry}
    (h : readEntry cs = .ok (entry, rest)) : rest.length < cs.length := by
  unfold readEntry at h
  split at h
  · simp at h
  · rename_i key after hid
    have h1 := length_readSpacedIdentifier hid
    split at h
    · simp at h
    · rename_i value left hline
      have h2 := length_readLineRest hline
      have h3 := length_dropWhile_le isSpace after
      simp only [Except.ok.injEq, Prod.mk.injEq] at h
      rw [← h.2]
      rw [List.length_cons] at h1
      unfold skipSpaces at h2
      cases hend : skipLineEnd? left with
      | none => simp; omega
      | some next =>
        have h4 := length_skipLineEnd hend
        simp; omega
  · simp at h

/-! ## Sections -/

/-- Reads entries as long as there are any. -/
def readEntries (cs : List Char) : List Entry × List Char :=
  match _h : readEntry cs with
  | .error _ => ([], cs)
  | .ok (entry, rest) =>
      let (entries, rest) := readEntries rest
      (entry :: entries, rest)
termination_by cs.length
decreasing_by exact length_readEntry _h

theorem length_readEntries (cs : List Char) : (readEntries cs).2.length ≤ cs.length := by
  fun_induction readEntries cs with
  | case1 => exact Nat.le_refl _
  | case2 cs entry rest h entries left hleft ih =>
    rw [hleft] at ih
    have := length_readEntry h
    simp only at ih ⊢
    omega

/-- Reads a title and the entries under it. -/
def readSection (cs : List Char) : Reading Section :=
  match readTitle cs with
  | .error failure => .error failure
  | .ok (title, rest) =>
      let (entries, rest) := readEntries rest
      .ok ((title, entries), rest)

theorem length_readSection {cs rest : List Char} {found : Section}
    (h : readSection cs = .ok (found, rest)) : rest.length < cs.length := by
  unfold readSection at h
  split at h
  · simp at h
  · rename_i title left htitle
    simp only [Except.ok.injEq, Prod.mk.injEq] at h
    have h1 := length_readTitle htitle
    have h2 := length_readEntries left
    rw [← h.2]
    omega

/-- Reads sections as long as there are any. -/
def readMoreSections (cs : List Char) : List Section × List Char :=
  match _h : readSection cs with
  | .error _ => ([], cs)
  | .ok (found, rest) =>
      let (sections, rest) := readMoreSections rest
      (found :: sections, rest)
termination_by cs.length
decreasing_by exact length_readSection _h

/-- Reads sections, of which there has to be at least one. -/
def readSections (cs : List Char) : Reading (List Section) :=
  match readSection cs with
  | .error failure => .error failure
  | .ok (found, rest) =>
      let (sections, rest) := readMoreSections rest
      .ok (found :: sections, rest)

end EquationNetwork.Document
