import Mathlib.Data.List.TakeWhile
import EquationNetwork.Document.Sections
import EquationNetwork.Proofs.Text.Lines

/-!
# Reading a line

A document is read character by character, but what it says is a matter of its lines, each of which
is a title or an entry.

* `Document.ReadsAs` — what a line says.
* `Document.readLine?_eq_some_iff` — a line says one thing at most, and the reader finds it.
* `Document.exists_of_readSpacedIdentifier` — whatever is read as an identifier is one.
* `Document.readSpacedIdentifier_afterLine`, `Document.readLineRest_afterLine` — reading within a
  line, whatever lines follow.
* `Document.readTitle_line`, `Document.readEntry_line` — **at the start of a line, the readers read
  that line**.
-/

namespace EquationNetwork.Document

open Text (unlines afterLine ReturnsEndLines)

/-! ## What lines say -/

/-- A letter or `_`, then letters, digits and `_`. -/
def IsIdentifier (cs : List Char) : Prop :=
  ∃ head tail, cs = head :: tail ∧ isHead head = true ∧ ∀ c ∈ tail, isTail c = true

/-- Spaces and tabs. -/
def IsSpacing (cs : List Char) : Prop := ∀ c ∈ cs, isSpace c = true

/-- A line that is in order. -/
inductive Line where
  | title (title : String)
  | entry (entry : Entry)
deriving DecidableEq

/-- What a line says: a title is an identifier with nothing but spacing around it, and an entry is
an identifier, a colon and any value, of which the blanks at its ends do not count. -/
inductive ReadsAs : List Char → Line → Prop where
  | title {before word after : List Char} (hbefore : IsSpacing before) (hword : IsIdentifier word)
      (hafter : IsSpacing after) :
      ReadsAs (before ++ (word ++ after)) (.title (String.ofList word))
  | entry {before word after : List Char} (hbefore : IsSpacing before) (hword : IsIdentifier word)
      (hafter : IsSpacing after) (value : List Char) :
      ReadsAs (before ++ (word ++ (after ++ ':' :: value)))
        (.entry (String.ofList word, String.ofList (Text.trim value)))

/-- What the reader makes of a line of its own. -/
def readLine? (line : List Char) : Option Line :=
  match readSpacedIdentifier line with
  | .ok (title, []) => some (.title title)
  | .ok (key, ':' :: value) => some (.entry (key, String.ofList (Text.trim value)))
  | _ => none

theorem isSpace_of_isHead {c : Char} (h : isHead c = true) : isSpace c = false := by
  by_contra hspace
  rw [Bool.not_eq_false, isSpace, Bool.or_eq_true, beq_iff_eq, beq_iff_eq] at hspace
  rcases hspace with rfl | rfl <;> exact absurd h (by decide)

theorem isTail_of_isSpace {c : Char} (h : isSpace c = true) : isTail c = false := by
  rw [isSpace, Bool.or_eq_true, beq_iff_eq, beq_iff_eq] at h
  rcases h with rfl | rfl <;> decide

theorem dropWhile_of_head {p : Char → Bool} {cs : List Char}
    (h : ∀ c, cs.head? = some c → p c = false) : cs.dropWhile p = cs := by
  cases cs with
  | nil => rfl
  | cons c cs => rw [List.dropWhile_cons, if_neg (by simp [h c rfl])]

theorem takeWhile_of_head {p : Char → Bool} {cs : List Char}
    (h : ∀ c, cs.head? = some c → p c = false) : cs.takeWhile p = [] := by
  cases cs with
  | nil => rfl
  | cons c cs => rw [List.takeWhile_cons, if_neg (by simp [h c rfl])]

theorem readIdentifier_word {word rest : List Char} (hword : IsIdentifier word)
    (hrest : ∀ c, rest.head? = some c → isTail c = false) :
    readIdentifier (word ++ rest) = .ok (String.ofList word, rest) := by
  obtain ⟨head, tail, rfl, hhead, htail⟩ := hword
  rw [List.cons_append, readIdentifier, if_pos hhead, List.takeWhile_append_of_pos htail,
    List.dropWhile_append_of_pos htail, takeWhile_of_head hrest, dropWhile_of_head hrest,
    List.append_nil]

/-- An identifier is read up to a character that is neither spacing nor belongs to it. -/
theorem readSpacedIdentifier_word {before word after rest : List Char} (hbefore : IsSpacing before)
    (hword : IsIdentifier word) (hafter : IsSpacing after)
    (hrest : ∀ c, rest.head? = some c → isSpace c = false ∧ isTail c = false) :
    readSpacedIdentifier (before ++ (word ++ (after ++ rest))) =
      .ok (String.ofList word, rest) := by
  have hstart : skipSpaces (before ++ (word ++ (after ++ rest))) = word ++ (after ++ rest) := by
    obtain ⟨head, tail, rfl, hhead, -⟩ := hword
    rw [skipSpaces, List.dropWhile_append_of_pos hbefore]
    refine dropWhile_of_head fun c hc => ?_
    obtain rfl : head = c := Option.some.inj hc
    exact isSpace_of_isHead hhead
  have hend : ∀ c, (after ++ rest).head? = some c → isTail c = false := by
    intro c hc
    cases after with
    | nil => exact (hrest c hc).2
    | cons space after =>
      obtain rfl : space = c := Option.some.inj hc
      exact isTail_of_isSpace (hafter _ (List.mem_cons_self ..))
  have hleft : skipSpaces (after ++ rest) = rest := by
    rw [skipSpaces, List.dropWhile_append_of_pos hafter]
    exact dropWhile_of_head fun c hc => (hrest c hc).1
  rw [readSpacedIdentifier, hstart, readIdentifier_word hword hend]
  show Except.ok (String.ofList word, skipSpaces (after ++ rest)) = _
  rw [hleft]

/-- What was read as an identifier stands in the text. -/
theorem exists_of_readSpacedIdentifier {cs rest : List Char} {name : String}
    (h : readSpacedIdentifier cs = .ok (name, rest)) :
    ∃ before word after, cs = before ++ (word ++ (after ++ rest)) ∧ IsSpacing before ∧
      IsIdentifier word ∧ IsSpacing after ∧ name = String.ofList word := by
  rw [readSpacedIdentifier] at h
  rcases hstart : skipSpaces cs with _ | ⟨head, tail⟩
  · rw [hstart] at h
    exact absurd h (by simp [readIdentifier, Except.map])
  · rw [hstart, readIdentifier] at h
    by_cases hhead : isHead head = true
    · rw [if_pos hhead, Except.map] at h
      obtain ⟨rfl, rfl⟩ := Prod.mk.inj (Except.ok.inj h)
      refine ⟨cs.takeWhile isSpace, head :: tail.takeWhile isTail,
        (tail.dropWhile isTail).takeWhile isSpace, ?_, fun c hc => List.mem_takeWhile_imp hc,
        ⟨head, _, rfl, hhead, fun c hc => List.mem_takeWhile_imp hc⟩,
        fun c hc => List.mem_takeWhile_imp hc, rfl⟩
      rw [skipSpaces, List.takeWhile_append_dropWhile, List.cons_append,
        List.takeWhile_append_dropWhile, ← hstart, skipSpaces, List.takeWhile_append_dropWhile]
    · rw [if_neg hhead] at h
      exact absurd h (by simp [Except.map])

/-- **What a line says** is what the reader makes of it. -/
theorem readLine?_eq_some_iff {line : List Char} {x : Line} :
    readLine? line = some x ↔ ReadsAs line x := by
  constructor
  · intro h
    unfold readLine? at h
    split at h
    · rename_i title hread
      obtain ⟨before, word, after, rfl, hbefore, hword, hafter, rfl⟩ :=
        exists_of_readSpacedIdentifier hread
      cases h
      rw [List.append_nil]
      exact .title hbefore hword hafter
    · rename_i key value hread
      obtain ⟨before, word, after, rfl, hbefore, hword, hafter, rfl⟩ :=
        exists_of_readSpacedIdentifier hread
      cases h
      exact .entry hbefore hword hafter value
    · exact absurd h (by simp)
  · intro h
    cases h with
    | @title before word after hbefore hword hafter =>
      have hread : readSpacedIdentifier (before ++ (word ++ (after ++ []))) =
          .ok (String.ofList word, []) :=
        readSpacedIdentifier_word hbefore hword hafter (by simp)
      rw [List.append_nil] at hread
      rw [readLine?, hread]
    | entry hbefore hword hafter value =>
      have hcolon : ∀ c, (':' :: value).head? = some c → isSpace c = false ∧ isTail c = false := by
        intro c hc
        obtain rfl : ':' = c := Option.some.inj hc
        decide
      rw [readLine?, readSpacedIdentifier_word hbefore hword hafter hcolon]
      rfl

/-! ## Readers at the start of a line -/

/-- The line has no line break in it. -/
def Unbroken (line : List Char) : Prop := ∀ c ∈ line, isLineChar c = true

theorem Unbroken.notMem {line : List Char} (h : Unbroken line) : '\n' ∉ line ∧ '\r' ∉ line :=
  ⟨fun hmem => absurd (h _ hmem) (by decide), fun hmem => absurd (h _ hmem) (by decide)⟩

/-- A reading, when more text follows. -/
def Reading.extend {α : Type} (more : List Char) : Reading α → Reading α
  | .ok (x, rest) => .ok (x, rest ++ more)
  | .error failure => .error ⟨failure.rest ++ more, failure.missing⟩

/-- What follows a line starts with a line break, if it is not empty. -/
theorem head?_afterLine {rest : List (List Char)} {c : Char}
    (h : (afterLine rest).head? = some c) : c = '\n' := by
  cases rest with
  | nil => exact absurd h (by simp [afterLine])
  | cons line rest => exact (Option.some.inj h).symm

theorem dropWhile_append_afterLine {p : Char → Bool} (hp : p '\n' = false) (cs : List Char)
    (rest : List (List Char)) :
    (cs ++ afterLine rest).dropWhile p = cs.dropWhile p ++ afterLine rest := by
  have hstop : (afterLine rest).dropWhile p = afterLine rest :=
    dropWhile_of_head fun c hc => by rw [head?_afterLine hc, hp]
  rw [List.dropWhile_append, hstop]
  split
  · rename_i hnil
    rw [List.isEmpty_iff.1 hnil, List.nil_append]
  · rfl

theorem takeWhile_append_afterLine {p : Char → Bool} (hp : p '\n' = false) (cs : List Char)
    (rest : List (List Char)) : (cs ++ afterLine rest).takeWhile p = cs.takeWhile p := by
  induction cs with
  | nil => exact takeWhile_of_head fun c hc => by rw [head?_afterLine hc, hp]
  | cons c cs ih => rw [List.cons_append, List.takeWhile_cons, List.takeWhile_cons, ih]

theorem readSpacedIdentifier_afterLine (cs : List Char) (rest : List (List Char)) :
    readSpacedIdentifier (cs ++ afterLine rest) =
      (readSpacedIdentifier cs).extend (afterLine rest) := by
  rw [readSpacedIdentifier, readSpacedIdentifier, skipSpaces,
    dropWhile_append_afterLine (by decide), skipSpaces]
  cases cs.dropWhile isSpace with
  | nil =>
    cases rest with
    | nil => rfl
    | cons line rest => rfl
  | cons head tail =>
    rw [List.cons_append, readIdentifier, readIdentifier]
    by_cases hhead : isHead head = true
    · rw [if_pos hhead, if_pos hhead, takeWhile_append_afterLine (by decide),
        dropWhile_append_afterLine (by decide)]
      show Except.ok (_, skipSpaces (tail.dropWhile isTail ++ afterLine rest)) = _
      rw [skipSpaces, dropWhile_append_afterLine (by decide)]
      rfl
    · rw [if_neg hhead, if_neg hhead]
      rfl

/-- What is left of a line after its identifier is left of the line. -/
theorem Unbroken.of_readSpacedIdentifier {line rest : List Char} {name : String}
    (h : Unbroken line) (hread : readSpacedIdentifier line = .ok (name, rest)) : Unbroken rest := by
  obtain ⟨before, word, after, rfl, -⟩ := exists_of_readSpacedIdentifier hread
  intro c hc
  apply h
  simp [hc]

theorem skipLineEnd?_of_isLineChar {c : Char} (h : isLineChar c = true) (cs : List Char) :
    skipLineEnd? (c :: cs) = none := by
  rw [isLineChar, Bool.and_eq_true, bne_iff_ne, bne_iff_ne] at h
  unfold skipLineEnd?
  split
  · rename_i heq
    exact absurd (List.cons.inj heq).1 h.1
  · rename_i heq
    exact absurd (List.cons.inj heq).1 h.2
  · rfl

theorem skipLineEnd?_afterLine (rest : List (List Char)) :
    (skipLineEnd? (afterLine rest)).getD (afterLine rest) = unlines rest := by
  cases rest with
  | nil => rfl
  | cons line rest => rfl

/-- A title line is read as such, and no other line is. -/
theorem readTitle_line {line : List Char} (hline : Unbroken line) (rest : List (List Char))
    (title : String) (left : List Char) :
    readTitle (unlines (line :: rest)) = .ok (title, left) ↔
      readLine? line = some (.title title) ∧ left = unlines rest := by
  rw [Text.unlines_cons, readTitle, readSpacedIdentifier_afterLine, readLine?]
  rcases hread : readSpacedIdentifier line with failure | ⟨name, _ | ⟨c, tail⟩⟩
  · simp [Reading.extend]
  · cases rest with
    | nil => simp [Reading.extend, afterLine, skipLineEnd?, unlines, eq_comm]
    | cons next rest => simp [Reading.extend, afterLine, skipLineEnd?, eq_comm]
  · have hc : isLineChar c = true :=
      hline.of_readSpacedIdentifier hread c (List.mem_cons_self ..)
    simp only [Reading.extend, List.cons_append, skipLineEnd?_of_isLineChar hc, List.isEmpty_cons]
    by_cases hcolon : c = ':' <;> simp [hcolon]

/-- To its end, what is left of a line is read as it stands. -/
theorem readLineRest_afterLine {cs : List Char} (h : Unbroken cs) (rest : List (List Char)) :
    readLineRest (cs ++ afterLine rest) = .ok (cs, afterLine rest) := by
  have hstop : ∀ c, (afterLine rest).head? = some c → isLineChar c = false := by
    intro c hc
    rw [head?_afterLine hc]
    decide
  have hrest : (cs ++ afterLine rest).dropWhile isLineChar = afterLine rest := by
    rw [List.dropWhile_append_of_pos h, dropWhile_of_head hstop]
  have hread : (cs ++ afterLine rest).takeWhile isLineChar = cs := by
    rw [List.takeWhile_append_of_pos h, takeWhile_of_head hstop, List.append_nil]
  have hend : ¬((afterLine rest).head? = some '\r' ∧ skipLineEnd? (afterLine rest) = none) := by
    rintro ⟨hreturn, -⟩
    exact absurd (head?_afterLine hreturn) (by decide)
  rw [readLineRest, hrest, hread]
  exact if_neg hend

theorem isBlank_of_isSpace {c : Char} (h : isSpace c = true) : Text.isBlank c = true := by
  rw [isSpace, Bool.or_eq_true, beq_iff_eq, beq_iff_eq] at h
  rcases h with rfl | rfl <;> decide

theorem trim_skipSpaces (cs : List Char) : Text.trim (skipSpaces cs) = Text.trim cs := by
  suffices h : Text.trimLeft (skipSpaces cs) = Text.trimLeft cs by rw [Text.trim, h, ← Text.trim]
  induction cs with
  | nil => rfl
  | cons c cs ih =>
    rw [skipSpaces, List.dropWhile_cons]
    split
    · rename_i hc
      rw [← skipSpaces, ih, Text.trimLeft, Text.trimLeft, List.dropWhile_cons,
        if_pos (isBlank_of_isSpace hc)]
    · rfl

/-- An entry line is read as such, and no other line is. -/
theorem readEntry_line {line : List Char} (hline : Unbroken line) (rest : List (List Char))
    (entry : Entry) (left : List Char) :
    readEntry (unlines (line :: rest)) = .ok (entry, left) ↔
      readLine? line = some (.entry entry) ∧ left = unlines rest := by
  rw [Text.unlines_cons, readEntry, readSpacedIdentifier_afterLine, readLine?]
  rcases hread : readSpacedIdentifier line with failure | ⟨name, _ | ⟨c, tail⟩⟩
  · simp [Reading.extend]
  · cases rest with
    | nil => simp [Reading.extend, afterLine]
    | cons next rest => simp [Reading.extend, afterLine]
  · by_cases hcolon : c = ':'
    · subst hcolon
      have hvalue : Unbroken (skipSpaces tail) := fun c hc =>
        hline.of_readSpacedIdentifier hread c
          (List.mem_cons_of_mem _ ((List.dropWhile_sublist _).mem hc))
      have hskip : skipSpaces (tail ++ afterLine rest) = skipSpaces tail ++ afterLine rest :=
        dropWhile_append_afterLine (by decide) tail rest
      simp only [Reading.extend, List.cons_append, hskip, readLineRest_afterLine hvalue,
        trim_skipSpaces, skipLineEnd?_afterLine]
      simp [eq_comm]
    · simp [Reading.extend, hcolon]

end EquationNetwork.Document
