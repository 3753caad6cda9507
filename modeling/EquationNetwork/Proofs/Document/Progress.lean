import EquationNetwork.Proofs.Document.Grammar
import EquationNetwork.Proofs.Document.Repetition

/-!
# Readers make progress

A document is read by three loops, over the pieces of an identifier, the entries of a section and
the sections of a document.  Each of them ends, since no reader succeeds without using up text.

* `Document.progresses_readTitle`, `Document.progresses_readEntry` — a line is used up.
* `Document.loops_readSection`, `Document.loops_readSections` — **sections and documents** are read
  by loops.
* `Document.readPiece` — a piece of an identifier; `Document.loops_readIdentifier` — **an
  identifier** is a first piece and a loop over others.
* `Document.readIdentifier_eq_ok_iff` — an identifier is read to its end.
* `Document.readers_progress` — **all readers make progress**, and stop only where nothing more can
  be read.
-/

namespace EquationNetwork.Document

/-! ## Lines -/

theorem suffix_of_readSpacedIdentifier {cs rest : List Char} {name : String}
    (h : readSpacedIdentifier cs = .ok (name, rest)) : rest <:+ cs := by
  obtain ⟨before, word, after, rfl, -⟩ := exists_of_readSpacedIdentifier h
  exact ⟨before ++ (word ++ after), by simp⟩

theorem suffix_of_skipLineEnd? {cs rest : List Char} (h : skipLineEnd? cs = some rest) :
    rest <:+ cs := by
  unfold skipLineEnd? at h
  split at h
  · cases h
    exact List.suffix_cons _ _
  · cases h
    exact (List.suffix_cons _ _).trans (List.suffix_cons _ _)
  · exact absurd h (by simp)

theorem suffix_of_readLineRest {cs rest value : List Char}
    (h : readLineRest cs = .ok (value, rest)) : rest <:+ cs := by
  unfold readLineRest at h
  dsimp only at h
  split at h
  · exact absurd h (by simp)
  · cases h
    exact List.dropWhile_suffix _

theorem progresses_readTitle : Progresses readTitle := by
  refine progresses_of_length_lt ?_ length_readTitle
  intro cs rest title h
  unfold readTitle at h
  split at h
  · exact absurd h (by simp)
  · rename_i left hread
    have hleft := suffix_of_readSpacedIdentifier hread
    split at h
    · rename_i next hnext
      cases h
      exact (suffix_of_skipLineEnd? hnext).trans hleft
    · split at h
      · cases h
        exact List.nil_suffix
      · exact absurd h (by simp)

theorem progresses_readEntry : Progresses readEntry := by
  refine progresses_of_length_lt ?_ length_readEntry
  intro cs rest entry h
  unfold readEntry at h
  split at h
  · exact absurd h (by simp)
  · rename_i key after hread
    have hafter : after <:+ cs :=
      (List.suffix_cons _ _).trans (suffix_of_readSpacedIdentifier hread)
    split at h
    · exact absurd h (by simp)
    · rename_i value left hline
      have hleft : left <:+ cs :=
        (suffix_of_readLineRest hline).trans ((List.dropWhile_suffix _).trans hafter)
      cases h
      cases hend : skipLineEnd? left with
      | none => exact hleft
      | some next => exact (suffix_of_skipLineEnd? hend).trans hleft
  · exact absurd h (by simp)

/-! ## Sections -/

/-- **The loop over the entries of a section.** -/
theorem loops_readSection : Loops readTitle readEntry Prod.mk readSection where
  fails h := by rw [readSection, h]
  ends {cs left title} h := by
    obtain ⟨found, last, hturns⟩ := progresses_readEntry.exists_ended left
    -- `readEntries` recurses on the length of the text, without turns; it finds what the loop finds
    have hentries : readEntries left = (found, last) :=
      repeated_induction (P := fun cs found last => readEntries cs = (found, last))
        (fun herror => readEntries_of_ne fun _ hok => absurd (herror.symm.trans hok) (by simp))
        (fun hok hrest => by rw [readEntries_of_ok hok, hrest])
        (hturns _ (Nat.lt_succ_self _))
    exact ⟨found, last, by rw [readSection_of_ok h, hentries], hturns⟩

theorem progresses_readSection : Progresses readSection :=
  loops_readSection.progresses progresses_readTitle progresses_readEntry

/-- **The loop over the sections of a document.** -/
theorem loops_readSections : Loops readSection readSection List.cons readSections where
  fails h := by rw [readSections, h]
  ends {cs left first} h := by
    obtain ⟨found, last, hturns⟩ := progresses_readSection.exists_ended left
    have hsections : readMoreSections left = (found, last) :=
      repeated_induction (P := fun cs found last => readMoreSections cs = (found, last))
        readMoreSections_of_error (fun hok hrest => by rw [readMoreSections_of_ok hok, hrest])
        (hturns _ (Nat.lt_succ_self _))
    refine ⟨found, last, ?_, hturns⟩
    rw [readSections, h]
    show Except.ok (first :: (readMoreSections left).1, (readMoreSections left).2) = _
    rw [hsections]

/-! ## Identifiers -/

/-- Reads a piece of an identifier: as many characters of a class as there are, or else one `_`. -/
def readPiece (p : Char → Bool) (cs : List Char) : Reading (List Char) :=
  match cs with
  | [] => .error ⟨cs, .mark⟩
  | c :: tail =>
      if p c then .ok (c :: tail.takeWhile p, tail.dropWhile p)
      else if c = '_' then .ok ([c], tail)
      else .error ⟨cs, .mark⟩

/-- A piece is not empty, and its characters are of the class or `_`. -/
theorem readPiece_ok {p : Char → Bool} {cs piece rest : List Char}
    (h : readPiece p cs = .ok (piece, rest)) :
    ∃ c run, piece = c :: run ∧ cs = piece ++ rest ∧ (p c || c == '_') = true ∧
      ∀ d ∈ run, p d = true := by
  unfold readPiece at h
  split at h
  · exact absurd h (by simp)
  · rename_i c tail
    split at h
    · rename_i hc
      cases h
      exact ⟨c, tail.takeWhile p, rfl, by simp, by simp [hc], fun d hd => List.mem_takeWhile_imp hd⟩
    · split at h
      · rename_i hc
        cases h
        exact ⟨c, [], rfl, rfl, by simp [hc], by simp⟩
      · exact absurd h (by simp)

/-- There is no piece where neither a character of the class nor `_` comes. -/
theorem readPiece_error {p : Char → Bool} {cs : List Char} {failure : Failure}
    (h : readPiece p cs = .error failure) :
    failure = ⟨cs, .mark⟩ ∧ ∀ c, cs.head? = some c → (p c || c == '_') = false := by
  unfold readPiece at h
  split at h
  · cases h
    exact ⟨rfl, by simp⟩
  · rename_i c tail
    split at h
    · exact absurd h (by simp)
    · rename_i hclass
      split at h
      · exact absurd h (by simp)
      · rename_i hmark
        cases h
        exact ⟨rfl, by simp [hclass, hmark]⟩

theorem progresses_readPiece (p : Char → Bool) : Progresses (readPiece p) := by
  intro cs piece rest h
  obtain ⟨c, run, rfl, rfl, -⟩ := readPiece_ok h
  exact ⟨List.suffix_append _ _, fun heq => absurd (congrArg List.length heq) (by simp; omega)⟩

theorem isTail_of_isAlphanum {c : Char} (h : c.isAlphanum = true) : isTail c = true := by
  simp [isTail, h]

/-- The pieces that a loop finds are the characters that may go on an identifier. -/
theorem repeated_readPiece {turns : Nat} {cs last : List Char} {pieces : List (List Char)}
    (h : repeated (readPiece Char.isAlphanum) turns cs = .ended pieces last) :
    pieces.flatten = cs.takeWhile isTail ∧ last = cs.dropWhile isTail := by
  refine repeated_induction (P := fun cs pieces last =>
    pieces.flatten = cs.takeWhile isTail ∧ last = cs.dropWhile isTail) ?_ ?_ h
  · intro cs failure herror
    obtain ⟨-, hhead⟩ := readPiece_error herror
    exact ⟨(takeWhile_of_head hhead).symm, (dropWhile_of_head hhead).symm⟩
  · intro cs rest last piece pieces hread hrest
    obtain ⟨c, run, rfl, rfl, hc, hrun⟩ := readPiece_ok hread
    have hpiece : ∀ d ∈ c :: run, isTail d = true :=
      List.forall_mem_cons.2 ⟨hc, fun d hd => isTail_of_isAlphanum (hrun d hd)⟩
    obtain ⟨hflatten, hlast⟩ := hrest
    rw [List.flatten_cons, hflatten, List.takeWhile_append_of_pos hpiece,
      List.dropWhile_append_of_pos hpiece]
    exact ⟨rfl, hlast⟩

/-- **The loop over the pieces of an identifier.** -/
theorem loops_readIdentifier : Loops (readPiece Char.isAlpha) (readPiece Char.isAlphanum)
    (fun head pieces => String.ofList (head ++ pieces.flatten)) readIdentifier where
  fails {cs failure} h := by
    obtain ⟨rfl, hhead⟩ := readPiece_error h
    cases cs with
    | nil => rfl
    | cons c tail =>
      have hc : isHead c = false := hhead c rfl
      rw [readIdentifier, if_neg (by simp [hc])]
  ends {cs left head} h := by
    obtain ⟨found, last, hturns⟩ := (progresses_readPiece Char.isAlphanum).exists_ended left
    obtain ⟨hflatten, rfl⟩ := repeated_readPiece (hturns _ (Nat.lt_succ_self _))
    obtain ⟨c, run, rfl, rfl, hc, hrun⟩ := readPiece_ok h
    have hhead : isHead c = true := hc
    have hrun_tail : ∀ d ∈ run, isTail d = true := fun d hd =>
      isTail_of_isAlphanum (by simp [Char.isAlphanum, hrun d hd])
    refine ⟨found, _, ?_, hturns⟩
    rw [List.cons_append, readIdentifier, if_pos hhead, List.takeWhile_append_of_pos hrun_tail,
      List.dropWhile_append_of_pos hrun_tail, hflatten]
    rfl

theorem progresses_readIdentifier : Progresses readIdentifier :=
  loops_readIdentifier.progresses (progresses_readPiece _) (progresses_readPiece _)

/-- The word is the longest identifier that the text starts with. -/
def LongestIdentifier (word cs : List Char) : Prop :=
  word <+: cs ∧ IsIdentifier word ∧ ∀ other, other <+: cs → IsIdentifier other → other <+: word

/-- An identifier that goes on with a character that may follow is a longer one. -/
theorem IsIdentifier.concat {word : List Char} (h : IsIdentifier word) {c : Char}
    (hc : isTail c = true) : IsIdentifier (word ++ [c]) := by
  obtain ⟨head, tail, rfl, hhead, htail⟩ := h
  refine ⟨head, tail ++ [c], rfl, hhead, fun d hd => ?_⟩
  rcases List.mem_append.1 hd with hd | hd
  · exact htail d hd
  · obtain rfl := List.mem_singleton.1 hd
    exact hc

/-- **An identifier is read to its end**: what is read is the longest one that the text starts
with. -/
theorem readIdentifier_eq_ok_iff {cs rest : List Char} {name : String} :
    readIdentifier cs = .ok (name, rest) ↔
      ∃ word, name = String.ofList word ∧ cs = word ++ rest ∧ LongestIdentifier word cs := by
  constructor
  · intro h
    cases cs with
    | nil => exact absurd h (by simp [readIdentifier])
    | cons c tail =>
      rw [readIdentifier] at h
      split at h
      · rename_i hc
        cases h
        have hsplit : c :: tail = c :: tail.takeWhile isTail ++ tail.dropWhile isTail := by simp
        refine ⟨c :: tail.takeWhile isTail, rfl, hsplit, ⟨_, hsplit.symm⟩,
          ⟨c, _, rfl, hc, fun d hd => List.mem_takeWhile_imp hd⟩, ?_⟩
        rintro other ⟨more, hmore⟩ ⟨head, run, rfl, -, hrun⟩
        rw [List.cons_append] at hmore
        obtain ⟨rfl, rfl⟩ := List.cons.inj hmore
        rw [List.takeWhile_append_of_pos hrun]
        exact List.prefix_append (head :: run) _
      · exact absurd h (by simp)
  · rintro ⟨word, rfl, rfl, -, hword, hlongest⟩
    refine readIdentifier_word hword fun c hc => ?_
    -- with a character that may go on an identifier, the word would not be the longest one
    by_contra htail
    rw [Bool.not_eq_false] at htail
    obtain ⟨tail, rfl⟩ := List.head?_eq_some_iff.1 hc
    have hlonger := hlongest (word ++ [c]) ⟨tail, by simp⟩ (hword.concat htail)
    exact absurd hlonger.length_le (by simp)

/-! ## All readers -/

/-- **All readers make progress.** -/
theorem readers_progress :
    (Progresses readIdentifier ∧ Progresses readTitle ∧ Progresses readEntry ∧
        Progresses readSection ∧ Progresses readSections) ∧
      (Loops (readPiece Char.isAlpha) (readPiece Char.isAlphanum)
          (fun head pieces => String.ofList (head ++ pieces.flatten)) readIdentifier ∧
        Loops readTitle readEntry Prod.mk readSection ∧
        Loops readSection readSection List.cons readSections) ∧
      (∀ cs found rest, readSection cs = .ok (found, rest) →
        ∃ failure, readEntry rest = .error failure) ∧
      (∀ cs found rest, readSections cs = .ok (found, rest) →
        ∃ failure, readSection rest = .error failure) ∧
      ∀ cs name rest, readIdentifier cs = .ok (name, rest) ↔
        ∃ word, name = String.ofList word ∧ cs = word ++ rest ∧ LongestIdentifier word cs :=
  ⟨⟨progresses_readIdentifier, progresses_readTitle, progresses_readEntry, progresses_readSection,
      loops_readSections.progresses progresses_readSection progresses_readSection⟩,
    ⟨loops_readIdentifier, loops_readSection, loops_readSections⟩,
    fun _ _ _ => loops_readSection.stops, fun _ _ _ => loops_readSections.stops,
    fun _ _ _ => readIdentifier_eq_ok_iff⟩

/-- A `\r` that no `\n` follows stops the reading at the line that it stands in. -/
theorem readers_progress_stray_return :
    let entries := "a_1: 2\r\nb: x\ry\n".toList
    let text := "values\n".toList ++ entries
    let left := "b: x\ry\n".toList
    readSections text = .ok ([("values", [("a_1", "2")])], left) ∧ (left <:+ text ∧ left ≠ text) ∧
      (∃ failure, readSection left = .error failure) ∧
      (∃ failure, readEntry left = .error failure) ∧
      repeated readEntry 16 entries = .ended [("a_1", "2")] left ∧
      LongestIdentifier "a_1".toList entries := by
  intro entries text left
  have htitle : readTitle text = .ok ("values", entries) := by decide +kernel
  have hsection : readSection text = .ok (("values", [("a_1", "2")]), left) := by decide +kernel
  have hsections : readSections text = .ok ([("values", [("a_1", "2")])], left) := by decide +kernel
  have hidentifier : readIdentifier entries = .ok ("a_1", ": 2\r\nb: x\ry\n".toList) := by
    decide +kernel
  obtain ⟨⟨-, -, -, -, hprogress⟩, ⟨-, hloops, -⟩, hstopped, hended, hlongest⟩ := readers_progress
  obtain ⟨found, last, hread, hturns⟩ := hloops.ends htitle
  cases hread.symm.trans hsection
  obtain ⟨word, hname, -, hword⟩ := (hlongest _ _ _).1 hidentifier
  obtain rfl : word = "a_1".toList := by rw [hname, String.toList_ofList]
  exact ⟨hsections, hprogress hsections, hended _ _ _ hsections, hstopped _ _ _ hsection,
    hturns 16 (by decide +kernel), hword⟩

end EquationNetwork.Document
