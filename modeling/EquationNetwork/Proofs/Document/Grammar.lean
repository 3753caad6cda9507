import EquationNetwork.Proofs.Document.LineReaders
import EquationNetwork.Proofs.Document.Merging

/-!
# The grammar of documents

An entry belongs to the nearest title before it, and a title that comes again continues its section.

* `Document.outline` — what a list of lines stands for, title by title.
* `Document.read_lines` — **reading lines**, up to the first that is neither title nor entry.
* `Document.mergeSections_sectionsOf` — merged, the sections that are read are the outline.
* `Document.sections_grammar` — **a text is a document just when its first line is a title and every
  line a title or an entry**; then its sections are the outline of its lines.
-/

namespace EquationNetwork.Document

open Text (unlines afterLine ReturnsEndLines)

/-! ## Outlines -/

def Line.title? : Line → Option String
  | .title name => some name
  | .entry _ => none

/-- The entries whose nearest title before them is a given one; `current` is the nearest title
before all the lines. -/
def entriesUnder (title : String) (current : Option String) : List Line → List Entry
  | [] => []
  | .title found :: lines => entriesUnder title (some found) lines
  | .entry entry :: lines =>
      if current = some title then entry :: entriesUnder title current lines
      else entriesUnder title current lines

/-- Each title, in order of first appearance, with the entries under it. -/
def outline (lines : List Line) : List Section :=
  (lines.filterMap Line.title?).eraseDups.map fun title => (title, entriesUnder title none lines)

/-! ## Sections of lines -/

/-- The entries before the first title. -/
def leadingEntries : List Line → List Entry
  | [] => []
  | .title _ :: _ => []
  | .entry entry :: lines => entry :: leadingEntries lines

/-- A section for every title, repeated ones included. -/
def sectionsOf : List Line → List Section
  | [] => []
  | .title title :: lines => (title, leadingEntries lines) :: sectionsOf lines
  | .entry _ :: lines => sectionsOf lines

theorem map_fst_sectionsOf (lines : List Line) :
    (sectionsOf lines).map Prod.fst = lines.filterMap Line.title? := by
  induction lines with
  | nil => rfl
  | cons line lines ih =>
    cases line with
    | title title =>
      rw [sectionsOf, List.map_cons, ih]
      rfl
    | entry entry =>
      rw [sectionsOf, ih]
      rfl

/-- The entries under a title are those of its sections, and the ones that come first if they stand
under it, too. -/
theorem entriesUnder_eq (title : String) (current : Option String) (lines : List Line) :
    entriesUnder title current lines =
      (if current = some title then leadingEntries lines else []) ++
        entriesOf (sectionsOf lines) title := by
  induction lines generalizing current with
  | nil => simp [entriesUnder, leadingEntries, sectionsOf, entriesOf]
  | cons line lines ih =>
    cases line with
    | title found =>
      have hnone : leadingEntries (.title found :: lines) = [] := rfl
      rw [entriesUnder, ih, sectionsOf, entriesOf_cons, hnone, ite_self, List.nil_append]
      simp only [Option.some.injEq]
    | entry entry =>
      rw [entriesUnder, ih, sectionsOf, leadingEntries]
      by_cases hcurrent : current = some title <;> simp [hcurrent]

/-- **Merged**, the sections of lines are their outline. -/
theorem mergeSections_sectionsOf (lines : List Line) :
    mergeSections (sectionsOf lines) = outline lines := by
  rw [mergeSections_eq, map_fst_sectionsOf, outline]
  refine List.map_congr_left fun title _ => ?_
  rw [entriesUnder_eq, if_neg (by simp), List.nil_append]

/-! ## Reading lines -/

theorem readEntries_of_ok {cs rest : List Char} {entry : Entry}
    (h : readEntry cs = .ok (entry, rest)) :
    readEntries cs = (entry :: (readEntries rest).1, (readEntries rest).2) := by
  rw [readEntries]
  split
  · rename_i herror
    exact absurd (h.symm.trans herror) (by simp)
  · rename_i hok
    obtain ⟨rfl, rfl⟩ := Prod.mk.inj (Except.ok.inj (h.symm.trans hok))
    rfl

theorem readEntries_of_ne {cs : List Char} (h : ∀ read, readEntry cs ≠ .ok read) :
    readEntries cs = ([], cs) := by
  rw [readEntries]
  split
  · rfl
  · rename_i hok
    exact absurd hok (h _)

theorem readMoreSections_of_ok {cs rest : List Char} {found : Section}
    (h : readSection cs = .ok (found, rest)) :
    readMoreSections cs = (found :: (readMoreSections rest).1, (readMoreSections rest).2) := by
  rw [readMoreSections]
  split
  · rename_i herror
    exact absurd (h.symm.trans herror) (by simp)
  · rename_i hok
    obtain ⟨rfl, rfl⟩ := Prod.mk.inj (Except.ok.inj (h.symm.trans hok))
    rfl

theorem readSection_of_ok {cs rest : List Char} {title : String}
    (h : readTitle cs = .ok (title, rest)) :
    readSection cs = .ok ((title, (readEntries rest).1), (readEntries rest).2) := by
  rw [readSection, h]

theorem readSection_of_ne {cs : List Char} (h : ∀ read, readTitle cs ≠ .ok read) :
    ∃ failure, readSection cs = .error failure := by
  rcases htitle : readTitle cs with failure | read
  · exact ⟨failure, by rw [readSection, htitle]⟩
  · exact absurd htitle (h read)

theorem readMoreSections_of_error {cs : List Char} {failure : Failure}
    (h : readSection cs = .error failure) : readMoreSections cs = ([], cs) := by
  rw [readMoreSections]
  split
  · rfl
  · rename_i hok
    exact absurd (h.symm.trans hok) (by simp)

theorem readMoreSections_of_ne {cs : List Char} (h : ∀ read, readTitle cs ≠ .ok read) :
    readMoreSections cs = ([], cs) := by
  obtain ⟨failure, herror⟩ := readSection_of_ne h
  exact readMoreSections_of_error herror

/-- The lines start with none that is a title or an entry. -/
def Stray (lines : List (List Char)) : Prop :=
  ∀ line, lines.head? = some line → Unbroken line ∧ readLine? line = none

theorem Stray.readEntry_ne {stray : List (List Char)} (h : Stray stray) (read : Entry × List Char) :
    readEntry (unlines stray) ≠ .ok read := by
  cases stray with
  | nil => simp [unlines, readEntry, readSpacedIdentifier, readIdentifier, skipSpaces, Except.map]
  | cons line rest =>
    obtain ⟨hline, hnone⟩ := h line rfl
    intro hread
    have hsome := ((readEntry_line hline rest read.1 read.2).1 hread).1
    exact absurd (hnone.symm.trans hsome) (by simp)

theorem Stray.readTitle_ne {stray : List (List Char)} (h : Stray stray)
    (read : String × List Char) : readTitle (unlines stray) ≠ .ok read := by
  cases stray with
  | nil => simp [unlines, readTitle, readSpacedIdentifier, readIdentifier, skipSpaces, Except.map]
  | cons line rest =>
    obtain ⟨hline, hnone⟩ := h line rfl
    intro hread
    have hsome := ((readTitle_line hline rest read.1 read.2).1 hread).1
    exact absurd (hnone.symm.trans hsome) (by simp)

/-- **Reading lines**: first the entries that come first, then the sections, and what is left is the
first line that is neither title nor entry. -/
theorem read_lines {good stray : List (List Char)} {lines : List Line}
    (hgood : List.Forall₂ (fun text line => readLine? text = some line) good lines)
    (hunbroken : ∀ text ∈ good, Unbroken text) (hstray : Stray stray) :
    ∃ left, readEntries (unlines (good ++ stray)) = (leadingEntries lines, left) ∧
      readMoreSections left = (sectionsOf lines, unlines stray) := by
  induction hgood with
  | nil =>
    refine ⟨unlines stray, readEntries_of_ne hstray.readEntry_ne, ?_⟩
    exact readMoreSections_of_ne hstray.readTitle_ne
  | @cons text line good lines hread hgood ih =>
    obtain ⟨htext, hunbroken⟩ := List.forall_mem_cons.1 hunbroken
    obtain ⟨left, hentries, hsections⟩ := ih hunbroken
    rw [List.cons_append]
    cases line with
    | title title =>
      refine ⟨unlines (text :: (good ++ stray)), readEntries_of_ne ?_, ?_⟩
      · intro read hok
        have hentry := ((readEntry_line htext _ read.1 read.2).1 hok).1
        exact absurd (hread.symm.trans hentry) (by simp)
      · have htitle := (readTitle_line htext (good ++ stray) title _).2 ⟨hread, rfl⟩
        rw [readMoreSections_of_ok (readSection_of_ok htitle), hentries, hsections]
        rfl
    | entry entry =>
      have hok := (readEntry_line htext (good ++ stray) entry _).2 ⟨hread, rfl⟩
      refine ⟨left, ?_, hsections⟩
      rw [readEntries_of_ok hok, hentries]
      rfl

/-- From a title on, all lines are read as sections. -/
theorem readSections_lines {text : List Char} {title : String} {good stray : List (List Char)}
    {lines : List Line} (htitle : readLine? text = some (.title title))
    (hgood : List.Forall₂ (fun text line => readLine? text = some line) good lines)
    (hunbroken : ∀ line ∈ text :: good, Unbroken line) (hstray : Stray stray) :
    readSections (unlines (text :: (good ++ stray))) =
      .ok (sectionsOf (.title title :: lines), unlines stray) := by
  obtain ⟨htext, hunbroken⟩ := List.forall_mem_cons.1 hunbroken
  obtain ⟨left, hentries, hsections⟩ := read_lines hgood hunbroken hstray
  have hread := (readTitle_line htext (good ++ stray) title _).2 ⟨htitle, rfl⟩
  rw [readSections, readSection_of_ok hread, hentries]
  show Except.ok (_ :: (readMoreSections left).1, (readMoreSections left).2) = _
  rw [hsections]
  rfl

theorem readSections_of_ne {cs : List Char} (h : ∀ read, readTitle cs ≠ .ok read) :
    ∃ failure, readSections cs = .error failure := by
  obtain ⟨failure, herror⟩ := readSection_of_ne h
  exact ⟨failure, by rw [readSections, herror]⟩

/-! ## Documents -/

/-- The lines that matter: those between `\n`, without the `\r` of a line ending, that are neither
blank nor a comment. -/
def bodyLines (cs : List Char) : List (List Char) :=
  ((Text.pieces '\n' cs).map Text.dropReturn).filter isContent

/-- The first of the lines is a title. -/
def StartsWithTitle (lines : List (List Char)) : Prop :=
  ∃ line title, lines.head? = some line ∧ ReadsAs line (.title title)

theorem contentLines_eq_bodyLines {cs : List Char} (h : ReturnsEndLines cs) :
    contentLines cs = bodyLines cs :=
  Text.filter_linesOfPieces rfl (Text.pieces_of_returnsEndLines h).2

theorem unbroken_of_mem_bodyLines {cs line : List Char} (h : ReturnsEndLines cs)
    (hline : line ∈ bodyLines cs) : Unbroken line := by
  obtain ⟨hpiece, -⟩ := List.mem_filter.1 hline
  obtain ⟨piece, hmem, rfl⟩ := List.mem_map.1 hpiece
  intro c hc
  have hbreak : c ≠ '\n' := by
    rintro rfl
    exact Text.notMem_of_mem_pieces hmem (Text.mem_of_mem_dropReturn hc)
  have hreturn : c ≠ '\r' := by
    rintro rfl
    exact (Text.pieces_of_returnsEndLines h).1 piece hmem hc
  simp [isLineChar, hbreak, hreturn]

/-- A line that matters is not blank, whatever follows it. -/
theorem trim_unlines_ne_nil {cs line : List Char} (hline : line ∈ bodyLines cs)
    (rest : List (List Char)) : Text.trim (unlines (line :: rest)) ≠ [] := by
  intro hblank
  have hall := Text.trim_eq_nil_iff.1 hblank
  rw [Text.unlines_cons] at hall
  have hnil : Text.trim line = [] :=
    Text.trim_eq_nil_iff.2 fun c hc => hall c (List.mem_append_left _ hc)
  have hcontent := (List.mem_filter.1 hline).2
  rw [isContent, hnil] at hcontent
  exact absurd hcontent (by decide)

theorem stray_of_not_readsAs {lines : List (List Char)} (hunbroken : ∀ line ∈ lines, Unbroken line)
    (h : ∀ line, lines.head? = some line → ∀ x, ¬ReadsAs line x) : Stray lines := by
  intro line hline
  refine ⟨hunbroken line (List.mem_of_head? hline), ?_⟩
  rcases hread : readLine? line with _ | x
  · rfl
  · exact absurd (readLine?_eq_some_iff.1 hread) (h line hline x)

theorem forall₂_readsAs_iff {body : List (List Char)} {lines : List Line} :
    List.Forall₂ ReadsAs body lines ↔ body.map readLine? = lines.map some := by
  simp only [← List.forall₂_eq_eq_eq, List.forall₂_map_left_iff, List.forall₂_map_right_iff,
    readLine?_eq_some_iff]

theorem exists_forall₂_readsAs {good : List (List Char)} (h : ∀ line ∈ good, ∃ x, ReadsAs line x) :
    ∃ lines, List.Forall₂ ReadsAs good lines := by
  induction good with
  | nil => exact ⟨[], .nil⟩
  | cons line good ih =>
    obtain ⟨⟨x, hx⟩, hgood⟩ := List.forall_mem_cons.1 h
    obtain ⟨lines, hlines⟩ := ih hgood
    exact ⟨x :: lines, .cons hx hlines⟩

theorem exists_first_stray {body : List (List Char)} (h : ¬∀ line ∈ body, ∃ x, ReadsAs line x) :
    ∃ good stray rest, body = good ++ stray :: rest ∧ (∀ line ∈ good, ∃ x, ReadsAs line x) ∧
      ∀ x, ¬ReadsAs stray x := by
  induction body with
  | nil => exact absurd (by simp) h
  | cons line body ih =>
    by_cases hline : ∃ x, ReadsAs line x
    · have hbody : ¬∀ line ∈ body, ∃ x, ReadsAs line x :=
        fun hbody => h (List.forall_mem_cons.2 ⟨hline, hbody⟩)
      obtain ⟨good, stray, rest, rfl, hgood, hstray⟩ := ih hbody
      exact ⟨line :: good, stray, rest, rfl, List.forall_mem_cons.2 ⟨hline, hgood⟩, hstray⟩
    · exact ⟨[], line, body, rfl, by simp, fun x hx => hline ⟨x, hx⟩⟩

section

variable {text : String} (h : ReturnsEndLines text.toList)
include h

theorem readSections_content {good stray : List (List Char)} {lines : List Line}
    (hbody : bodyLines text.toList = good ++ stray) (hstart : StartsWithTitle good)
    (hlines : List.Forall₂ ReadsAs good lines)
    (hstray : ∀ line, stray.head? = some line → ∀ x, ¬ReadsAs line x) :
    readSections (content text.toList) = .ok (sectionsOf lines, unlines stray) := by
  have hunbroken : ∀ line ∈ good ++ stray, Unbroken line := by
    intro line hline
    exact unbroken_of_mem_bodyLines h (hbody ▸ hline)
  obtain ⟨first, title, hhead, htitle⟩ := hstart
  obtain ⟨rest, rfl⟩ := List.head?_eq_some_iff.1 hhead
  obtain ⟨line, lines, hfirst, hrest, rfl⟩ := List.forall₂_cons_left_iff.1 hlines
  have hread := readLine?_eq_some_iff.2 htitle
  obtain rfl : Line.title title = line :=
    Option.some.inj (hread.symm.trans (readLine?_eq_some_iff.2 hfirst))
  rw [content, contentLines_eq_bodyLines h, hbody]
  apply readSections_lines hread
  · exact hrest.imp fun _ _ => readLine?_eq_some_iff.2
  · exact fun line hline => hunbroken line (List.mem_append_left _ hline)
  · exact stray_of_not_readsAs (fun line hline => hunbroken line (List.mem_append_right _ hline))
      hstray

theorem sections_of_readsAs {lines : List Line} (hstart : StartsWithTitle (bodyLines text.toList))
    (hlines : List.Forall₂ ReadsAs (bodyLines text.toList) lines) :
    sections text = .ok (outline lines) := by
  have hread := readSections_content h (List.append_nil _).symm hstart hlines (by simp)
  have hempty : (Text.trim (unlines [])).isEmpty = true := by decide
  rw [sections, hread]
  simp only [hempty, if_true, mergeSections_sectionsOf]

theorem sections_of_stray {good rest : List (List Char)} {stray : List Char}
    (hbody : bodyLines text.toList = good ++ stray :: rest)
    (hstart : StartsWithTitle (bodyLines text.toList)) (hgood : ∀ line ∈ good, ∃ x, ReadsAs line x)
    (hstray : ∀ x, ¬ReadsAs stray x) :
    sections text = .error (.strayLine (String.ofList (Text.trim stray))) := by
  have hmem : stray ∈ bodyLines text.toList := by simp [hbody]
  have hgoodStart : StartsWithTitle good := by
    obtain ⟨first, title, hhead, htitle⟩ := hstart
    rw [hbody] at hhead
    cases good with
    | nil =>
      obtain rfl : stray = first := Option.some.inj hhead
      exact absurd htitle (hstray _)
    | cons line good => exact ⟨first, title, hhead, htitle⟩
  obtain ⟨lines, hlines⟩ := exists_forall₂_readsAs hgood
  have hread := readSections_content h hbody hgoodStart hlines (by simpa using hstray)
  have hfull := trim_unlines_ne_nil hmem rest
  obtain ⟨hbreak, hreturn⟩ := (unbroken_of_mem_bodyLines h hmem).notMem
  have hne : stray ≠ [] := by
    rintro rfl
    exact trim_unlines_ne_nil hmem [] rfl
  have hfirst : firstLine (unlines (stray :: rest)) = String.ofList (Text.trim stray) := by
    rw [firstLine, Text.lines_unlines_head hbreak hreturn hne]
  rw [sections, hread]
  simp [hfull, hfirst]

theorem sections_of_not_startsWithTitle (hstart : ¬StartsWithTitle (bodyLines text.toList)) :
    ∃ failure, sections text = .error (.unreadable failure) := by
  have hnone : ∀ read, readTitle (content text.toList) ≠ .ok read := by
    rw [content, contentLines_eq_bodyLines h]
    intro read hread
    rcases hbody : bodyLines text.toList with _ | ⟨line, rest⟩
    · rw [hbody] at hread
      exact absurd hread (Stray.readTitle_ne (by simp [Stray]) read)
    · have hline : Unbroken line := unbroken_of_mem_bodyLines h (hbody ▸ List.mem_cons_self ..)
      rw [hbody] at hread hstart
      have htitle := ((readTitle_line hline rest read.1 read.2).1 hread).1
      exact hstart ⟨line, read.1, rfl, readLine?_eq_some_iff.1 htitle⟩
  obtain ⟨failure, herror⟩ := readSections_of_ne hnone
  exact ⟨failure, by rw [sections, herror]⟩

end

/-- **A text is a document just when** its first line is a title and every line a title or an entry.
Then its sections are the outline of its lines. Otherwise the error names the first line that is
neither, unless it is the title at the start that is missing. -/
theorem sections_grammar {text : String} (h : ReturnsEndLines text.toList) :
    ((∃ found, sections text = .ok found) ↔
        StartsWithTitle (bodyLines text.toList) ∧
          ∀ line ∈ bodyLines text.toList, ∃ x, ReadsAs line x) ∧
      (∀ lines, StartsWithTitle (bodyLines text.toList) →
        List.Forall₂ ReadsAs (bodyLines text.toList) lines →
          sections text = .ok (outline lines)) ∧
      (∀ good stray rest, StartsWithTitle (bodyLines text.toList) →
        bodyLines text.toList = good ++ stray :: rest → (∀ line ∈ good, ∃ x, ReadsAs line x) →
          (∀ x, ¬ReadsAs stray x) →
            sections text = .error (.strayLine (String.ofList (Text.trim stray)))) ∧
      (¬StartsWithTitle (bodyLines text.toList) →
        ∃ failure, sections text = .error (.unreadable failure)) := by
  refine ⟨⟨?_, ?_⟩, fun lines => sections_of_readsAs h,
    fun good stray rest hstart hbody => sections_of_stray h hbody hstart,
    sections_of_not_startsWithTitle h⟩
  · rintro ⟨found, hfound⟩
    have hstart : StartsWithTitle (bodyLines text.toList) := by
      by_contra hstart
      obtain ⟨failure, herror⟩ := sections_of_not_startsWithTitle h hstart
      exact absurd (herror.symm.trans hfound) (by simp)
    refine ⟨hstart, ?_⟩
    by_contra hall
    obtain ⟨good, stray, rest, hbody, hgood, hstray⟩ := exists_first_stray hall
    have herror := sections_of_stray h hbody hstart hgood hstray
    exact absurd (herror.symm.trans hfound) (by simp)
  · rintro ⟨hstart, hall⟩
    obtain ⟨lines, hlines⟩ := exists_forall₂_readsAs hall
    exact ⟨_, sections_of_readsAs h hstart hlines⟩

theorem sections_grammar_mixed_document :
    let good := "# flow\r\nvalues\r\n a : 1 \r\n\r\nequations\nvalues\nb:"
    let faulty := good ++ "\n2 + c\nd: 4"
    ReturnsEndLines good.toList ∧
      sections good = .ok [("values", [("a", "1"), ("b", "")]), ("equations", [])] ∧
      ReturnsEndLines faulty.toList ∧ sections faulty = .error (.strayLine "2 + c") := by
  intro good faulty
  have hgood : ReturnsEndLines good.toList := by decide +kernel
  have hfaulty : ReturnsEndLines faulty.toList := by decide +kernel
  have hbody : bodyLines good.toList =
      ["values", " a : 1 ", "equations", "values", "b:"].map String.toList := by decide +kernel
  have hbody' : bodyLines faulty.toList =
      bodyLines good.toList ++ "2 + c".toList :: ["d: 4".toList] := by decide +kernel
  have hlines : List.Forall₂ ReadsAs (bodyLines good.toList)
      [.title "values", .entry ("a", "1"), .title "equations", .title "values",
        .entry ("b", "")] := by
    rw [hbody, forall₂_readsAs_iff]
    decide +kernel
  have htitle : ReadsAs "values".toList (.title "values") :=
    readLine?_eq_some_iff.1 (by decide +kernel)
  have hstart : StartsWithTitle (bodyLines good.toList) := ⟨_, _, by rw [hbody]; rfl, htitle⟩
  have hstart' : StartsWithTitle (bodyLines faulty.toList) :=
    ⟨_, _, by rw [hbody', hbody]; rfl, htitle⟩
  have hstray : ∀ x, ¬ReadsAs "2 + c".toList x := by
    intro x hx
    have hnone : readLine? "2 + c".toList = none := by decide +kernel
    exact absurd (hnone.symm.trans (readLine?_eq_some_iff.2 hx)) (by simp)
  have hok := (sections_grammar hgood).2.1 _ hstart hlines
  have hread := ((sections_grammar hgood).1.1 ⟨_, hok⟩).2
  have herror := (sections_grammar hfaulty).2.2.1 _ _ _ hstart' hbody' hread hstray
  exact ⟨hgood, hok, hfaulty, herror⟩

end EquationNetwork.Document
