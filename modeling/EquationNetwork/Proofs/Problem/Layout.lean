import EquationNetwork.Problem
import EquationNetwork.Proofs.Document.Merging

/-!
# The layout of a document

Sections may stand in any order, and a section may be split into several of its title.

* `Document.SameEntries` — two layouts of the same entries.
* `Plan.ofSections_congr` — a plan depends on what stands under the titles that it knows.
* `Plan.ofText_congr`, `Problem.ofText_of_sameEntries` — **documents with the same entries
  under each title are the same problem**, or fail in the same way.
-/

namespace EquationNetwork

open Document (content readSections entriesOf mergeSections)

/-- A plan depends on what stands under the titles that it knows, if there are no others. -/
theorem Plan.ofSections_congr {sections others : List Document.Section}
    (hsections : ∀ s ∈ sections, s.1 ∈ sectionTitles) (hothers : ∀ s ∈ others, s.1 ∈ sectionTitles)
    (hentries : ∀ title ∈ sectionTitles,
      Document.entries? sections title = Document.entries? others title) :
    Plan.ofSections sections = Plan.ofSections others := by
  have hnone : ∀ {sections : List Document.Section}, (∀ s ∈ sections, s.1 ∈ sectionTitles) →
      sections.find? (fun found => !sectionTitles.contains found.1) = none := by
    intro sections h
    rw [List.find?_eq_none]
    intro s hs
    simpa using h s hs
  have hequations := hentries "equations" (by decide)
  have hvalues := hentries "values" (by decide)
  have hsettings := hentries "settings" (by decide)
  have hunknowns := hentries "unknowns" (by decide)
  rw [Plan.ofSections, Plan.ofSections, hnone hsections, hnone hothers]
  simp only [hequations, hvalues, hsettings, hunknowns]

namespace Document

/-- Two layouts of the same entries: no title but the four, and for each of these, in both or in
neither, the same entries in the same order. -/
structure SameEntries (found others : List Section) : Prop where
  known : ∀ s ∈ found ++ others, s.1 ∈ sectionTitles
  titles : ∀ title ∈ sectionTitles, title ∈ found.map Prod.fst ↔ title ∈ others.map Prod.fst
  entries : ∀ title ∈ sectionTitles, entriesOf found title = entriesOf others title

theorem sections_of_readSections {text : String} {found : List Section}
    (h : readSections (content text.toList) = .ok (found, [])) :
    sections text = .ok (mergeSections found) := by
  rw [sections, h]
  rfl

end Document

open Document (SameEntries)

/-- The plan of a document does not depend on its layout. -/
theorem Plan.ofText_congr {text other : String} {found others : List Document.Section}
    (hread : readSections (content text.toList) = .ok (found, []))
    (hother : readSections (content other.toList) = .ok (others, []))
    (hsame : SameEntries found others) : Plan.ofText text = Plan.ofText other := by
  rw [Plan.ofText, Plan.ofText, Document.sections_of_readSections hread,
    Document.sections_of_readSections hother]
  apply Plan.ofSections_congr
  · apply Document.forall_mem_mergeSections
    exact fun s hs => hsame.known s (List.mem_append_left _ hs)
  · apply Document.forall_mem_mergeSections
    exact fun s hs => hsame.known s (List.mem_append_right _ hs)
  · intro title htitle
    rw [Document.entries?_mergeSections, Document.entries?_mergeSections,
      hsame.entries title htitle]
    simp only [hsame.titles title htitle]

/-- **Layout does not matter**: sections may change places, split and join. The problem of the
document, or the error, is the same, and so is what is found, stored and told on the way. -/
theorem Problem.ofText_of_sameEntries {text other : String} {found others : List Document.Section}
    (hread : readSections (content text.toList) = .ok (found, []))
    (hother : readSections (content other.toList) = .ok (others, []))
    (hsame : SameEntries found others) :
    Problem.ofText text = Problem.ofText other ∧
      (Problem.ofText text).map Problem.run = (Problem.ofText other).map Problem.run ∧
      Problem.loadEvents text = Problem.loadEvents other := by
  have hplan := Plan.ofText_congr hread hother hsame
  have hproblem : Problem.ofText text = Problem.ofText other := by
    rw [Problem.ofText, Problem.ofText, hplan]
  refine ⟨hproblem, ?_, ?_⟩
  · rw [hproblem]
  · rw [Problem.loadEvents, Problem.loadEvents, hplan]

/-- The settings come last, and the equations in two parts with the values between them. -/
theorem Problem.ofText_of_sameEntries_split :
    let text :=
      "settings\nmax_nesting_depth: 3\n" ++ "equations\nf: a = b + 2\ng: c = a * b\n" ++
        "values\nb: 1"
    let other :=
      "equations\nf: a = b + 2\n" ++ "values\nb: 1\n" ++ "equations\ng: c = a * b\n" ++
        "settings\nmax_nesting_depth: 3"
    (∃ problem, Problem.ofText text = .ok problem) ∧
      Problem.ofText text = Problem.ofText other := by
  intro text other
  have hread : readSections (content text.toList) =
      .ok ([("settings", [("max_nesting_depth", "3")]),
        ("equations", [("f", "a = b + 2"), ("g", "c = a * b")]),
        ("values", [("b", "1")])], []) := by decide +kernel
  have hother : readSections (content other.toList) =
      .ok ([("equations", [("f", "a = b + 2")]), ("values", [("b", "1")]),
        ("equations", [("g", "c = a * b")]),
        ("settings", [("max_nesting_depth", "3")])], []) := by decide +kernel
  have hok : (Problem.ofText text).toBool = true := by decide +kernel
  refine ⟨?_, (Problem.ofText_of_sameEntries hread hother ⟨?_, ?_, ?_⟩).1⟩
  · rcases hproblem : Problem.ofText text with error | problem
    · rw [hproblem] at hok
      exact absurd hok Bool.false_ne_true
    · exact ⟨problem, rfl⟩
  · decide
  · decide
  · decide

end EquationNetwork
