import EquationNetwork.Document.Sections
import EquationNetwork.Proofs.Distinct

/-!
# Sections of one title

* `Document.entriesOf` — the entries of all sections of a title.
* `Document.insertSection_map` — what one more section does to merged ones.
* `Document.mergeSections_eq` — **merged sections**: each title once, in order of first appearance,
  with the entries of all sections of that title.
* `Document.entries?_mergeSections` — the entries that are found under a title.
-/

namespace EquationNetwork.Document

/-- The entries of all sections of a title, in order. -/
def entriesOf (found : List Section) (title : String) : List Entry :=
  (found.filter fun s => s.1 = title).flatMap Prod.snd

theorem entriesOf_cons (first : Section) (found : List Section) (title : String) :
    entriesOf (first :: found) title =
      (if first.1 = title then first.2 else []) ++ entriesOf found title := by
  rw [entriesOf, entriesOf, List.filter_cons]
  by_cases hfirst : first.1 = title <;> simp [hfirst]

theorem entriesOf_concat (found : List Section) (new : Section) (title : String) :
    entriesOf (found ++ [new]) title =
      entriesOf found title ++ if new.1 = title then new.2 else [] := by
  rw [entriesOf, entriesOf, List.filter_append, List.flatMap_append]
  by_cases hnew : new.1 = title <;> simp [hnew]

/-- A section is added to the one of its title, or comes last if there is none. -/
theorem insertSection_map {titles : List String} (hdistinct : titles.Nodup)
    (entries : String → List Entry) (new : Section) :
    insertSection (titles.map fun title => (title, entries title)) new =
      (titles.map fun title => (title, entries title ++ if new.1 = title then new.2 else [])) ++
        if new.1 ∈ titles then [] else [new] := by
  induction titles with
  | nil => rfl
  | cons title titles ih =>
    obtain ⟨hfirst, hdistinct⟩ := List.nodup_cons.1 hdistinct
    rw [List.map_cons, insertSection]
    by_cases hnew : title = new.1
    · have hothers : (titles.map fun title => (title, entries title)) =
          titles.map fun title =>
            (title, entries title ++ if new.1 = title then new.2 else []) := by
        refine List.map_congr_left fun other hother => ?_
        have hne : new.1 ≠ other := fun h => hfirst (by rw [hnew, h]; exact hother)
        rw [if_neg hne, List.append_nil]
      rw [if_pos hnew, hothers]
      simp [hnew]
    · have hnew' : new.1 ≠ title := Ne.symm hnew
      rw [if_neg hnew, ih hdistinct]
      simp [hnew']

/-- **Merged sections** have each title once, in order of first appearance, with the entries of all
sections of that title. -/
theorem mergeSections_eq (found : List Section) :
    mergeSections found =
      (found.map Prod.fst).eraseDups.map fun title => (title, entriesOf found title) := by
  induction found using List.reverseRecOn with
  | nil => rfl
  | append_singleton found new ih =>
    rw [mergeSections, List.foldl_append, ← mergeSections, ih]
    show insertSection _ new = _
    rw [insertSection_map (nodup_eraseDups _), List.map_append, List.map_singleton,
      eraseDups_concat, List.map_append]
    simp only [entriesOf_concat, List.mem_eraseDups]
    congr 1
    by_cases hnew : new.1 ∈ found.map Prod.fst
    · simp [hnew]
    · have hnone : entriesOf found new.1 = [] := by
        rw [entriesOf, List.filter_eq_nil_iff.2, List.flatMap_nil]
        intro s hs htitle
        exact hnew (List.mem_map.2 ⟨s, hs, by simpa using htitle⟩)
      simp [hnew, hnone]

/-- No title comes in with merging. -/
theorem forall_mem_mergeSections {p : String → Prop} {found : List Section}
    (h : ∀ s ∈ found, p s.1) : ∀ s ∈ mergeSections found, p s.1 := by
  rw [mergeSections_eq]
  intro merged hmerged
  obtain ⟨title, htitle, rfl⟩ := List.mem_map.1 hmerged
  obtain ⟨s, hs, hname⟩ := List.mem_map.1 (List.mem_eraseDups.1 htitle)
  exact hname ▸ h s hs

theorem lookup_map_self (titles : List String) (entries : String → List Entry) (title : String) :
    (titles.map fun title => (title, entries title)).lookup title =
      if title ∈ titles then some (entries title) else none := by
  induction titles with
  | nil => rfl
  | cons first titles ih =>
    rw [List.map_cons, List.lookup_cons, ih]
    rcases eq_or_ne title first with rfl | hne
    · simp
    · rw [beq_eq_false_iff_ne.2 hne]
      simp [hne]

/-- Under a title stand the entries of all sections of that title, if there is one. -/
theorem entries?_mergeSections (found : List Section) (title : String) :
    entries? (mergeSections found) title =
      if title ∈ found.map Prod.fst then some (entriesOf found title) else none := by
  rw [entries?, mergeSections_eq, lookup_map_self]
  simp only [List.mem_eraseDups]

end EquationNetwork.Document
