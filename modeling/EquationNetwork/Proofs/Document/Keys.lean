import EquationNetwork.Proofs.Document.LineReaders
import EquationNetwork.Proofs.Document.Merging
import EquationNetwork.Proofs.Token.Lexemes

/-!
# The keys of entries

The keys in a document are identifiers, so none of them is a numeral.

* `Document.Keyed` — the keys of entries are identifiers.
* `Document.keyed_of_readEntries`, `Document.keyed_of_readSections` — **what is read** is keyed.
* `Document.keyed_of_sections` — and so are the entries under each title of a document.
-/

namespace EquationNetwork.Document

/-- An identifier is no numeral. -/
theorem IsIdentifier.numeral? {word : List Char} (h : IsIdentifier word) :
    Decimal.numeral? (String.ofList word) = none := by
  obtain ⟨head, tail, rfl, hhead, -⟩ := h
  refine Decimal.numeral?_eq_none String.toList_ofList ?_ ?_
  · rw [isHead, Bool.or_eq_true, beq_iff_eq] at hhead
    rcases hhead with hletter | rfl
    · exact Scanner.isDigit_of_isLetter hletter
    · decide
  · rintro rfl
    exact absurd hhead (by decide)

/-- The keys of the entries are identifiers. -/
def Keyed (entries : List Entry) : Prop := ∀ entry ∈ entries, IsIdentifier entry.1.toList

theorem Keyed.numeral? {entries : List Entry} (h : Keyed entries) {entry : Entry}
    (hentry : entry ∈ entries) : Decimal.numeral? entry.1 = none := by
  rw [← String.ofList_toList (s := entry.1)]
  exact (h entry hentry).numeral?

theorem isIdentifier_of_readEntry {cs rest : List Char} {entry : Entry}
    (h : readEntry cs = .ok (entry, rest)) : IsIdentifier entry.1.toList := by
  unfold readEntry at h
  split at h
  · exact absurd h (by simp)
  · rename_i key after hread
    obtain ⟨_, word, _, -, -, hword, -, rfl⟩ := exists_of_readSpacedIdentifier hread
    split at h
    · exact absurd h (by simp)
    · obtain ⟨rfl, -⟩ := Prod.mk.inj (Except.ok.inj h)
      rwa [String.toList_ofList]
  · exact absurd h (by simp)

theorem keyed_of_readEntries (cs : List Char) : Keyed (readEntries cs).1 := by
  fun_induction readEntries cs with
  | case1 => exact fun entry hentry => absurd hentry List.not_mem_nil
  | case2 cs entry rest hread entries left hleft ih =>
    rw [hleft] at ih
    exact List.forall_mem_cons.2 ⟨isIdentifier_of_readEntry hread, ih⟩

theorem keyed_of_readSection {cs rest : List Char} {found : Section}
    (h : readSection cs = .ok (found, rest)) : Keyed found.2 := by
  unfold readSection at h
  split at h
  · exact absurd h (by simp)
  · rename_i title left _
    obtain ⟨rfl, -⟩ := Prod.mk.inj (Except.ok.inj h)
    exact keyed_of_readEntries left

theorem keyed_of_readMoreSections (cs : List Char) : ∀ s ∈ (readMoreSections cs).1, Keyed s.2 := by
  fun_induction readMoreSections cs with
  | case1 => exact fun s hs => absurd hs List.not_mem_nil
  | case2 cs found rest hread sections left hleft ih =>
    rw [hleft] at ih
    exact List.forall_mem_cons.2 ⟨keyed_of_readSection hread, ih⟩

/-- **What is read** has keys that are identifiers. -/
theorem keyed_of_readSections {cs rest : List Char} {found : List Section}
    (h : readSections cs = .ok (found, rest)) : ∀ s ∈ found, Keyed s.2 := by
  unfold readSections at h
  split at h
  · exact absurd h (by simp)
  · rename_i first left hread
    obtain ⟨rfl, -⟩ := Prod.mk.inj (Except.ok.inj h)
    exact List.forall_mem_cons.2 ⟨keyed_of_readSection hread, keyed_of_readMoreSections left⟩

/-- The entries under a title of a document have identifiers for keys. -/
theorem keyed_of_sections {text title : String} {found : List Section} {entries : List Entry}
    (h : sections text = .ok found) (hentries : entries? found title = some entries) :
    Keyed entries := by
  unfold sections at h
  split at h
  · exact absurd h (by simp)
  · rename_i read rest hread
    split at h
    · obtain rfl := Except.ok.inj h
      rw [entries?_mergeSections] at hentries
      split at hentries
      · obtain rfl := Option.some.inj hentries
        intro entry hentry
        obtain ⟨s, hs, hentry⟩ := List.mem_flatMap.1 hentry
        exact keyed_of_readSections hread s (List.mem_filter.1 hs).1 entry hentry
      · exact absurd hentries (by simp)
    · exact absurd h (by simp)

end EquationNetwork.Document
