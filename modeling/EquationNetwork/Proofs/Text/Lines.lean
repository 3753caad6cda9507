import Mathlib.Data.List.TakeWhile
import Mathlib.Tactic
import EquationNetwork.Text.Lines

/-!
# Line breaks

* `Text.ReturnsEndLines` — a `\r` stands nowhere but before a `\n`.
* `Text.pieces_of_returnsEndLines` — **no line of such a text holds a `\r`**, once those of its
  line endings are taken off.
* `Text.filter_linesOfPieces` — but for empty lines, the lines of a text are its pieces.
* `Text.unlines_cons`, `Text.lines_unlines_head` — lines put together, and the first of them found
  again.
* `Text.trim_eq_nil_iff` — a line is blank when all its characters are.
-/

namespace EquationNetwork.Text

/-! ## Pieces -/

theorem notMem_of_mem_pieces {separator : Char} {cs piece : List Char}
    (h : piece ∈ pieces separator cs) : separator ∉ piece := by
  induction cs generalizing piece with
  | nil =>
    obtain rfl := List.mem_singleton.1 h
    exact List.not_mem_nil
  | cons c cs ih =>
    rw [pieces] at h
    split at h
    · rcases List.mem_cons.1 h with rfl | h
      · exact List.not_mem_nil
      · exact ih h
    · rename_i hc
      rcases hpieces : pieces separator cs with _ | ⟨first, others⟩
      · exact absurd hpieces (pieces_ne_nil separator cs)
      · rw [hpieces] at h
        rcases List.mem_cons.1 h with rfl | h
        · rw [List.mem_cons, not_or]
          exact ⟨Ne.symm hc, ih (hpieces ▸ List.mem_cons_self ..)⟩
        · exact ih (hpieces ▸ List.mem_cons_of_mem _ h)

/-! ## Returns -/

/-- Every `\r` stands directly before a `\n`. -/
def ReturnsEndLines : List Char → Prop
  | [] => True
  | c :: cs => (c = '\r' → cs.head? = some '\n') ∧ ReturnsEndLines cs

instance decidableReturnsEndLines : (cs : List Char) → Decidable (ReturnsEndLines cs)
  | [] => .isTrue trivial
  | c :: cs =>
      have := decidableReturnsEndLines cs
      inferInstanceAs (Decidable ((c = '\r' → cs.head? = some '\n') ∧ ReturnsEndLines cs))

theorem dropReturn_cons {c : Char} (hc : c ≠ '\r') (line : List Char) :
    dropReturn (c :: line) = c :: dropReturn line := by
  cases line with
  | nil => simp [dropReturn, hc]
  | cons d line =>
    rw [dropReturn, dropReturn, List.getLast?_cons_cons]
    split <;> rfl

theorem dropReturn_of_notMem {line : List Char} (h : '\r' ∉ line) : dropReturn line = line :=
  if_neg fun hlast => h (List.mem_of_getLast? hlast)

theorem mem_of_mem_dropReturn {line : List Char} {c : Char} (h : c ∈ dropReturn line) :
    c ∈ line := by
  rw [dropReturn] at h
  split at h
  · exact List.mem_of_mem_dropLast h
  · exact h

/-- **No line of the text holds a `\r`**, once those of its line endings are taken off, and what
follows the last `\n` holds none at all. -/
theorem pieces_of_returnsEndLines {cs : List Char} (h : ReturnsEndLines cs) :
    (∀ piece ∈ pieces '\n' cs, '\r' ∉ dropReturn piece) ∧
      ∀ last, (pieces '\n' cs).getLast? = some last → '\r' ∉ last := by
  induction cs with
  | nil => simp [pieces, dropReturn]
  | cons c cs ih =>
    obtain ⟨hreturn, hrest⟩ := h
    obtain ⟨hpieces, hlast⟩ := ih hrest
    rcases hsplit : pieces '\n' cs with _ | ⟨first, others⟩
    · exact absurd hsplit (pieces_ne_nil '\n' cs)
    rw [hsplit] at hpieces hlast
    obtain ⟨hfirst, hothers⟩ := List.forall_mem_cons.1 hpieces
    by_cases hc : c = '\n'
    · rw [pieces, if_pos hc, hsplit]
      refine ⟨List.forall_mem_cons.2 ⟨by simp [dropReturn], hpieces⟩, fun last hend => ?_⟩
      rw [List.getLast?_cons_cons] at hend
      exact hlast last hend
    · rw [pieces, if_neg hc, hsplit]
      by_cases hcr : c = '\r'
      · -- The `\n` after it ends the first piece, which holds nothing else.
        obtain ⟨rest, rfl⟩ := List.head?_eq_some_iff.1 (hreturn hcr)
        rw [pieces, if_pos rfl] at hsplit
        obtain ⟨rfl, rfl⟩ := List.cons.inj hsplit
        refine ⟨List.forall_mem_cons.2 ⟨by simp [dropReturn, hcr], hothers⟩, fun last hend => ?_⟩
        obtain ⟨next, more, hmore⟩ := List.exists_cons_of_ne_nil (pieces_ne_nil '\n' rest)
        rw [hmore, List.getLast?_cons_cons] at hend hlast
        exact hlast last hend
      · refine ⟨List.forall_mem_cons.2 ⟨?_, hothers⟩, fun last hend => ?_⟩
        · rw [dropReturn_cons hcr, List.mem_cons, not_or]
          exact ⟨Ne.symm hcr, hfirst⟩
        · cases others with
          | nil =>
            obtain rfl : c :: first = last := Option.some.inj hend
            rw [List.mem_cons, not_or]
            exact ⟨Ne.symm hcr, hlast first rfl⟩
          | cons next more =>
            rw [List.getLast?_cons_cons] at hend hlast
            exact hlast last hend

/-! ## Lines -/

/-- But for empty lines, the lines of a text are its pieces without the `\r` of line endings. -/
theorem filter_linesOfPieces {p : List Char → Bool} (hp : p [] = false)
    {parts : List (List Char)} (hlast : ∀ last, parts.getLast? = some last → '\r' ∉ last) :
    (linesOfPieces parts).filter p = (parts.map dropReturn).filter p := by
  induction parts with
  | nil => rfl
  | cons piece rest ih =>
    cases rest with
    | nil =>
      have hkept : dropReturn piece = piece := dropReturn_of_notMem (hlast piece rfl)
      cases piece with
      | nil => simp [linesOfPieces, dropReturn, hp]
      | cons c piece => rw [List.map_singleton, hkept]; rfl
    | cons next more =>
      rw [List.getLast?_cons_cons] at hlast
      rw [linesOfPieces, List.map_cons, List.filter_cons, List.filter_cons, ih hlast]
      simp

/-- What stands after a line: a line break and the lines that follow, if there are any. -/
def afterLine : List (List Char) → List Char
  | [] => []
  | line :: rest => '\n' :: unlines (line :: rest)

theorem unlines_cons (line : List Char) (rest : List (List Char)) :
    unlines (line :: rest) = line ++ afterLine rest := by
  cases rest with
  | nil => exact (List.append_nil line).symm
  | cons next rest => rfl

/-- The first of the lines that were put together, found again. -/
theorem lines_unlines_head {line : List Char} (hbreak : '\n' ∉ line) (hreturn : '\r' ∉ line)
    (hne : line ≠ []) (rest : List (List Char)) :
    (lines (unlines (line :: rest))).headD [] = line := by
  rw [unlines_cons, lines]
  cases rest with
  | nil =>
    rw [afterLine, List.append_nil, pieces_of_notMem hbreak, linesOfPieces,
      if_neg (by simpa using hne)]
    rfl
  | cons next rest =>
    rw [afterLine, pieces_append_cons hbreak]
    obtain ⟨first, others, hpieces⟩ :=
      List.exists_cons_of_ne_nil (pieces_ne_nil '\n' (unlines (next :: rest)))
    rw [hpieces, linesOfPieces, dropReturn_of_notMem hreturn]
    · rfl
    · simp

/-! ## Blank lines -/

theorem trim_eq_nil_iff {cs : List Char} : trim cs = [] ↔ ∀ c ∈ cs, isBlank c = true := by
  rw [trim, trimRight, List.reverse_eq_nil_iff, trimLeft, List.dropWhile_eq_nil_iff]
  constructor
  · intro h c hc
    rw [← List.takeWhile_append_dropWhile (p := isBlank) (l := cs), List.mem_append] at hc
    rcases hc with hc | hc
    · exact List.mem_takeWhile_imp hc
    · exact h c (List.mem_reverse.2 hc)
  · intro h c hc
    exact h c ((List.dropWhile_sublist _).mem (List.mem_reverse.1 hc))

end EquationNetwork.Text
