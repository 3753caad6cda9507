import Mathlib.Data.List.TakeWhile
import EquationNetwork.Document.Reader

/-!
# Reading again and again

A loop reads one thing after the other until nothing more can be read.  It ends if what it repeats
uses up text every time.

* `Document.Progresses` — a reader leaves a proper suffix of the text.
* `Document.repeated` — the loop, with a number of turns; it stalls when something is read that uses
  up no text.
* `Document.Progresses.exists_ended` — **a reader that makes progress never stalls the loop**, and
  one turn more than there are characters is enough.
* `Document.repeated_induction` — what a loop that ends has gone through.
* `Document.Loops` — a reader that reads one thing first and then loops; `Document.Loops.stops` and
  `Document.Loops.progresses` say where it stops and that it makes progress.
-/

namespace EquationNetwork.Document

variable {α β γ : Type}

/-! ## Progress -/

/-- A reader uses up text and loses none: it leaves a proper suffix. -/
def Progresses (read : List Char → Reading α) : Prop :=
  ∀ ⦃cs : List Char⦄ ⦃x : α⦄ ⦃rest : List Char⦄, read cs = .ok (x, rest) → rest <:+ cs ∧ rest ≠ cs

section

variable {read : List Char → Reading α}

theorem Progresses.length_lt (h : Progresses read) {cs rest : List Char} {x : α}
    (hread : read cs = .ok (x, rest)) : rest.length < cs.length := by
  obtain ⟨hsuffix, hne⟩ := h hread
  exact Nat.lt_of_le_of_ne hsuffix.length_le fun heq => hne (hsuffix.eq_of_length heq)

/-- A shorter suffix is a proper one. -/
theorem progresses_of_length_lt
    (hsuffix : ∀ {cs rest : List Char} {x : α}, read cs = .ok (x, rest) → rest <:+ cs)
    (hlength : ∀ {cs rest : List Char} {x : α}, read cs = .ok (x, rest) → rest.length < cs.length) :
    Progresses read := by
  intro cs x rest h
  refine ⟨hsuffix h, ?_⟩
  rintro rfl
  exact Nat.lt_irrefl _ (hlength h)

end

/-! ## Loops -/

/-- What comes of reading again and again. -/
inductive Repetition (α : Type) where
  /-- The reader failed after what it had found, and this text is left. -/
  | ended (found : List α) (rest : List Char)
  /-- The reader succeeded without using up text. -/
  | stalled
  /-- There were no turns left. -/
  | unfinished
deriving DecidableEq

/-- What is found in one turn comes before what is found in the others. -/
def Repetition.cons (x : α) : Repetition α → Repetition α
  | ended found rest => ended (x :: found) rest
  | stalled => stalled
  | unfinished => unfinished

/-- Reads again and again, in a number of turns, until the reader fails.  A reader that succeeds
without using up text would go on forever, so it ends the loop at once. -/
def repeated (read : List Char → Reading α) : Nat → List Char → Repetition α
  | 0, _ => .unfinished
  | turns + 1, cs =>
      match read cs with
      | .error _ => .ended [] cs
      | .ok (x, rest) =>
          if rest.length = cs.length then .stalled else (repeated read turns rest).cons x

section Repeated

variable {read : List Char → Reading α}

theorem repeated_of_error {cs : List Char} {failure : Failure} (h : read cs = .error failure)
    (turns : Nat) : repeated read (turns + 1) cs = .ended [] cs := by
  rw [repeated, h]

theorem repeated_of_ok (hread : Progresses read) {cs rest : List Char} {x : α}
    (h : read cs = .ok (x, rest)) (turns : Nat) :
    repeated read (turns + 1) cs = (repeated read turns rest).cons x := by
  rw [repeated, h]
  exact if_neg (Nat.ne_of_lt (hread.length_lt h))

/-- **A reader that makes progress never stalls the loop**, and one turn more than there are
characters is enough. -/
theorem Progresses.exists_ended (hread : Progresses read) (cs : List Char) :
    ∃ found last, ∀ turns, cs.length < turns → repeated read turns cs = .ended found last := by
  -- a turn leaves fewer characters, so one turn for each of them is enough, and one to fail
  induction hlength : cs.length using Nat.strong_induction_on generalizing cs with
  | _ length ih =>
    rcases h : read cs with failure | ⟨x, rest⟩
    · refine ⟨[], cs, fun turns hturns => ?_⟩
      obtain ⟨turns, rfl⟩ := Nat.exists_eq_add_one_of_ne_zero (Nat.ne_zero_of_lt hturns)
      exact repeated_of_error h turns
    · have hshorter := hread.length_lt h
      obtain ⟨found, last, hrest⟩ := ih rest.length (hlength ▸ hshorter) rest rfl
      refine ⟨x :: found, last, fun turns hturns => ?_⟩
      obtain ⟨turns, rfl⟩ := Nat.exists_eq_add_one_of_ne_zero (Nat.ne_zero_of_lt hturns)
      rw [repeated_of_ok hread h, hrest turns (by omega)]
      rfl

/-- A reader that succeeds without using up text does stall it. -/
example : repeated (fun cs => .ok ((), cs)) 3 ['a'] = .stalled := by decide

/-- What holds where the reader fails, and holds before a turn if it does after it, holds of a loop
that has ended. -/
theorem repeated_induction {P : List Char → List α → List Char → Prop}
    (hstop : ∀ {cs : List Char} {failure : Failure}, read cs = .error failure → P cs [] cs)
    (hmore : ∀ {cs rest last : List Char} {x : α} {found : List α}, read cs = .ok (x, rest) →
      P rest found last → P cs (x :: found) last) {turns : Nat} :
    ∀ {cs last : List Char} {found : List α}, repeated read turns cs = .ended found last →
      P cs found last := by
  induction turns with
  | zero => exact fun h => absurd h (by simp [repeated])
  | succ turns ih =>
    intro cs last found h
    rcases hread : read cs with failure | ⟨x, rest⟩
    · rw [repeated_of_error hread] at h
      cases h
      exact hstop hread
    · rw [repeated, hread] at h
      dsimp only at h
      split at h
      · exact absurd h (by simp)
      · rcases hrest : repeated read turns rest with ⟨more, left⟩ | _ | _
        · rw [hrest] at h
          cases h
          exact hmore hread (ih hrest)
        · exact absurd h (by simp [hrest, Repetition.cons])
        · exact absurd h (by simp [hrest, Repetition.cons])

/-- A loop ends only where the reader fails. -/
theorem error_of_repeated {turns : Nat} {cs last : List Char} {found : List α}
    (h : repeated read turns cs = .ended found last) : ∃ failure, read last = .error failure :=
  repeated_induction (P := fun _ _ last => ∃ failure, read last = .error failure)
    (fun hread => ⟨_, hread⟩) (fun _ hlast => hlast) h

/-- A loop leaves a suffix of the text. -/
theorem suffix_of_repeated (hread : Progresses read) {turns : Nat} {cs last : List Char}
    {found : List α} (h : repeated read turns cs = .ended found last) : last <:+ cs :=
  repeated_induction (P := fun cs _ last => last <:+ cs) (fun _ => List.suffix_rfl)
    (fun hturn hlast => hlast.trans (hread hturn).1) h

end Repeated

/-- A reader reads one thing first and then another one again and again.  It fails where the first
reading fails; otherwise the loop ends, in any number of turns that is larger than that of the
characters left. -/
structure Loops (first : List Char → Reading β) (more : List Char → Reading α)
    (join : β → List α → γ) (read : List Char → Reading γ) : Prop where
  fails : ∀ {cs : List Char} {failure : Failure}, first cs = .error failure →
    read cs = .error failure
  ends : ∀ {cs left : List Char} {x : β}, first cs = .ok (x, left) →
    ∃ found last, read cs = .ok (join x found, last) ∧
      ∀ turns, left.length < turns → repeated more turns left = .ended found last

namespace Loops

variable {first : List Char → Reading β} {more : List Char → Reading α} {join : β → List α → γ}
  {read : List Char → Reading γ}

/-- What it takes to read with a loop. -/
theorem exists_of_ok (h : Loops first more join read) {cs rest : List Char} {y : γ}
    (hread : read cs = .ok (y, rest)) :
    ∃ x left found turns, first cs = .ok (x, left) ∧
      repeated more turns left = .ended found rest := by
  rcases hfirst : first cs with failure | ⟨x, left⟩
  · exact absurd ((h.fails hfirst).symm.trans hread) (by simp)
  · obtain ⟨found, last, hok, hturns⟩ := h.ends hfirst
    cases hok.symm.trans hread
    exact ⟨x, left, found, _, rfl, hturns _ (Nat.lt_succ_self _)⟩

/-- **A reader that loops stops** only where what it repeats fails. -/
theorem stops (h : Loops first more join read) {cs rest : List Char} {y : γ}
    (hread : read cs = .ok (y, rest)) : ∃ failure, more rest = .error failure := by
  obtain ⟨x, left, found, turns, -, hloop⟩ := h.exists_of_ok hread
  exact error_of_repeated hloop

/-- **A reader that loops makes progress**, if its parts do. -/
theorem progresses (h : Loops first more join read) (hfirst : Progresses first)
    (hmore : Progresses more) : Progresses read := by
  intro cs y rest hread
  obtain ⟨x, left, found, turns, hok, hloop⟩ := h.exists_of_ok hread
  have hsuffix := suffix_of_repeated hmore hloop
  have hshorter := hfirst.length_lt hok
  refine ⟨hsuffix.trans (hfirst hok).1, ?_⟩
  rintro rfl
  exact absurd hsuffix.length_le (Nat.not_le.2 hshorter)

end Loops

end EquationNetwork.Document
