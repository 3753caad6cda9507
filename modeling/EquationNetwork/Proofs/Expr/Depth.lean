import EquationNetwork.Proofs.Expr.Isolation
import EquationNetwork.Proofs.Expr.Nesting
import EquationNetwork.Proofs.Expr.WellFormed

/-!
# The depth of solutions

A move takes a level off the side of the variable and puts one on the other side.  The operand that
crosses over may come two levels below the new root, as the exponent of a power does, but it is one
level less deep than the side it comes from, and this side has lost a level in each move before.

* `Expr.depth_of_read` — what is read is no deeper than the nesting limit allows.
* `Op.depth_undo` — what a move makes.
* `Unwinding.Within` — how deep both sides can be after some moves; `Unwinding.Within.step` — **one
  move** keeps to that, and so do all of them.
* `Expr.depth_solve`, `Expr.depth_solveMoves` — **a solution is deeper than the sides of the
  equation by its moves at most**, and there are fewer of these than levels.
* `Expr.depth_solve_of_read` — **what is read and solved** is at most twice as deep as the nesting
  limit.
-/

namespace EquationNetwork

/-- What is read is no deeper than the limit allows. -/
theorem Expr.depth_of_read {limit : Nat} {text : String} {e : Expr}
    (h : Expr.read limit text = .ok e) : e.depth ≤ limit + 1 := by
  obtain ⟨tokens, -, hparse⟩ := exists_parse_of_read h
  exact Parser.depth_of_run (Parser.run_of_parse hparse).1

/-! ## One move -/

/-- A move puts one level on the other side, and two on the operand that crosses over. -/
theorem Op.depth_undo {op : Op} {side : Side} {opposite moved after : Expr} {span : Span}
    (h : op.undo side opposite moved span = .ok after) :
    after.depth ≤ 1 + max opposite.depth (1 + moved.depth) := by
  have hmoved := moved.depth_pos
  cases op with
  | add | mul =>
    cases h
    simp only [Expr.combine, Expr.depth]
    omega
  | sub | div =>
    cases side with
    | left | right =>
      cases h
      simp only [Expr.combine, Expr.depth]
      omega
  | pow =>
    cases side with
    | left =>
      cases h
      simp only [Expr.combine, Expr.ofNumber, Expr.depth]
      omega
    | right => exact absurd h (by simp [Op.undo])
  | equals => exact absurd h (by simp [Op.undo])

namespace Unwinding

/-- How deep both sides can be after some moves, if none was deeper than the bound before: every
move has taken a level off the side of the variable, and has put one at most on the other side. -/
structure Within (bound done : Nat) (u : Unwinding) : Prop where
  current : u.current.depth + done ≤ bound
  opposite : u.opposite.depth ≤ bound + done

/-- **One move** keeps to these depths. -/
theorem Within.step {bound done : Nat} {name : String} {u next : Unwinding} {side : Side}
    (hu : u.Within bound done) (h : u.step name side = .ok next) :
    next.Within bound (done + 1) := by
  obtain ⟨op, t, l, r, hcurrent, hside⟩ := step_ok h
  have hlost := hu.current
  have hgained := hu.opposite
  rw [hcurrent] at hlost
  simp only [Expr.depth] at hlost
  -- the operand that crosses over is below the root that is taken off, so it can do with two levels
  rcases hside with ⟨-, hkept, hundo⟩ | ⟨-, hkept, hundo⟩
  · have hafter := Op.depth_undo hundo
    exact ⟨by rw [hkept]; omega, by omega⟩
  · have hafter := Op.depth_undo hundo
    exact ⟨by rw [hkept]; omega, by omega⟩

/-! ## All moves -/

/-- A run that ends well makes a move for every turn of its path. -/
theorem length_moves {name : String} {limit done : Nat} {u last : Unwinding} {path : Path}
    (h : u.run name limit done path = .ok last) :
    (u.moves name limit done path).length = path.length := by
  induction path generalizing done u with
  | nil => rfl
  | cons side path ih =>
    obtain ⟨next, hnext, hrest⟩ := run_cons h
    obtain ⟨op, t, l, r, hu, -⟩ := step_ok hnext
    rw [moves, if_neg (Nat.not_le.2 (lt_of_run_cons h)), hnext, hu]
    exact congrArg (· + 1) (ih hrest)

/-- What the moves make keeps to the same depths, whether the run ends well or not. -/
theorem depth_moves {name : String} {limit bound : Nat} {path : Path} :
    ∀ {done : Nat} {u : Unwinding}, u.Within bound done → ∀ {i : Nat} {move : Op × Expr},
      (u.moves name limit done path)[i]? = some move →
        move.2.depth ≤ bound + (done + (i + 1)) := by
  induction path with
  | nil => exact fun _ _ _ h => absurd h (by simp [moves])
  | cons side path ih =>
    intro done u hu i move h
    rw [moves] at h
    split at h
    · exact absurd h (by simp)
    · split at h
      · rename_i op next hop hnext
        have hafter := hu.step hnext
        cases i with
        | zero =>
          cases h
          exact hafter.opposite
        | succ i =>
          have hlater := ih hafter h
          omega
      · exact absurd h (by simp)

end Unwinding

/-! ## Solutions -/

namespace Expr

variable {e s : Expr} {name : String} {limit : Nat}

/-- The sides of an equation are where the moves start. -/
theorem within_start {a : Approach} (ha : e.approach name = .ok a) :
    a.start.Within (e.depth - 1) 0 := by
  obtain ⟨t, l, r, rfl, hstart, -⟩ := approach_ok ha
  rcases hstart with ⟨-, hstart⟩ | ⟨-, hstart⟩
  · rw [hstart]
    constructor <;> simp only [depth] <;> omega
  · rw [hstart]
    constructor <;> simp only [depth] <;> omega

/-- There is a move for each turn below `=` on the way to the variable. -/
theorem length_solveMoves {a : Approach} (ha : e.approach name = .ok a) {last : Unwinding}
    (hrun : a.start.run name limit 0 a.path = .ok last) :
    (e.solveMoves limit name).length = a.path.length := by
  rw [solveMoves, ha]
  exact Unwinding.length_moves hrun

/-- **The moves of a solution** are as many as there are turns on the way to the variable, but for
the first, to a side of the equation. -/
theorem exists_length_solveMoves (h : e.solve limit name = .ok s) :
    ∃ path, e.FirstOccurrence name path ∧ path.length = (e.solveMoves limit name).length + 1 := by
  obtain ⟨a, v, ha, hrun, -⟩ := solve_ok h
  refine ⟨a.side :: a.path, (approach_eq_ok_iff.1 ha).2.1, ?_⟩
  rw [length_solveMoves ha hrun, List.length_cons]

/-- **The depth of a solution.**  There are no more moves than the limit allows and than the
equation has levels between `=` and its leaves, and the solution is no deeper than the sides of the
equation, but for one level for each move. -/
theorem depth_solve (h : e.solve limit name = .ok s) :
    (e.solveMoves limit name).length ≤ limit ∧
      (e.solveMoves limit name).length + 2 ≤ e.depth ∧
      s.depth + 1 ≤ e.depth + (e.solveMoves limit name).length := by
  obtain ⟨a, v, ha, hrun, -⟩ := solve_ok h
  have hlength := length_solveMoves ha hrun
  obtain ⟨hmoves, hwithin⟩ := Unwinding.run_counted
    (P := fun done u => done ≤ limit ∧ u.Within (e.depth - 1) done)
    (fun hlimit hstep hu => ⟨hlimit, hu.2.step hstep⟩) hrun ⟨limit.zero_le, within_start ha⟩
  have hlost := hwithin.current
  have hgained := hwithin.opposite
  simp only [depth] at hlost
  simp only at hgained
  omega

/-- What a move makes is no deeper than the sides of the equation, but for one level for this move
and each before it. -/
theorem depth_solveMoves {i : Nat} {move : Op × Expr}
    (h : (e.solveMoves limit name)[i]? = some move) : move.2.depth ≤ e.depth + i := by
  unfold solveMoves at h
  split at h
  · exact absurd h (by simp)
  · rename_i a ha
    have hmove := Unwinding.depth_moves (within_start ha) h
    have hpos := e.depth_pos
    omega

/-- **A solution of what is read is at most twice as deep as the nesting limit.** -/
theorem depth_solve_of_read {nesting : Nat} {text : String} (hread : read nesting text = .ok e)
    (h : e.solve limit name = .ok s) : s.depth + 1 ≤ 2 * nesting := by
  have hdepth := depth_of_read hread
  obtain ⟨-, hmoves, hsolution⟩ := depth_solve h
  omega

/-- The expression is read from a text, under a nesting limit that is no larger than this one. -/
def IsReadWithin (nesting : Nat) (e : Expr) : Prop :=
  ∃ limit text, limit ≤ nesting ∧ Expr.read limit text = .ok e

theorem IsReadWithin.depth_solve {nesting : Nat} (he : e.IsReadWithin nesting)
    (h : e.solve limit name = .ok s) : s.depth + 1 ≤ 2 * nesting := by
  obtain ⟨within, text, hwithin, hread⟩ := he
  exact (depth_solve_of_read hread h).trans (Nat.mul_le_mul_left 2 hwithin)

end Expr

end EquationNetwork
