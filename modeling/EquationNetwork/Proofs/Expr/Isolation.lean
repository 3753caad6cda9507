import Mathlib.Tactic
import EquationNetwork.Expr.Isolation
import EquationNetwork.Proofs.Expr.Paths

/-!
# The moves of an isolation

What one move of an isolation does, and what all of them do together.

* `Unwinding.step_ok` — one move: the operand that holds the variable stays, the other one crosses
  over through the inverse of the operator.
* `Unwinding.run_counted`, `Unwinding.run_ok` — all moves: whatever each move keeps, a run keeps.
* `Expr.approach_eq_ok_iff` — the way to a variable is the path to its first occurrence.
* `Expr.solve_ok` — a solution comes from a run from one of the sides, and that run ends at a leaf
  that is the variable.
* `Expr.isolate_ok` — the equation with the variable isolated has that leaf on the side where it
  was, and the solution on the other.
-/

namespace EquationNetwork

/-! ## Making something of a result -/

section Results

variable {α β ε : Type} {f : α → β} {x : Except ε α}

/-- What is made of a result comes from one. -/
theorem map_eq_ok_iff {b : β} : x.map f = .ok b ↔ ∃ a, x = .ok a ∧ f a = b := by
  cases x <;> simp [Except.map]

/-- What is made of a result leaves its errors as they are. -/
theorem map_eq_error_iff {error : ε} : x.map f = .error error ↔ x = .error error := by
  cases x <;> simp [Except.map]

theorem exists_map_eq_ok_iff : (∃ b, x.map f = .ok b) ↔ ∃ a, x = .ok a := by
  cases x <;> simp [Except.map]

/-- What succeeds in more cases, with the same result, does so also when something is made of it. -/
theorem map_eq_ok_mono {y : Except ε α} (hxy : ∀ a, x = .ok a → y = .ok a) {b : β}
    (h : x.map f = .ok b) : y.map f = .ok b := by
  obtain ⟨a, hx, ha⟩ := map_eq_ok_iff.1 h
  exact map_eq_ok_iff.2 ⟨a, hxy a hx, ha⟩

end Results

/-! ## One move -/

namespace Unwinding

/-- One move keeps the operand that holds the variable and lets the other one cross over. -/
theorem step_ok {name : String} {u next : Unwinding} {side : Side}
    (h : u.step name side = .ok next) :
    ∃ op t l r, u.current = .binary op t l r ∧
      ((side = .left ∧ next.current = l ∧ op.undo .left u.opposite r t.span = .ok next.opposite) ∨
        (side = .right ∧ next.current = r ∧
          op.undo .right u.opposite l t.span = .ok next.opposite)) := by
  obtain ⟨current, opposite⟩ := u
  cases current with
  | leaf t => exact absurd h (by simp [step])
  | binary op t l r =>
    refine ⟨op, t, l, r, rfl, ?_⟩
    cases side with
    | left =>
      obtain ⟨after, hundo, rfl⟩ := map_eq_ok_iff.1 h
      exact .inl ⟨rfl, rfl, hundo⟩
    | right =>
      obtain ⟨after, hundo, rfl⟩ := map_eq_ok_iff.1 h
      exact .inr ⟨rfl, rfl, hundo⟩

/-- The node kept is the operand on the side of the variable. -/
theorem step_current {name : String} {u next : Unwinding} {side : Side}
    (h : u.step name side = .ok next) : u.current.child? side = some next.current := by
  obtain ⟨op, t, l, r, hu, ⟨rfl, hkept, -⟩ | ⟨rfl, hkept, -⟩⟩ := step_ok h
  · rw [hu, hkept]; rfl
  · rw [hu, hkept]; rfl

/-! ## All moves -/

theorem run_cons {name : String} {limit done : Nat} {u last : Unwinding} {side : Side}
    {path : Path} (h : u.run name limit done (side :: path) = .ok last) :
    ∃ next, u.step name side = .ok next ∧ next.run name limit (done + 1) path = .ok last := by
  unfold run at h
  split at h
  · exact absurd h (by simp)
  · split at h
    · rename_i next hnext
      exact ⟨next, hnext, h⟩
    · exact absurd h (by simp)

/-- A move is made only within the limit. -/
theorem lt_of_run_cons {name : String} {limit done : Nat} {u last : Unwinding} {side : Side}
    {path : Path} (h : u.run name limit done (side :: path) = .ok last) : done < limit := by
  unfold run at h
  split at h
  · exact absurd h (by simp)
  · omega

/-- **What each move keeps, counting the moves, a run keeps.** -/
theorem run_counted {name : String} {limit : Nat} {P : Nat → Unwinding → Prop}
    (hstep : ∀ {done : Nat} {u next : Unwinding} {side : Side}, done < limit →
      u.step name side = .ok next → P done u → P (done + 1) next) {path : Path} :
    ∀ {done : Nat} {u last : Unwinding}, u.run name limit done path = .ok last → P done u →
      P (done + path.length) last := by
  induction path with
  | nil =>
    intro done u last h hu
    cases h
    exact hu
  | cons side path ih =>
    intro done u last h hu
    obtain ⟨next, hnext, hrest⟩ := run_cons h
    have hlast := ih hrest (hstep (lt_of_run_cons h) hnext hu)
    rwa [Nat.add_assoc, Nat.add_comm 1] at hlast

/-- **A run keeps what each of its moves keeps.** -/
theorem run_ok {name : String} {limit : Nat} {P : Unwinding → Prop}
    (hstep : ∀ {u next : Unwinding} {side : Side}, u.step name side = .ok next → P u → P next)
    {path : Path} {done : Nat} {u last : Unwinding} (h : u.run name limit done path = .ok last)
    (hu : P u) : P last :=
  run_counted (P := fun _ => P) (fun _ => hstep) h hu

/-- The moves lead to the node at the end of the path. -/
theorem run_current {name : String} {limit : Nat} {path : Path} :
    ∀ {done : Nat} {u last : Unwinding}, u.run name limit done path = .ok last →
      u.current.at? path = some last.current := by
  induction path with
  | nil =>
    intro done u last h
    cases h
    rfl
  | cons side path ih =>
    intro done u last h
    obtain ⟨next, hnext, hrest⟩ := run_cons h
    rw [Expr.at?, step_current hnext]
    exact ih hrest

/-- The moves made undo the operators on the way. -/
theorem moves_turns {name : String} {limit : Nat} {path : Path} :
    ∀ {done : Nat} {u last : Unwinding}, u.run name limit done path = .ok last →
      (u.moves name limit done path).map Prod.fst = (u.current.turns path).map Prod.fst := by
  induction path with
  | nil => exact fun _ => rfl
  | cons side path ih =>
    intro done u last h
    obtain ⟨next, hnext, hrest⟩ := run_cons h
    have hkept := step_current hnext
    obtain ⟨op, t, l, r, hu, -⟩ := step_ok hnext
    rw [hu] at hkept
    rw [moves, if_neg (Nat.not_le.2 (lt_of_run_cons h)), hnext, hu, Expr.turns_binary hkept]
    exact congrArg (op :: ·) (ih hrest)

end Unwinding

/-! ## Solutions -/

namespace Expr

theorem sides?_eq_some {e lhs rhs : Expr} (h : e.sides? = some (lhs, rhs)) :
    ∃ t, e = .binary .equals t lhs rhs := by
  unfold sides? at h
  split at h
  · rename_i t l r
    cases h
    exact ⟨t, rfl⟩
  · exact absurd h (by simp)

theorem isVariable_eq_true {name : String} {e : Expr} (h : isVariable name e = true) :
    ∃ t, e = .leaf t ∧ t.isVariable = true ∧ t.lexeme = name := by
  cases e with
  | leaf t =>
    simp only [isVariable, Bool.and_eq_true, beq_iff_eq] at h
    exact ⟨t, rfl, h⟩
  | binary op t l r => exact absurd h (by simp [isVariable])

/-- The approach starts at the side that holds the first occurrence of the variable. -/
theorem approach_ok {e : Expr} {name : String} {a : Approach} (h : e.approach name = .ok a) :
    ∃ t lhs rhs, e = .binary .equals t lhs rhs ∧
      ((a.side = .left ∧ a.start = ⟨lhs, rhs⟩) ∨ (a.side = .right ∧ a.start = ⟨rhs, lhs⟩)) ∧
      ∃ v, a.start.current.at? a.path = some (.leaf v) ∧ v.isVariable = true ∧
        v.lexeme = name := by
  unfold approach at h
  split at h
  · exact absurd h (by simp)
  · rename_i lhs rhs hsides
    obtain ⟨t, rfl⟩ := sides?_eq_some hsides
    split at h
    · rename_i path hpath
      cases h
      obtain ⟨node, hnode, hvar⟩ := firstPath?_spec hpath
      obtain ⟨v, rfl, hv⟩ := isVariable_eq_true hvar
      exact ⟨t, lhs, rhs, rfl, .inl ⟨rfl, rfl⟩, v, hnode, hv⟩
    · rename_i path hpath
      cases h
      obtain ⟨node, hnode, hvar⟩ := firstPath?_spec hpath
      obtain ⟨v, rfl, hv⟩ := isVariable_eq_true hvar
      exact ⟨t, lhs, rhs, rfl, .inr ⟨rfl, rfl⟩, v, hnode, hv⟩
    · exact absurd h (by simp)

theorem isEquation_iff {e : Expr} :
    e.isEquation = true ↔ ∃ t lhs rhs, e = .binary .equals t lhs rhs := by
  cases e with
  | leaf t => simp [isEquation, op?]
  | binary op t l r => simp

/-- The root of an equation is no variable, so a variable is on one of the sides. -/
theorem FirstOccurrence.exists_cons {e : Expr} {name : String} {path : Path}
    (h : e.FirstOccurrence name path) (he : e.isEquation = true) :
    ∃ side rest, path = side :: rest := by
  obtain ⟨t, lhs, rhs, rfl⟩ := isEquation_iff.1 he
  obtain ⟨node, hat, hvar⟩ := h.occurs
  cases path with
  | nil =>
    cases hat
    exact absurd hvar (by simp [isVariable])
  | cons side rest => exact ⟨side, rest, rfl⟩

/-- **The way to a variable** is the path to its first occurrence. -/
theorem approach_eq_ok_iff {e : Expr} {name : String} {a : Approach} :
    e.approach name = .ok a ↔ e.isEquation = true ∧ e.FirstOccurrence name (a.side :: a.path) ∧
      e.child? a.side = some a.start.current ∧
      e.child? a.side.opposite = some a.start.opposite := by
  obtain ⟨side, ⟨current, opposite⟩, path⟩ := a
  rw [← pathOf?_eq_some_iff]
  constructor
  · intro h
    obtain ⟨t, lhs, rhs, rfl, hstart, -⟩ := approach_ok h
    refine ⟨by simp, ?_, ?_⟩
    · simp only [approach, sides?] at h
      split at h <;> cases h
      · assumption
      · assumption
    · rcases hstart with ⟨rfl, hstart⟩ | ⟨rfl, hstart⟩ <;> cases hstart <;> exact ⟨rfl, rfl⟩
  · rintro ⟨hequation, hpath, hcurrent, hopposite⟩
    obtain ⟨t, lhs, rhs, rfl⟩ := isEquation_iff.1 hequation
    cases side with
    | left =>
      cases hcurrent
      cases hopposite
      simp [approach, sides?, hpath]
    | right =>
      cases hcurrent
      cases hopposite
      simp [approach, sides?, hpath]

/-- All moves lead to the node at the end of the way. -/
theorem at?_of_run {e : Expr} {name : String} {a : Approach} (ha : e.approach name = .ok a)
    {limit : Nat} {last : Unwinding} (h : a.start.run name limit 0 a.path = .ok last) :
    e.at? (a.side :: a.path) = some last.current := by
  obtain ⟨-, -, hcurrent, -⟩ := approach_eq_ok_iff.1 ha
  rw [at?, hcurrent]
  exact Unwinding.run_current h

/-- An isolation is the run of its approach. -/
theorem unwind_ok {limit : Nat} {e : Expr} {name : String} {side : Side} {u : Unwinding}
    (h : e.unwind limit name = .ok (side, u)) :
    ∃ a, e.approach name = .ok a ∧ a.side = side ∧ a.start.run name limit 0 a.path = .ok u := by
  unfold unwind at h
  split at h
  · exact absurd h (by simp)
  · rename_i a ha
    obtain ⟨last, hrun, hlast⟩ := map_eq_ok_iff.1 h
    obtain ⟨hside, rfl⟩ := Prod.mk.inj hlast
    exact ⟨a, ha, hside, hrun⟩

/-- **Where a solution comes from.**  The moves from the side of the variable end at a leaf that is
the variable, and the solution is the other side after them. -/
theorem solve_ok {limit : Nat} {e s : Expr} {name : String} (h : e.solve limit name = .ok s) :
    ∃ a v, e.approach name = .ok a ∧ a.start.run name limit 0 a.path = .ok ⟨.leaf v, s⟩ ∧
      v.isVariable = true ∧ v.lexeme = name := by
  obtain ⟨⟨side, current, opposite⟩, hunwind, rfl⟩ := map_eq_ok_iff.1 h
  obtain ⟨a, ha, -, hrun⟩ := unwind_ok hunwind
  obtain ⟨-, -, -, -, -, v, hv, hvar⟩ := approach_ok ha
  obtain rfl : current = .leaf v := by
    simpa [hv] using (Unwinding.run_current hrun).symm
  exact ⟨a, v, ha, hrun, hvar⟩

/-- The equation of two expressions, the first on the given side. -/
def equation (t : Token) (side : Side) (e other : Expr) : Expr :=
  match side with
  | .left => .binary .equals t e other
  | .right => .binary .equals t other e

/-- **The equation with a variable isolated** is that of the variable and its solution. -/
theorem isolate_ok {limit : Nat} {e q : Expr} {name : String} (h : e.isolate limit name = .ok q) :
    ∃ a v s, e.approach name = .ok a ∧ a.start.run name limit 0 a.path = .ok ⟨.leaf v, s⟩ ∧
      v.isVariable = true ∧ v.lexeme = name ∧ e.solve limit name = .ok s ∧
      q = equation e.token a.side (.leaf v) s := by
  obtain ⟨⟨side, current, opposite⟩, hunwind, hq⟩ := map_eq_ok_iff.1 h
  have hsolve : e.solve limit name = .ok opposite := map_eq_ok_iff.2 ⟨_, hunwind, rfl⟩
  obtain ⟨a, ha, rfl, hrun⟩ := unwind_ok hunwind
  obtain ⟨a', v, ha', hrun', hvar, hname⟩ := solve_ok hsolve
  obtain rfl : a = a' := Except.ok.inj (ha.symm.trans ha')
  obtain ⟨rfl, -⟩ : current = .leaf v ∧ opposite = opposite := by simpa [hrun] using hrun'
  exact ⟨a, v, opposite, ha, hrun, hvar, hname, hsolve, hq.symm⟩

end Expr

end EquationNetwork
