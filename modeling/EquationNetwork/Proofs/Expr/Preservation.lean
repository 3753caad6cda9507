import EquationNetwork.Proofs.Expr.Isolation
import EquationNetwork.Proofs.Expr.WellFormed

/-!
# What isolating keeps

A move takes one operation apart and builds others from its operands and from a `1`.  So whatever
operations and operands have of each other, both sides of an equation have after any number of
moves.

* `Expr.KeptByMoves` — the properties that operands have from an operation, and that the operations
  built by a move have from their operands.
* `KeptByMoves.undo`, `KeptByMoves.step` — **one move** keeps them, and `KeptByMoves.unwind` — so do
  all moves.
* `keptByMoves_firstEquals?`, `keptByMoves_legible` — two of them: to have no `=`, and to be legible.
* `wellFormed_solve_isolate` — **expressions stay well formed** when they are read, solved and
  isolated.
-/

namespace EquationNetwork

/-! ## Properties that moves keep -/

/-- What operands have from an operation, and what the operations that a move builds have from their
operands. -/
structure Expr.KeptByMoves (P : Expr → Prop) : Prop where
  operands : ∀ {op : Op} {t : Token} {l r : Expr}, P (.binary op t l r) → P l ∧ P r
  combine : ∀ {op : Op} {l r : Expr} (span : Span), op ≠ .equals → P l → P r →
    P (.combine op l r span)
  one : ∀ span, P (.ofNumber 1 span)

namespace Expr.KeptByMoves

variable {P Q : Expr → Prop}

theorem and (hP : KeptByMoves P) (hQ : KeptByMoves Q) : KeptByMoves fun e => P e ∧ Q e where
  operands h := ⟨⟨(hP.operands h.1).1, (hQ.operands h.2).1⟩,
    ⟨(hP.operands h.1).2, (hQ.operands h.2).2⟩⟩
  combine span hne hl hr := ⟨hP.combine span hne hl.1 hr.1, hQ.combine span hne hl.2 hr.2⟩
  one span := ⟨hP.one span, hQ.one span⟩

/-- What the other side and the operand that crosses over have, the other side has after the move. -/
theorem undo (hP : KeptByMoves P) {op : Op} {side : Side} {opposite moved after : Expr}
    {span : Span} (h : op.undo side opposite moved span = .ok after) (ho : P opposite)
    (hm : P moved) : P after := by
  cases op with
  | add | mul =>
    cases h
    exact hP.combine span (by simp) ho hm
  | sub | div =>
    cases side with
    | left =>
      cases h
      exact hP.combine span (by simp) ho hm
    | right =>
      cases h
      exact hP.combine span (by simp) hm ho
  | pow =>
    cases side with
    | left =>
      cases h
      have hroot : P (.combine .div (.ofNumber 1 span) moved span) :=
        hP.combine span (by simp) (hP.one span) hm
      exact hP.combine span (by simp) ho hroot
    | right => exact absurd h (by simp [Op.undo])
  | equals => exact absurd h (by simp [Op.undo])

/-- **One move** keeps what both sides have. -/
theorem step (hP : KeptByMoves P) {name : String} {u next : Unwinding} {side : Side}
    (h : u.step name side = .ok next) (hu : P u.current ∧ P u.opposite) :
    P next.current ∧ P next.opposite := by
  obtain ⟨op, t, l, r, hcurrent, hside⟩ := Unwinding.step_ok h
  obtain ⟨hcurrent_kept, hopposite⟩ := hu
  rw [hcurrent] at hcurrent_kept
  obtain ⟨hl, hr⟩ := hP.operands hcurrent_kept
  rcases hside with ⟨-, hkept, hundo⟩ | ⟨-, hkept, hundo⟩
  · exact ⟨hkept ▸ hl, hP.undo hundo hopposite hr⟩
  · exact ⟨hkept ▸ hr, hP.undo hundo hopposite hl⟩

/-- **All moves** keep what both sides of an equation have. -/
theorem unwind (hP : KeptByMoves P) {limit : Nat} {t : Token} {l r : Expr} {name : String}
    {side : Side} {u : Unwinding} (hl : P l) (hr : P r)
    (h : (binary .equals t l r).unwind limit name = .ok (side, u)) :
    P u.current ∧ P u.opposite := by
  obtain ⟨a, happroach, -, hrun⟩ := unwind_ok h
  obtain ⟨t', l', r', heq, hstart, -⟩ := approach_ok happroach
  cases heq
  have hends : P a.start.current ∧ P a.start.opposite := by
    rcases hstart with ⟨-, hstart⟩ | ⟨-, hstart⟩
    · rw [hstart]
      exact ⟨hl, hr⟩
    · rw [hstart]
      exact ⟨hr, hl⟩
  exact Unwinding.run_ok hP.step hrun hends

end Expr.KeptByMoves

namespace Expr

/-! ## Two of them -/

/-- No `=` comes in with a move. -/
theorem keptByMoves_firstEquals? : KeptByMoves fun e => e.firstEquals? = none where
  operands h := (firstEquals?_binary_eq_none_iff.1 h).2
  combine _ hne hl hr := firstEquals?_binary_eq_none_iff.2 ⟨hne, hl, hr⟩
  one _ := rfl

/-- The operations and the numbers that come in with a move are legible. -/
theorem keptByMoves_legible : KeptByMoves Legible where
  operands h := h.2
  combine span _ hl hr := ⟨Token.op?_ofOp _ span, hl, hr⟩
  one span := Token.isOperand_ofNumber span (by decide +kernel)

/-! ## Well-formed expressions -/

/-- An equation is well formed if its sides are legible and without `=`. -/
theorem wellFormed_equation {t : Token} {e other : Expr} (ht : t.op? = some .equals)
    (he : e.Legible ∧ e.firstEquals? = none) (ho : other.Legible ∧ other.firstEquals? = none)
    (side : Side) : (equation t side e other).WellFormed := by
  cases side with
  | left => exact ⟨⟨ht, he.1, ho.1⟩, equalsOnlyAtRoot_binary_iff.2 ⟨he.2, ho.2⟩⟩
  | right => exact ⟨⟨ht, ho.1, he.1⟩, equalsOnlyAtRoot_binary_iff.2 ⟨ho.2, he.2⟩⟩

/-- A solution of a well-formed equation is legible and without `=`. -/
theorem WellFormed.solve {limit : Nat} {e s : Expr} {name : String} (he : e.WellFormed)
    (h : e.solve limit name = .ok s) : s.Legible ∧ s.firstEquals? = none := by
  obtain ⟨⟨side, u⟩, hunwind, rfl⟩ := map_eq_ok_iff.1 h
  obtain ⟨a, happroach, -⟩ := unwind_ok hunwind
  obtain ⟨t, l, r, rfl, -⟩ := approach_ok happroach
  obtain ⟨-, hl, hr⟩ := he.legible
  obtain ⟨hl_none, hr_none⟩ := equalsOnlyAtRoot_binary_iff.1 he.equalsOnlyAtRoot
  exact ((keptByMoves_legible.and keptByMoves_firstEquals?).unwind ⟨hl, hl_none⟩ ⟨hr, hr_none⟩
    hunwind).2

/-- **Expressions stay well formed.**  What is read from a text is well formed, and so is what
solving and isolating make of a well-formed expression, whether a text holds it or not.  A solution
has no `=` at all, and the equation with a variable isolated has one at its root. -/
theorem wellFormed_solve_isolate :
    (∀ limit text e, read limit text = .ok e → e.WellFormed) ∧
      ∀ e : Expr, e.WellFormed → ∀ limit name,
        (∀ s, e.solve limit name = .ok s → s.WellFormed ∧
          ∀ path node, s.at? path = some node → node.isEquation = false) ∧
        ∀ q, e.isolate limit name = .ok q → q.WellFormed ∧ q.isEquation = true := by
  refine ⟨fun limit text e h => wellFormed_of_read h, fun e he limit name => ⟨fun s h => ?_,
    fun q h => ?_⟩⟩
  · obtain ⟨hlegible, hnone⟩ := he.solve h
    exact ⟨⟨hlegible, .of_firstEquals? hnone⟩, (firstEquals?_eq_none_iff s).1 hnone⟩
  · obtain ⟨a, v, s, happroach, -, hvar, -, hsolve, rfl⟩ := isolate_ok h
    obtain ⟨t, l, r, rfl, -⟩ := approach_ok happroach
    have hv : (leaf v).Legible ∧ (leaf v).firstEquals? = none := ⟨.inr hvar, rfl⟩
    refine ⟨wellFormed_equation he.legible.1 hv (he.solve hsolve) a.side, ?_⟩
    cases a.side <;> rfl

/-- Undoing a power brings in a `1` and two operators that the text does not hold. -/
theorem wellFormed_solve_isolate_power :
    ∃ e s q, read 256 "y - 2 = -x ^ k" = .ok e ∧ e.WellFormed ∧
      e.solve 20 "k" = .error (.noInverse .pow) ∧
      e.solve 20 "x" = .ok s ∧ s.text = "((0 - (y - 2)) ^ (1 / k))" ∧ s.WellFormed ∧
      (∀ path node, s.at? path = some node → node.isEquation = false) ∧
      e.isolate 20 "x" = .ok q ∧ q.WellFormed ∧ q.isEquation = true := by
  let power : Expr := .binary .pow ⟨.operator, "^", ⟨12, 12⟩⟩ (.leaf ⟨.name, "x", ⟨10, 10⟩⟩)
    (.leaf ⟨.name, "k", ⟨14, 14⟩⟩)
  let negation : Expr := .binary .sub ⟨.operator, "-", ⟨9, 9⟩⟩ (.ofNumber 0 ⟨9, 9⟩) power
  let difference : Expr := .binary .sub ⟨.operator, "-", ⟨3, 3⟩⟩ (.leaf ⟨.name, "y", ⟨1, 1⟩⟩)
    (.leaf ⟨.number, "2", ⟨5, 5⟩⟩)
  let e : Expr := .binary .equals ⟨.equals, "=", ⟨7, 7⟩⟩ difference negation
  have hread : read 256 "y - 2 = -x ^ k" = .ok e := by decide +kernel
  have hsolve_text : (e.solve 20 "x").map text = .ok "((0 - (y - 2)) ^ (1 / k))" := by
    decide +kernel
  have hisolate_text : (e.isolate 20 "x").map text = .ok "((0 - (y - 2)) ^ (1 / k)) = x" := by
    decide +kernel
  obtain ⟨s, hs, hs_text⟩ := map_eq_ok_iff.1 hsolve_text
  obtain ⟨q, hq, -⟩ := map_eq_ok_iff.1 hisolate_text
  have he := wellFormed_solve_isolate.1 256 _ e hread
  obtain ⟨hsolve, hisolate⟩ := wellFormed_solve_isolate.2 e he 20 "x"
  obtain ⟨hs_wellFormed, hs_none⟩ := hsolve s hs
  obtain ⟨hq_wellFormed, hq_equation⟩ := hisolate q hq
  exact ⟨e, s, q, hread, he, by decide +kernel, hs, hs_text, hs_wellFormed, hs_none, hq,
    hq_wellFormed, hq_equation⟩

end Expr

end EquationNetwork
