import EquationNetwork.Proofs.Expr.Evaluation
import EquationNetwork.Proofs.Expr.Preservation

/-!
# The operands of a solution

What becomes of the leaves of an equation when it is solved.

* `Expr.powerSpans` — the places of the powers on the way to a node.
* `Unwinding.leaves` — the leaves on both sides of an equation being rewritten.
* `Unwinding.step_leaves` — **one move** loses no leaf and adds none, but for a `1` with a power.
* `Expr.solve_leaves` — **a solution** has the leaves of its equation, without the first occurrence of
  the variable and with a `1` for each power on the way to it.
* `Expr.occurrences_solve` — **the variable** occurs once less in the solution.
* `Expr.exists_evaluate_solution` — **the solution has a value** if the other leaves have one.
-/

namespace EquationNetwork

/-! ## Powers on the way -/

namespace Expr

/-- The place of the operator at the root, if it is a power. -/
def powerSpan? : Expr → Option Span
  | binary .pow t _ _ => some t.span
  | _ => none

/-- The places of the powers on the way down a path. -/
def powerSpans (e : Expr) (path : Path) : List Span :=
  (e.passed path).filterMap fun step => step.1.powerSpan?

theorem powerSpans_binary {op : Op} {t : Token} {l r : Expr} {side : Side} {path : Path}
    {kept : Expr} (h : (binary op t l r).child? side = some kept) :
    (binary op t l r).powerSpans (side :: path) =
      (binary op t l r).powerSpan?.toList ++ kept.powerSpans path := by
  rw [powerSpans, passed_binary h]
  cases hroot : (binary op t l r).powerSpan? with
  | none => exact List.filterMap_cons_none hroot
  | some span => exact List.filterMap_cons_some hroot

end Expr

/-! ## One move -/

/-- The numbers `1` that undoing powers at these places brings in. -/
def ones (spans : List Span) : List Token := spans.map (Token.ofNumber 1)

theorem Op.undo_leaves {op : Op} {side : Side} {opposite moved after l r : Expr} {t : Token}
    (h : op.undo side opposite moved t.span = .ok after) :
    after.leaves.Perm
      (opposite.leaves ++ moved.leaves ++ ones (Expr.binary op t l r).powerSpan?.toList) := by
  cases op with
  | add | mul =>
    cases h
    simp [Expr.combine, Expr.leaves, Expr.powerSpan?, ones]
  | sub | div =>
    cases side with
    | left =>
      cases h
      simp [Expr.combine, Expr.leaves, Expr.powerSpan?, ones]
    | right =>
      cases h
      simpa [Expr.combine, Expr.leaves, Expr.powerSpan?, ones] using List.perm_append_comm
  | pow =>
    cases side with
    | left =>
      cases h
      show (opposite.leaves ++ (Token.ofNumber 1 t.span :: moved.leaves)).Perm
        (opposite.leaves ++ moved.leaves ++ [Token.ofNumber 1 t.span])
      rw [List.append_assoc]
      exact (List.perm_append_singleton _ _).symm.append_left _
    | right => exact absurd h (by simp [Op.undo])
  | equals => exact absurd h (by simp [Op.undo])

namespace Unwinding

/-- The leaves on both sides. -/
def leaves (u : Unwinding) : List Token := u.current.leaves ++ u.opposite.leaves

/-- **One move loses no leaf and adds none, but for a `1` with a power.** -/
theorem step_leaves {name : String} {u next : Unwinding} {side : Side}
    (h : u.step name side = .ok next) :
    next.leaves.Perm (u.leaves ++ ones u.current.powerSpan?.toList) := by
  obtain ⟨current, opposite⟩ := u
  obtain ⟨kept, after⟩ := next
  obtain ⟨op, t, l, r, rfl, ⟨-, rfl, hundo⟩ | ⟨-, rfl, hundo⟩⟩ := step_ok h
  · refine ((Op.undo_leaves (l := kept) (r := r) hundo).append_left _).trans ?_
    show (kept.leaves ++ (opposite.leaves ++ r.leaves ++ ones _)).Perm
      (kept.leaves ++ r.leaves ++ opposite.leaves ++ ones _)
    rw [← List.append_assoc, List.append_assoc kept.leaves r.leaves]
    exact (List.perm_append_comm.append_left _).append_right _
  · refine ((Op.undo_leaves (l := l) (r := kept) hundo).append_left _).trans ?_
    show (kept.leaves ++ (opposite.leaves ++ l.leaves ++ ones _)).Perm
      (l.leaves ++ kept.leaves ++ opposite.leaves ++ ones _)
    rw [← List.append_assoc, ← List.append_assoc kept.leaves]
    refine List.Perm.append_right _ (List.perm_append_comm.trans ?_)
    rw [List.append_assoc]

/-! ## All moves -/

/-- **A run** brings in a `1` for each power on its way, and nothing else changes. -/
theorem run_leaves {name : String} {limit : Nat} {path : Path} :
    ∀ {done : Nat} {u last : Unwinding}, u.run name limit done path = .ok last →
      last.leaves.Perm (u.leaves ++ ones (u.current.powerSpans path)) := by
  induction path with
  | nil =>
    intro done u last h
    cases h
    simp [ones, Expr.powerSpans, Expr.passed]
  | cons side path ih =>
    intro done u last h
    obtain ⟨next, hnext, hrest⟩ := run_cons h
    obtain ⟨op, t, l, r, hu, -⟩ := step_ok hnext
    have hkept := step_current hnext
    have hmove := step_leaves hnext
    rw [hu] at hkept hmove
    rw [hu, Expr.powerSpans_binary hkept, ones, List.map_append, ← List.append_assoc]
    exact (ih hrest).trans (hmove.append_right _)

end Unwinding

namespace Expr

theorem leaves_of_run {e : Expr} {name : String} {a : Approach} (ha : e.approach name = .ok a)
    {limit : Nat} {last : Unwinding} (h : a.start.run name limit 0 a.path = .ok last) :
    last.leaves.Perm (e.leaves ++ ones (e.powerSpans (a.side :: a.path))) := by
  have hleaves := Unwinding.run_leaves h
  obtain ⟨-, -, hcurrent, -⟩ := approach_eq_ok_iff.1 ha
  obtain ⟨t, l, r, rfl, hstart, -⟩ := approach_ok ha
  rw [powerSpans_binary hcurrent]
  rcases hstart with ⟨-, hstart⟩ | ⟨-, hstart⟩
  · rw [hstart] at hleaves ⊢
    exact hleaves
  · rw [hstart] at hleaves ⊢
    exact hleaves.trans (List.perm_append_comm.append_right _)

/-- **The leaves of a solution.**  They are those of the equation, without the first occurrence of
the variable and with a `1` for each power on the way to it. -/
theorem solve_leaves {limit : Nat} {e s : Expr} {name : String}
    (h : e.solve limit name = .ok s) :
    ∃ path v, e.FirstOccurrence name path ∧ e.at? path = some (.leaf v) ∧ v.isVariable = true ∧
      v.lexeme = name ∧ (v :: s.leaves).Perm (e.leaves ++ ones (e.powerSpans path)) := by
  obtain ⟨a, v, ha, hrun, hvar, hname⟩ := solve_ok h
  obtain ⟨-, hfirst, -⟩ := approach_eq_ok_iff.1 ha
  exact ⟨a.side :: a.path, v, hfirst, at?_of_run ha hrun, hvar, hname, leaves_of_run ha hrun⟩

/-! ## Occurrences of the variable -/

/-- How often a lexeme is a leaf. -/
def occurrences (e : Expr) (lexeme : String) : Nat := (e.leaves.map Token.lexeme).count lexeme

theorem occurrences_eq_zero_iff {e : Expr} {lexeme : String} :
    e.occurrences lexeme = 0 ↔ ∀ t ∈ e.leaves, t.lexeme ≠ lexeme := by
  simp [occurrences, List.count_eq_zero]

/-- What an equation is solved for is no numeral. -/
theorem numeral?_of_solve {limit : Nat} {e s : Expr} {name : String}
    (h : e.solve limit name = .ok s) : Decimal.numeral? name = none := by
  obtain ⟨-, v, -, -, hvar, rfl, -⟩ := solve_leaves h
  exact Token.numeral?_of_isVariable hvar

/-- **A solution has one occurrence less of the variable.** -/
theorem occurrences_solve {limit : Nat} {e s : Expr} {name : String}
    (h : e.solve limit name = .ok s) : e.occurrences name = s.occurrences name + 1 := by
  obtain ⟨path, v, -, -, -, hname, hperm⟩ := solve_leaves h
  have hones : ((ones (e.powerSpans path)).map Token.lexeme).count name = 0 := by
    rw [List.count_eq_zero]
    intro hmem
    obtain ⟨t, ht, hlexeme⟩ := List.mem_map.1 hmem
    obtain ⟨span, -, rfl⟩ := List.mem_map.1 ht
    have hone : (Decimal.numeral? (Token.ofNumber 1 span).lexeme).isSome = true := by
      show (Decimal.numeral? (Decimal.shortestText 1)).isSome = true
      decide +kernel
    exact absurd hone (by simp [hlexeme, numeral?_of_solve h])
  have hcount := (hperm.map Token.lexeme).count_eq name
  rw [List.map_append, List.count_append, hones, List.map_cons, hname,
    List.count_cons_self] at hcount
  exact hcount.symm

/-- A name that has no value does not occur in an expression that has one. -/
theorem occurrences_of_evaluate {known : Valuation} {e : Expr} {x : Float} {name : String}
    (h : e.evaluate known = .ok x) (hnumeral : Decimal.numeral? name = none)
    (hknown : known name = none) : e.occurrences name = 0 := by
  rw [occurrences_eq_zero_iff]
  rintro t ht rfl
  obtain ⟨y, hy⟩ := (exists_evaluate_iff.1 ⟨x, h⟩).2 t ht
  have hvalue : t.value? = none := by
    rw [Token.value?]
    split
    · exact hnumeral
    · exact hnumeral
    · rfl
  rw [Token.evaluate, hvalue] at hy
  exact absurd hy (by simp [hknown])

/-! ## The value of a solution -/

theorem mem_leafNames {e : Expr} {lexeme : String} :
    lexeme ∈ e.leafNames ↔ ∃ t ∈ e.leaves, t.lexeme = lexeme := by
  simp [leafNames]

/-- An operand has a value if it is a number or a variable that has one. -/
theorem exists_evaluate_operand {known : Valuation} {t : Token} (ht : t.IsOperand)
    (hknown : t.isVariable = true → ∃ x, known t.lexeme = some x) :
    ∃ x, t.evaluate known = .ok x := by
  rcases ht with ⟨-, hvalue⟩ | hvar
  · obtain ⟨x, hx⟩ := Option.isSome_iff_exists.1 hvalue
    exact ⟨x, by simp [Token.evaluate, hx]⟩
  · obtain ⟨x, hx⟩ := hknown hvar
    rw [Token.isVariable, Bool.and_eq_true, beq_iff_eq, Option.isNone_iff_eq_none] at hvar
    exact ⟨x, by simp [Token.evaluate, hvar.1, hvar.2, hx]⟩

/-- **A solution has a value.**  It is enough that the variable occurs once and that the other
leaves of the equation have values. -/
theorem exists_evaluate_solution {limit : Nat} {e s : Expr} {name : String} {known : Valuation}
    (he : e.WellFormed) (hone : e.occurrences name = 1) (hsolve : e.solve limit name = .ok s)
    (hknown : ∀ lexeme ∈ e.leafNames, lexeme ≠ name → ∃ x, known lexeme = some x) :
    ∃ x, s.evaluate known = .ok x := by
  refine exists_evaluate_iff.2 ⟨(he.solve hsolve).2, fun t ht => ?_⟩
  obtain ⟨_, v, -, -, -, -, hperm⟩ := solve_leaves hsolve
  have hnone : s.occurrences name = 0 := by
    have hcount := occurrences_solve hsolve
    omega
  have hne : t.lexeme ≠ name := occurrences_eq_zero_iff.1 hnone t ht
  rcases List.mem_append.1 (hperm.subset (List.mem_cons_of_mem v ht)) with ht | ht
  · refine exists_evaluate_operand (he.legible.isOperand t ht) fun _ => ?_
    exact hknown t.lexeme (mem_leafNames.2 ⟨t, ht, rfl⟩) hne
  · obtain ⟨span, -, rfl⟩ := List.mem_map.1 ht
    have hoperand : (Token.ofNumber 1 span).IsOperand :=
      Token.isOperand_ofNumber span (by decide +kernel)
    refine exists_evaluate_operand hoperand fun hvar => ?_
    exact absurd hvar (by simp [Token.isVariable, Token.ofNumber])

end Expr

end EquationNetwork
