import EquationNetwork.Proofs.Expr.Operands

/-!
# The equation with a variable isolated

What isolating a variable makes of an equation.

* `Expr.occurring` — the variables of an expression, once for each occurrence.
* `Expr.occurring_solve` — **variables** are neither lost nor added, but for one occurrence of the
  variable that is isolated.
* `Expr.isolate_leaves` — **operands** are neither lost nor added, but for a `1` with each power.
* `Expr.isolate_sides` — **the sides** of the new equation are the variable and its solution, and a
  variable that occurs once stays isolated.
-/

namespace EquationNetwork.Expr

variable {limit : Nat} {e q s : Expr} {name : String}

/-! ## Variables -/

/-- The variables, once for each occurrence. -/
def occurring (e : Expr) : List String := (e.leaves.filter Token.isVariable).map Token.lexeme

theorem occurring_binary (op : Op) (t : Token) (l r : Expr) :
    (binary op t l r).occurring = l.occurring ++ r.occurring := by
  rw [occurring, leaves, List.filter_append, List.map_append]
  rfl

theorem mem_variableNames_iff_mem_occurring : name ∈ e.variableNames ↔ name ∈ e.occurring := by
  rw [variableNames, List.mem_eraseDups, occurring]

/-- A variable that does not occur is not found. -/
theorem pathOf?_of_notMem_occurring (h : name ∉ e.occurring) : e.pathOf? name = none := by
  rwa [← mem_variableNames_iff_mem_occurring, mem_variableNames_iff, Bool.not_eq_true,
    Option.isSome_eq_false_iff, Option.isNone_iff_eq_none] at h

/-- **Variables are neither lost nor added**, but for one occurrence of the one solved for. -/
theorem occurring_solve (h : e.solve limit name = .ok s) :
    (name :: s.occurring).Perm e.occurring := by
  obtain ⟨path, v, -, -, hvar, rfl, hperm⟩ := solve_leaves h
  have hones : (ones (e.powerSpans path)).filter Token.isVariable = [] := by
    rw [List.filter_eq_nil_iff]
    intro t ht
    obtain ⟨span, -, rfl⟩ := List.mem_map.1 ht
    simp [Token.isVariable, Token.ofNumber]
  have hmap := (hperm.filter Token.isVariable).map Token.lexeme
  rwa [List.filter_append, hones, List.append_nil, List.filter_cons_of_pos hvar] at hmap

theorem count_occurring_solve (h : e.solve limit name = .ok s) :
    e.occurring.count name = s.occurring.count name + 1 := by
  rw [← (occurring_solve h).count_eq, List.count_cons_self]

/-! ## Moves -/

/-- The powers on the way are counted among its operators. -/
theorem length_powerSpans (e : Expr) (path : Path) :
    (e.powerSpans path).length = ((e.turns path).map Prod.fst).count .pow := by
  rw [powerSpans, turns]
  induction e.passed path with
  | nil => rfl
  | cons step steps ih =>
    obtain ⟨node, side⟩ := step
    cases node with
    | leaf t => exact ih
    | binary op t l r =>
      show _ = (op :: (List.filterMap _ steps).map Prod.fst).count .pow
      rw [List.count_cons, ← ih]
      cases op <;> rfl

/-- There is a power on the way for each move that undoes one. -/
theorem length_powerSpans_eq_count {a : Approach} {last : Unwinding}
    (ha : e.approach name = .ok a) (hrun : a.start.run name limit 0 a.path = .ok last) :
    (e.powerSpans (a.side :: a.path)).length =
      ((e.solveMoves limit name).map Prod.fst).count .pow := by
  obtain ⟨hequation, -, hcurrent, -⟩ := approach_eq_ok_iff.1 ha
  rw [solveMoves, ha]
  show _ = ((a.start.moves name limit 0 a.path).map Prod.fst).count .pow
  rw [Unwinding.moves_turns hrun]
  obtain ⟨t, lhs, rhs, rfl⟩ := isEquation_iff.1 hequation
  rw [powerSpans_binary hcurrent]
  exact length_powerSpans _ a.path

/-! ## The equation with the variable isolated -/

theorem ones_eq (spans : List Span) : ones spans = spans.map (⟨.number, "1", ·⟩) := by
  have hone : Decimal.shortestText 1 = "1" := by decide +kernel
  exact List.map_congr_left fun span _ => by rw [Token.ofNumber, hone]

theorem leaves_equation (t : Token) (side : Side) (e other : Expr) :
    (equation t side e other).leaves.Perm (e.leaves ++ other.leaves) := by
  cases side with
  | left => exact .refl _
  | right => exact List.perm_append_comm

/-- **Operands are neither lost nor added.**  The equation with the variable isolated has the leaves
of the equation and a `1` for each power that was undone; the solution has all of these but the
variable isolated.  So the variable occurs in the solution once less than in the equation, and every
other variable as often as there. -/
theorem isolate_leaves (h : e.isolate limit name = .ok q) :
    ∃ path v s, e.FirstOccurrence name path ∧ e.at? path = some (.leaf v) ∧
      e.solve limit name = .ok s ∧
      (q.leaves : Multiset Token) =
        e.leaves + ((e.powerSpans path).map (⟨.number, "1", ·⟩) : List Token) ∧
      (e.powerSpans path).length = ((e.solveMoves limit name).map Prod.fst).count .pow ∧
      (q.leaves : Multiset Token) = v ::ₘ s.leaves ∧
      e.occurring.count name = s.occurring.count name + 1 ∧
      (s.occurring.count name = 0 ↔ e.occurring.count name = 1) ∧
      (∀ other ≠ name, s.occurring.count other = e.occurring.count other) ∧
      ∀ other, other ∈ e.variableNames ↔ other = name ∨ other ∈ s.variableNames := by
  obtain ⟨a, v, s, ha, hrun, -, -, hsolve, rfl⟩ := isolate_ok h
  obtain ⟨-, hfirst, -⟩ := approach_eq_ok_iff.1 ha
  have hvariables := occurring_solve hsolve
  have hcount := count_occurring_solve hsolve
  refine ⟨a.side :: a.path, v, s, hfirst, at?_of_run ha hrun, hsolve, ?_,
    length_powerSpans_eq_count ha hrun, ?_, hcount, by omega, fun other hother => ?_,
    fun other => ?_⟩
  · rw [Multiset.coe_add, Multiset.coe_eq_coe, ← ones_eq]
    exact (leaves_equation e.token a.side (.leaf v) s).trans (leaves_of_run ha hrun)
  · rw [Multiset.cons_coe, Multiset.coe_eq_coe]
    exact leaves_equation e.token a.side (.leaf v) s
  · rw [← hvariables.count_eq, List.count_cons_of_ne hother.symm]
  · rw [mem_variableNames_iff_mem_occurring, mem_variableNames_iff_mem_occurring,
      ← hvariables.mem_iff, List.mem_cons]

/-- A power on the way brings in a `1`, and the second occurrence of the variable stays. -/
theorem isolate_leaves_power :
    ∃ e q s, read 256 "a / (x ^ 2 + 1) = x" = .ok e ∧ e.isolate 20 "x" = .ok q ∧
      q.text = "x = (((a / x) - 1) ^ (1 / 2))" ∧ e.solve 20 "x" = .ok s ∧
      (q.leaves : Multiset Token) = e.leaves + ([⟨.number, "1", ⟨8, 8⟩⟩] : List Token) ∧
      e.occurring.count "x" = 2 ∧ s.occurring.count "x" = 1 := by
  let square : Expr := .binary .pow ⟨.operator, "^", ⟨8, 8⟩⟩ (.leaf ⟨.name, "x", ⟨6, 6⟩⟩)
    (.leaf ⟨.number, "2", ⟨10, 10⟩⟩)
  let sum : Expr := .binary .add ⟨.operator, "+", ⟨12, 12⟩⟩ square (.leaf ⟨.number, "1", ⟨14, 14⟩⟩)
  let ratio : Expr := .binary .div ⟨.operator, "/", ⟨3, 3⟩⟩ (.leaf ⟨.name, "a", ⟨1, 1⟩⟩) sum
  let e : Expr := .binary .equals ⟨.equals, "=", ⟨17, 17⟩⟩ ratio (.leaf ⟨.name, "x", ⟨19, 19⟩⟩)
  have hread : read 256 "a / (x ^ 2 + 1) = x" = .ok e := by decide +kernel
  have htext : (e.isolate 20 "x").map text = .ok "x = (((a / x) - 1) ^ (1 / 2))" := by
    decide +kernel
  have hcount : e.occurring.count "x" = 2 := by decide +kernel
  rcases hq : e.isolate 20 "x" with error | q
  · exact absurd htext (by simp [hq, Except.map])
  · rw [hq] at htext
    obtain ⟨path, v, s, hfirst, -, hsolve, hleaves, -, -, hless, -⟩ := isolate_leaves hq
    have hpath : e.pathOf? "x" = some [.left, .right, .left, .left] := by decide +kernel
    obtain rfl := Option.some.inj ((pathOf?_eq_some_iff.2 hfirst).symm.trans hpath)
    exact ⟨e, q, s, hread, hq, Except.ok.inj htext, hsolve, hleaves, hcount, by omega⟩

/-! ## Its sides -/

theorem pathOf?_binary (op : Op) (t : Token) (l r : Expr) (name : String) :
    (binary op t l r).pathOf? name =
      ((l.pathOf? name).map (Side.left :: ·)).or ((r.pathOf? name).map (Side.right :: ·)) := rfl

/-- An isolated variable that does not occur on the other side is approached without a move. -/
theorem approach_equation {v : Token} (hvar : v.isVariable = true) (hs : v.lexeme ∉ s.occurring)
    (t : Token) (side : Side) :
    (equation t side (.leaf v) s).approach v.lexeme = .ok ⟨side, ⟨.leaf v, s⟩, []⟩ := by
  have hleaf : (leaf v).pathOf? v.lexeme = some [] := by
    simp [pathOf?, firstPath?, isVariable, hvar]
  have hother := pathOf?_of_notMem_occurring hs
  rw [approach_eq_ok_iff, ← pathOf?_eq_some_iff]
  cases side with
  | left => exact ⟨by simp [equation], by simp [equation, pathOf?_binary, hleaf], rfl, rfl⟩
  | right => exact ⟨by simp [equation], by simp [equation, pathOf?_binary, hleaf, hother], rfl, rfl⟩

/-- **A solved equation stays as it is.**  No move is made, so no limit is too low. -/
theorem solve_equation {v : Token} (hvar : v.isVariable = true) (hs : v.lexeme ∉ s.occurring)
    (t : Token) (side : Side) (limit : Nat) :
    (equation t side (.leaf v) s).solve limit v.lexeme = .ok s ∧
      (equation t side (.leaf v) s).isolate limit v.lexeme = .ok (equation t side (.leaf v) s) := by
  have hunwind : (equation t side (.leaf v) s).unwind limit v.lexeme =
      .ok (side, ⟨.leaf v, s⟩) := by
    rw [unwind, approach_equation hvar hs]
    rfl
  rw [solve, isolate, hunwind]
  cases side with
  | left => exact ⟨rfl, rfl⟩
  | right => exact ⟨rfl, rfl⟩

/-- **What isolating makes of the sides.**  The root stays, the side of the first occurrence becomes
the leaf of that occurrence, and the other side the solution.  If the variable occurs only once, then
the equation is solved: solving it again gives the same solution without a move, and isolating the
variable again the same equation. -/
theorem isolate_sides (h : e.isolate limit name = .ok q) :
    ∃ side path v s, e.FirstOccurrence name (side :: path) ∧
      e.at? (side :: path) = some (.leaf v) ∧ e.solve limit name = .ok s ∧
      e.isEquation = true ∧ q.isEquation = true ∧ q.token = e.token ∧
      q.child? side = some (.leaf v) ∧ q.child? side.opposite = some s ∧
      (e.occurring.count name = 1 → ∀ limit', q.solve limit' name = .ok s ∧
        q.isolate limit' name = .ok q) := by
  obtain ⟨a, v, s, ha, hrun, hvar, rfl, hsolve, rfl⟩ := isolate_ok h
  obtain ⟨hequation, hfirst, -⟩ := approach_eq_ok_iff.1 ha
  refine ⟨a.side, a.path, v, s, hfirst, at?_of_run ha hrun, hsolve, hequation, ?_, ?_, ?_, ?_,
    fun hone limit' => solve_equation hvar ?_ e.token a.side limit'⟩
  · cases a.side <;> rfl
  · cases a.side <;> rfl
  · cases a.side <;> rfl
  · cases a.side <;> rfl
  · have hcount := count_occurring_solve hsolve
    exact List.count_eq_zero.1 (by omega)

/-- The variable on the right stays there, and no move is needed from then on. -/
theorem isolate_sides_right :
    ∃ e q s, read 256 "c = a - b" = .ok e ∧ e.isolate 1 "b" = .ok q ∧ q.text = "(a - c) = b" ∧
      e.solve 1 "b" = .ok s ∧ q.solve 0 "b" = .ok s ∧ q.isolate 0 "b" = .ok q := by
  let difference : Expr := .binary .sub ⟨.operator, "-", ⟨7, 7⟩⟩ (.leaf ⟨.name, "a", ⟨5, 5⟩⟩)
    (.leaf ⟨.name, "b", ⟨9, 9⟩⟩)
  let e : Expr := .binary .equals ⟨.equals, "=", ⟨3, 3⟩⟩ (.leaf ⟨.name, "c", ⟨1, 1⟩⟩) difference
  have hread : read 256 "c = a - b" = .ok e := by decide +kernel
  have htext : (e.isolate 1 "b").map text = .ok "(a - c) = b" := by decide +kernel
  have hcount : e.occurring.count "b" = 1 := by decide +kernel
  rcases hq : e.isolate 1 "b" with error | q
  · exact absurd htext (by simp [hq, Except.map])
  · rw [hq] at htext
    obtain ⟨-, -, -, s, -, -, hsolve, -, -, -, -, -, hagain⟩ := isolate_sides hq
    obtain ⟨hsolve_again, hisolate_again⟩ := hagain hcount 0
    exact ⟨e, q, s, hread, hq, Except.ok.inj htext, hsolve, hsolve_again, hisolate_again⟩

end EquationNetwork.Expr
