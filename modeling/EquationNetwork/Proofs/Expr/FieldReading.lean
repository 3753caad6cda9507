import Mathlib
import EquationNetwork.Expr.Parser
import EquationNetwork.Proofs.Expr.Isolation

/-!
# Isolation is algebra

Read in a field, where arithmetic is exact, solving an equation is correct: the equation holds
exactly if the variable equals the solution.

* `Reading` — the meaning of literals, powers and variables in a field, and `Reading.value` the
  value of an expression in it.
* `Reading.Regular` — no division in the expression has the divisor zero.
* `Reading.Invertible` — at the power that is undone next, the base is the root of the other side
  exactly if its power is the other side.  Fields alone do not promise this.
* `Reading.step_iff` — **one move** keeps the truth of the equation.
* `solve_iff` — **all moves** do, so a solution is equivalent to its equation.
-/

namespace EquationNetwork

/-! ## Readings -/

/-- What literals, powers and variables mean in a field. -/
structure Reading (F : Type*) where
  literal : String → F
  power : F → F → F
  quantity : String → F

namespace Reading

variable {F : Type*} [Field F] (R : Reading F)

/-- The value of a leaf: that of the variable or of the literal that it is. -/
def leaf (t : Token) : F := if t.isVariable then R.quantity t.lexeme else R.literal t.lexeme

/-- The value of an expression.  An equation is read as the difference of its sides. -/
def value : Expr → F
  | .leaf t => R.leaf t
  | .binary .add _ l r => value l + value r
  | .binary .sub _ l r => value l - value r
  | .binary .mul _ l r => value l * value r
  | .binary .div _ l r => value l / value r
  | .binary .pow _ l r => R.power (value l) (value r)
  | .binary .equals _ l r => value l - value r

/-- No division in the expression has the divisor zero. -/
def Regular : Expr → Prop
  | .leaf _ => True
  | .binary op _ l r => Regular l ∧ Regular r ∧ (op = .div → R.value r ≠ 0)

/-- If the next move undoes a power, then its base is the root of the other side exactly if the
power equals the other side. -/
def Invertible (u : Unwinding) : Prop :=
  ∀ t base exponent, u.current = .binary .pow t base exponent →
    (R.power (R.value base) (R.value exponent) = R.value u.opposite ↔
      R.value base = R.power (R.value u.opposite) (1 / R.value exponent))

/-- Both sides of an equation have the same value. -/
def Holds (u : Unwinding) : Prop := R.value u.current = R.value u.opposite

end Reading

/-! ## The equations on the way -/

/-- The equations before each move along a path. -/
def Unwinding.trail (name : String) (u : Unwinding) : Path → List Unwinding
  | [] => []
  | side :: path =>
      u ::
        match u.step name side with
        | .ok next => trail name next path
        | .error _ => []

/-- The equations before each move in solving for a variable. -/
def Expr.trail (e : Expr) (name : String) : List Unwinding :=
  match e.approach name with
  | .error _ => []
  | .ok a => a.start.trail name a.path

namespace Reading

variable {F : Type*} [Field F] {R : Reading F}

/-! ## One move -/

theorem value_one (hone : R.literal "1" = 1) (span : Span) : R.value (.ofNumber 1 span) = 1 := by
  have hlexeme : Decimal.shortestText 1 = "1" := by decide +kernel
  show R.leaf (.ofNumber 1 span) = 1
  rw [leaf, Token.ofNumber, hlexeme]
  exact hone

/-- An operand that is moved with the variable on its left. -/
theorem undo_left_iff (hone : R.literal "1" = 1) {op : Op} {t : Token} {x m o o' : Expr}
    {span : Span} (h : op.undo .left o m span = .ok o') (hx : R.Regular (.binary op t x m))
    (ho' : R.Regular o') (hpow : R.Invertible ⟨.binary op t x m, o⟩) :
    (R.value (.binary op t x m) = R.value o ↔ R.value x = R.value o') ∧ R.Regular o := by
  obtain ⟨-, -, hdiv⟩ := hx
  cases op with
  | add =>
    cases h
    exact ⟨eq_sub_iff_add_eq.symm, ho'.1⟩
  | sub =>
    cases h
    exact ⟨sub_eq_iff_eq_add, ho'.1⟩
  | mul =>
    cases h
    exact ⟨(eq_div_iff (ho'.2.2 rfl)).symm, ho'.1⟩
  | div =>
    cases h
    exact ⟨div_eq_iff (hdiv rfl), ho'.1⟩
  | pow =>
    cases h
    refine ⟨?_, ho'.1⟩
    have hroot : R.value (.combine .div (.ofNumber 1 span) m span) = 1 / R.value m := by
      show R.value (.ofNumber 1 span) / R.value m = 1 / R.value m
      rw [value_one hone]
    show R.power (R.value x) (R.value m) = R.value o ↔ R.value x = R.power (R.value o) _
    rw [hroot]
    exact hpow t x m rfl
  | equals => exact absurd h (by simp [Op.undo])

/-- An operand that is moved with the variable on its right. -/
theorem undo_right_iff {op : Op} {t : Token} {x m o o' : Expr} {span : Span}
    (h : op.undo .right o m span = .ok o') (hx : R.Regular (.binary op t m x))
    (ho' : R.Regular o') :
    (R.value (.binary op t m x) = R.value o ↔ R.value x = R.value o') ∧ R.Regular o := by
  obtain ⟨-, -, hdiv⟩ := hx
  cases op with
  | add =>
    cases h
    exact ⟨eq_sub_iff_add_eq'.symm, ho'.1⟩
  | sub =>
    cases h
    refine ⟨?_, ho'.2.1⟩
    show R.value m - R.value x = R.value o ↔ R.value x = R.value m - R.value o
    rw [sub_eq_iff_eq_add', eq_sub_iff_add_eq, eq_comm]
  | mul =>
    cases h
    refine ⟨?_, ho'.1⟩
    show R.value m * R.value x = R.value o ↔ R.value x = R.value o / R.value m
    rw [eq_div_iff (ho'.2.2 rfl), mul_comm]
  | div =>
    cases h
    refine ⟨?_, ho'.2.1⟩
    show R.value m / R.value x = R.value o ↔ R.value x = R.value m / R.value o
    rw [div_eq_iff (hdiv rfl), eq_div_iff (ho'.2.2 rfl), mul_comm, eq_comm]
  | pow => exact absurd h (by simp [Op.undo])
  | equals => exact absurd h (by simp [Op.undo])

theorem regular_current {name : String} {u next : Unwinding} {side : Side}
    (h : u.step name side = .ok next) (hu : R.Regular u.current) : R.Regular next.current := by
  obtain ⟨op, t, l, r, hcurrent, hside⟩ := Unwinding.step_ok h
  rw [hcurrent] at hu
  rcases hside with ⟨-, hkept, -⟩ | ⟨-, hkept, -⟩
  · rw [hkept]
    exact hu.1
  · rw [hkept]
    exact hu.2.1

/-- **One move keeps the truth of an equation.**  The other side is part of what it becomes, so no
division in it is lost from sight. -/
theorem step_iff (hone : R.literal "1" = 1) {name : String} {u next : Unwinding} {side : Side}
    (h : u.step name side = .ok next) (hu : R.Regular u.current) (hnext : R.Regular next.opposite)
    (hpow : R.Invertible u) : (R.Holds u ↔ R.Holds next) ∧ R.Regular u.opposite := by
  obtain ⟨current, opposite⟩ := u
  obtain ⟨kept, after⟩ := next
  obtain ⟨op, t, l, r, rfl, ⟨-, rfl, hundo⟩ | ⟨-, rfl, hundo⟩⟩ := Unwinding.step_ok h
  · exact undo_left_iff hone hundo hu hnext hpow
  · exact undo_right_iff hundo hu hnext

/-! ## All moves -/

theorem trail_cons {name : String} {u next : Unwinding} {side : Side} (path : Path)
    (h : u.step name side = .ok next) :
    u.trail name (side :: path) = u :: next.trail name path := by
  rw [Unwinding.trail, h]

/-- **A run keeps the truth of an equation.**  The induction goes down the path: what is left of the
variable's side is regular from the start, the other side because the last one is. -/
theorem run_iff (hone : R.literal "1" = 1) {name : String} {limit : Nat} {path : Path} :
    ∀ {done : Nat} {u last : Unwinding}, u.run name limit done path = .ok last →
      R.Regular u.current → R.Regular last.opposite → (∀ w ∈ u.trail name path, R.Invertible w) →
      (R.Holds u ↔ R.Holds last) ∧ R.Regular u.opposite := by
  induction path with
  | nil =>
    intro done u last h _ hlast _
    cases h
    exact ⟨Iff.rfl, hlast⟩
  | cons side path ih =>
    intro done u last h hu hlast hpow
    obtain ⟨next, hnext, hrest⟩ := Unwinding.run_cons h
    rw [trail_cons path hnext] at hpow
    have htail : ∀ w ∈ next.trail name path, R.Invertible w :=
      fun w hw => hpow w (List.mem_cons_of_mem _ hw)
    obtain ⟨hiff, hopposite⟩ := ih hrest (regular_current hnext hu) hlast htail
    obtain ⟨hone_move, hregular⟩ :=
      step_iff hone hnext hu hopposite (hpow u (List.mem_cons_self ..))
    exact ⟨hone_move.trans hiff, hregular⟩

end Reading

/-- **Isolation is algebra.**  Let an equation be solved for a variable, and read the equation and
the solution in a field with any assignment of the variables.  If no division has the divisor zero
and every power that is undone on the way is inverted by its root, then the equation holds exactly
if the variable equals the solution.  The equation may mention the variable more than once. -/
theorem solve_iff {F : Type*} [Field F] (R : Reading F) {limit : Nat} {e lhs rhs s : Expr}
    {name : String} (hsides : e.sides? = some (lhs, rhs)) (hsolve : e.solve limit name = .ok s)
    (hone : R.literal "1" = 1) (hlhs : R.Regular lhs) (hrhs : R.Regular rhs) (hs : R.Regular s)
    (hpow : ∀ u ∈ e.trail name, R.Invertible u) :
    R.value lhs = R.value rhs ↔ R.quantity name = R.value s := by
  obtain ⟨a, v, happroach, hrun, hvar, hname⟩ := Expr.solve_ok hsolve
  have hvalue : R.value (.leaf v) = R.quantity name := by
    show R.leaf v = R.quantity name
    rw [Reading.leaf, if_pos hvar, hname]
  have htrail : ∀ u ∈ a.start.trail name a.path, R.Invertible u := by
    intro u hu
    refine hpow u ?_
    rw [Expr.trail, happroach]
    exact hu
  obtain ⟨t, l, r, rfl, hstart, -⟩ := Expr.approach_ok happroach
  cases hsides
  rcases hstart with ⟨-, hstart⟩ | ⟨-, hstart⟩
  · rw [hstart] at hrun htrail
    rw [← hvalue]
    exact (Reading.run_iff hone hrun hlhs hs htrail).1
  · rw [hstart] at hrun htrail
    rw [← hvalue, eq_comm]
    exact (Reading.run_iff hone hrun hrhs hs htrail).1

/-- A square over the reals is undone by a square root. -/
theorem solve_iff_square_root :
    ∃ (R : Reading ℝ) (e lhs rhs s : Expr), Expr.read 256 "x ^ 2 / b = c" = .ok e ∧
      e.sides? = some (lhs, rhs) ∧ e.solve 20 "x" = .ok s ∧ s.text = "((c * b) ^ (1 / 2))" ∧
      R.value lhs = 9 ∧ R.value s = 6 ∧
      (R.value lhs = R.value rhs ↔ R.quantity "x" = R.value s) := by
  let x : Token := ⟨.name, "x", ⟨1, 1⟩⟩
  let b : Token := ⟨.name, "b", ⟨9, 9⟩⟩
  let c : Token := ⟨.name, "c", ⟨13, 13⟩⟩
  let one : Token := ⟨.number, "1", ⟨3, 3⟩⟩
  let two : Token := ⟨.number, "2", ⟨5, 5⟩⟩
  let square : Expr := .binary .pow ⟨.operator, "^", ⟨3, 3⟩⟩ (.leaf x) (.leaf two)
  let lhs : Expr := .binary .div ⟨.operator, "/", ⟨7, 7⟩⟩ square (.leaf b)
  let e : Expr := .binary .equals ⟨.equals, "=", ⟨11, 11⟩⟩ lhs (.leaf c)
  let product : Expr := .combine .mul (.leaf c) (.leaf b) ⟨7, 7⟩
  let s : Expr := .combine .pow product (.combine .div (.leaf one) (.leaf two) ⟨3, 3⟩) ⟨3, 3⟩
  let R : Reading ℝ :=
    { literal := fun text => if text = "2" then 2 else 1
      power := fun x y => x ^ y
      quantity := fun name => if name = "x" then 6 else if name = "b" then 4 else 9 }
  have hx : R.leaf x = 6 := by
    rw [Reading.leaf, if_pos (by decide +kernel)]
    rfl
  have hb : R.leaf b = 4 := by
    rw [Reading.leaf, if_pos (by decide +kernel)]
    rfl
  have hc : R.leaf c = 9 := by
    rw [Reading.leaf, if_pos (by decide +kernel)]
    rfl
  have htwo : R.leaf two = 2 := rfl
  have hone : R.leaf one = 1 := rfl
  have hroot : (36 : ℝ) ^ (1 / 2 : ℝ) = 6 := by
    rw [← Real.sqrt_eq_rpow, show (36 : ℝ) = 6 * 6 by norm_num]
    exact Real.sqrt_mul_self (by norm_num)
  have hlhs : R.value lhs = 9 := by
    show R.leaf x ^ R.leaf two / R.leaf b = 9
    rw [hx, htwo, hb]
    norm_num
  have hproduct : R.value product = 36 := by
    show R.leaf c * R.leaf b = 36
    rw [hc, hb]
    norm_num
  have hs : R.value s = 6 := by
    show R.value product ^ (R.leaf one / R.leaf two) = 6
    rw [hproduct, hone, htwo, hroot]
  have hsolve : e.solve 20 "x" = .ok s := by decide +kernel
  have htrail : e.trail "x" = [⟨lhs, .leaf c⟩, ⟨square, product⟩] := by decide +kernel
  refine ⟨R, e, lhs, .leaf c, s, by decide +kernel, rfl, hsolve, by decide +kernel, hlhs, hs,
    solve_iff R rfl hsolve rfl ⟨⟨trivial, trivial, nofun⟩, trivial, fun _ => ?_⟩ trivial
      ⟨⟨trivial, trivial, nofun⟩, ⟨trivial, trivial, fun _ => ?_⟩, nofun⟩ ?_⟩
  · show R.leaf b ≠ 0
    rw [hb]
    norm_num
  · show R.leaf two ≠ 0
    rw [htwo]
    norm_num
  · rw [htrail]
    intro u hu t base exponent hpower
    rcases List.mem_pair.mp hu with rfl | rfl
    · exact absurd hpower (by simp [lhs])
    · cases hpower
      show R.leaf x ^ R.leaf two = R.value product ↔
        R.leaf x = R.value product ^ (1 / R.leaf two)
      rw [hx, htwo, hproduct, hroot]
      norm_num

end EquationNetwork
