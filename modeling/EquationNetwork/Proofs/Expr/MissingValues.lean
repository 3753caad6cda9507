import EquationNetwork.Proofs.Expr.Isolated
import EquationNetwork.Proofs.Expr.Printable

/-!
# Missing values

An expression that is read from a text, or that solving makes of one, fails to have a value only for
want of the value of a variable, and the error names the first such variable.

* `Valuation.firstMissing?` — the first of a list of names that has no value.
* `Valuation.Decides` — a result is a number if all names have values, and otherwise the error that
  names the first one that has none.
* `Valuation.Decides.both` — two operands, of which the left one is evaluated first.
* `Expr.evaluate_decided` — **the variables in the order of their occurrence** decide.
* `Expr.evaluate_first_missing` — **the value and the residual of an expression**, by the list of
  its variables.
-/

namespace EquationNetwork

namespace Valuation

/-- The first of the names that has no value. -/
def firstMissing? (known : Valuation) (names : List String) : Option String :=
  names.find? fun name => (known name).isNone

/-- The result is a number if all names have values, and otherwise the error that names the first
one that has none. -/
structure Decides (known : Valuation) (names : List String) (result : Except EvalError Float) :
    Prop where
  ok_iff : (∃ x, result = .ok x) ↔ ∀ name ∈ names, (known name).isSome = true
  error_iff : ∀ error, result = .error error ↔
    ∃ name, known.firstMissing? names = some name ∧ error = .unboundVariable name

variable {known : Valuation} {names left right : List String}

theorem firstMissing?_eq_none_iff :
    known.firstMissing? names = none ↔ ∀ name ∈ names, (known name).isSome = true := by
  simp [firstMissing?, Option.isSome_iff_ne_none]

theorem firstMissing?_append :
    known.firstMissing? (left ++ right) =
      (known.firstMissing? left).or (known.firstMissing? right) := List.find?_append

theorem decides_of_firstMissing?_eq_none {x : Float} (h : known.firstMissing? names = none) :
    known.Decides names (.ok x) :=
  ⟨iff_of_true ⟨x, rfl⟩ (firstMissing?_eq_none_iff.1 h), fun error => by simp [h]⟩

theorem decides_of_firstMissing?_eq_some {name : String}
    (h : known.firstMissing? names = some name) :
    known.Decides names (.error (.unboundVariable name)) := by
  refine ⟨iff_of_false (by simp) fun hall => ?_, fun error => by simp [h, eq_comm]⟩
  exact absurd (firstMissing?_eq_none_iff.2 hall) (by simp [h])

theorem Decides.exists_ok {result : Except EvalError Float} (h : known.Decides names result)
    (hnone : known.firstMissing? names = none) : ∃ x, result = .ok x :=
  h.ok_iff.2 (firstMissing?_eq_none_iff.1 hnone)

theorem Decides.eq_error {result : Except EvalError Float} (h : known.Decides names result)
    {name : String} (hsome : known.firstMissing? names = some name) :
    result = .error (.unboundVariable name) := (h.error_iff _).2 ⟨name, hsome, rfl⟩

/-- **Two operands.**  The left one is evaluated first, and its variables come first. -/
theorem Decides.both {l r : Except EvalError Float} {f : Float → Float → Except EvalError Float}
    (hf : ∀ x y, ∃ z, f x y = .ok z) :
    known.Decides left l → known.Decides right r →
    known.Decides (left ++ right)
      (match l with
      | .error error => .error error
      | .ok x =>
          match r with
          | .error error => .error error
          | .ok y => f x y) := by
  intro hl hr
  cases hleft : known.firstMissing? left with
  | some name =>
    obtain rfl := hl.eq_error hleft
    apply decides_of_firstMissing?_eq_some
    rw [firstMissing?_append, hleft, Option.some_or]
  | none =>
    obtain ⟨x, rfl⟩ := hl.exists_ok hleft
    cases hright : known.firstMissing? right with
    | some name =>
      obtain rfl := hr.eq_error hright
      apply decides_of_firstMissing?_eq_some
      rw [firstMissing?_append, hleft, hright, Option.none_or]
    | none =>
      obtain ⟨y, rfl⟩ := hr.exists_ok hright
      obtain ⟨z, hz⟩ := hf x y
      dsimp only
      rw [hz]
      apply decides_of_firstMissing?_eq_none
      rw [firstMissing?_append, hleft, hright, Option.none_or]

/-- A name that comes again is not the first one missing. -/
theorem Decides.eraseDups {result : Except EvalError Float} (h : known.Decides names result) :
    known.Decides names.eraseDups result := by
  refine ⟨?_, ?_⟩
  · simpa only [List.mem_eraseDups] using h.ok_iff
  · simpa only [firstMissing?, find?_eraseDups] using h.error_iff

end Valuation

/-! ## Evaluation -/

/-- A number has its value, and a variable has one if it is known. -/
theorem Token.IsOperand.decided {t : Token} (h : t.IsOperand) (known : Valuation) :
    known.Decides (Expr.leaf t).occurring (t.evaluate known) := by
  rcases h with ⟨hkind, hvalue⟩ | hvariable
  · -- a number asks for no name
    have hnumber : (Expr.leaf t).occurring = [] := by
      simp [Expr.occurring, Expr.leaves, isVariable, hkind]
    obtain ⟨x, hx⟩ := Option.isSome_iff_exists.1 hvalue
    rw [hnumber, evaluate, hx]
    exact Valuation.decides_of_firstMissing?_eq_none rfl
  · have hname : (Expr.leaf t).occurring = [t.lexeme] := by
      simp [Expr.occurring, Expr.leaves, hvariable]
    obtain ⟨hkind, hvalue⟩ := Bool.and_eq_true_iff.1 hvariable
    rw [hname, evaluate, Option.isNone_iff_eq_none.1 hvalue, if_pos (beq_iff_eq.1 hkind)]
    cases hknown : known t.lexeme with
    | none =>
      apply Valuation.decides_of_firstMissing?_eq_some
      simp [Valuation.firstMissing?, hknown]
    | some x =>
      apply Valuation.decides_of_firstMissing?_eq_none
      simp [Valuation.firstMissing?, hknown]

namespace Expr

/-- **The variables in the order of their occurrence decide.** -/
theorem evaluate_decided (known : Valuation) {e : Expr} :
    e.Legible → e.firstEquals? = none → known.Decides e.occurring (e.evaluate known) := by
  induction e with
  | leaf t => exact fun h _ => Token.IsOperand.decided h known
  | binary op t l r ihl ihr =>
    intro h hnone
    obtain ⟨hop, hl_none, hr_none⟩ := firstEquals?_binary_eq_none_iff.1 hnone
    have happly : ∀ x y, ∃ z, op.apply x y = .ok z := fun x y => (Op.exists_apply_iff x y).2 hop
    have hboth := Valuation.Decides.both happly (ihl h.2.1 hl_none) (ihr h.2.2 hr_none)
    rw [occurring_binary]
    cases op with
    | equals => exact absurd rfl hop
    | add | sub | mul | div | pow => exact hboth

/-- The left side of an equation is evaluated before the right one. -/
theorem residual_decided (known : Valuation) {t : Token} {l r : Expr}
    (h : (binary .equals t l r).WellFormed) :
    known.Decides (binary .equals t l r).occurring ((binary .equals t l r).residual known) := by
  obtain ⟨-, hl, hr⟩ := h.legible
  obtain ⟨hl_none, hr_none⟩ := equalsOnlyAtRoot_binary_iff.1 h.equalsOnlyAtRoot
  rw [occurring_binary]
  apply Valuation.Decides.both (fun x y => ⟨x - y, rfl⟩)
  · exact evaluate_decided known hl hl_none
  · exact evaluate_decided known hr hr_none

/-- An expression with `=` nowhere below the root has none at all if it is no equation. -/
theorem EqualsOnlyAtRoot.firstEquals?_eq_none {e : Expr} (h : e.EqualsOnlyAtRoot)
    (hroot : e.isEquation = false) : e.firstEquals? = none := by
  rw [firstEquals?_eq_none_iff]
  intro path node hat
  cases path with
  | nil =>
    obtain rfl := Option.some.inj hat
    exact hroot
  | cons side path => exact h _ node hat (by simp)

/-- Only the variables of an expression matter for its residual. -/
theorem residual_congr_leaves {known known' : Valuation} {e : Expr}
    (h : ∀ t ∈ e.leaves, t.isVariable = true → known' t.lexeme = known t.lexeme) :
    e.residual known' = e.residual known := by
  unfold residual
  cases hsides : e.sides? with
  | none => rfl
  | some sides =>
    obtain ⟨l, r⟩ := sides
    obtain ⟨t, rfl⟩ := sides?_eq_some hsides
    obtain ⟨hl, hr⟩ := List.forall_mem_append.1 h
    dsimp only
    rw [evaluate_congr_leaves hl, evaluate_congr_leaves hr]

/-! ## The first missing variable -/

/-- **Evaluation fails exactly on the first missing variable.**  Let an expression be read from a
text, or be what solving or isolating makes of one.  It has a value if all its variables have one,
and otherwise the error is the first of its variables that has none; an equation never has a value,
and its residual is decided in the same way.  What a valuation says of other names does not
matter. -/
theorem evaluate_first_missing {e : Expr} (he : e.Obtained) (known : Valuation) :
    (e.isEquation = false → known.Decides e.variableNames (e.evaluate known)) ∧
      (e.isEquation = true → e.evaluate known = .error .isEquation ∧
        known.Decides e.variableNames (e.residual known)) ∧
      ∀ known' : Valuation, (∀ name ∈ e.variableNames, known' name = known name) →
        e.evaluate known' = e.evaluate known ∧ e.residual known' = e.residual known := by
  have hwell := he.wellFormed
  refine ⟨fun hexpression => ?_, fun hequation => ?_, fun known' hagree => ?_⟩
  · have hnone := hwell.equalsOnlyAtRoot.firstEquals?_eq_none hexpression
    exact (evaluate_decided known hwell.legible hnone).eraseDups
  · obtain ⟨t, l, r, rfl⟩ := isEquation_iff.1 hequation
    exact ⟨rfl, (residual_decided known hwell).eraseDups⟩
  · have hleaves : ∀ t ∈ e.leaves, t.isVariable = true → known' t.lexeme = known t.lexeme := by
      intro t ht hvariable
      apply hagree
      rw [mem_variableNames_iff_mem_occurring]
      exact List.mem_map_of_mem (List.mem_filter.2 ⟨ht, hvariable⟩)
    exact ⟨evaluate_congr_leaves hleaves, residual_congr_leaves hleaves⟩

/-- The solution asks for its variables in another order than the equation does. -/
theorem evaluate_first_missing_solution :
    ∃ e s, read 256 "a ^ 2 = b - x / a" = .ok e ∧ e.solve 20 "x" = .ok s ∧
      s.text = "((b - (a ^ 2)) * a)" ∧
      e.variableNames = ["a", "b", "x"] ∧ s.variableNames = ["b", "a"] ∧
      e.evaluate (.ofList [("x", 1)]) = .error .isEquation ∧
      e.residual (.ofList [("x", 1)]) = .error (.unboundVariable "a") ∧
      s.evaluate (.ofList [("x", 1)]) = .error (.unboundVariable "b") ∧
      ∃ x, s.evaluate (.ofList [("a", 3), ("b", 10)]) = .ok x := by
  let square : Expr := .binary .pow ⟨.operator, "^", ⟨3, 3⟩⟩ (.leaf ⟨.name, "a", ⟨1, 1⟩⟩)
    (.leaf ⟨.number, "2", ⟨5, 5⟩⟩)
  let ratio : Expr := .binary .div ⟨.operator, "/", ⟨15, 15⟩⟩ (.leaf ⟨.name, "x", ⟨13, 13⟩⟩)
    (.leaf ⟨.name, "a", ⟨17, 17⟩⟩)
  let difference : Expr := .binary .sub ⟨.operator, "-", ⟨11, 11⟩⟩ (.leaf ⟨.name, "b", ⟨9, 9⟩⟩)
    ratio
  let e : Expr := .binary .equals ⟨.equals, "=", ⟨7, 7⟩⟩ square difference
  have hread : read 256 "a ^ 2 = b - x / a" = .ok e := by decide +kernel
  have htext : (e.solve 20 "x").map text = .ok "((b - (a ^ 2)) * a)" := by decide +kernel
  have hnames : (e.solve 20 "x").map variableNames = .ok ["b", "a"] := by decide +kernel
  have hkind : (e.solve 20 "x").map isEquation = .ok false := by decide +kernel
  have henames : e.variableNames = ["a", "b", "x"] := by decide +kernel
  obtain ⟨s, hs, hstext⟩ := map_eq_ok_iff.1 htext
  rw [hs] at hnames hkind
  have hsnames : s.variableNames = ["b", "a"] := Except.ok.inj hnames
  have hskind : s.isEquation = false := Except.ok.inj hkind
  have he : e.Obtained := .read hread
  obtain ⟨-, hequation, -⟩ := evaluate_first_missing he (.ofList [("x", 1)])
  obtain ⟨hvalue, hresidual⟩ := hequation rfl
  have hmissing := (evaluate_first_missing (.solve he hs) (.ofList [("x", 1)])).1 hskind
  have hall := (evaluate_first_missing (.solve he hs) (.ofList [("a", 3), ("b", 10)])).1 hskind
  rw [hsnames] at hmissing hall
  rw [henames] at hresidual
  refine ⟨e, s, hread, hs, hstext, henames, hsnames, hvalue, ?_, ?_, hall.ok_iff.2 ?_⟩
  · exact hresidual.eq_error rfl
  · exact hmissing.eq_error rfl
  · simp [Valuation.ofList]

end Expr

end EquationNetwork
