import Mathlib.Tactic
import EquationNetwork.Expr.Evaluation
import EquationNetwork.Proofs.Expr.Paths

/-!
# When evaluation succeeds

* `Expr.evaluate_binary_ok` — the value of an operation comes from the values of its operands.
* `Expr.exists_evaluate_iff` — **an expression has a value** exactly if no `=` stands in it and
  every leaf has one.
* `Expr.evaluate_mono` — a value stays the same when more variables have values.
* `Expr.evaluate_congr_leaves` — **only the variables of an expression matter** for its value;
  `Expr.evaluate_congr` — what a valuation says of numerals does not.
-/

namespace EquationNetwork

/-- Every operator but `=` can be applied to any two numbers. -/
theorem Op.exists_apply_iff {op : Op} (x y : Float) :
    (∃ z, op.apply x y = .ok z) ↔ op ≠ .equals := by
  cases op with
  | equals => simp [apply]
  | add | sub | mul | div | pow => simp [apply]

/-- A leaf has the same value when more variables have values. -/
theorem Token.evaluate_mono {known known' : Valuation}
    (h : ∀ name x, known name = some x → known' name = some x) {t : Token} {x : Float}
    (ht : t.evaluate known = .ok x) : t.evaluate known' = .ok x := by
  unfold evaluate at ht ⊢
  split at ht
  · exact ht
  · split at ht
    · rename_i y hy
      cases ht
      by_cases hkind : t.kind = .name
      · rw [if_pos hkind] at hy ⊢
        rw [h _ _ hy]
      · rw [if_neg hkind] at hy
        exact absurd hy (by simp)
    · exact absurd ht (by simp)

/-- A variable is no numeral. -/
theorem Token.numeral?_of_isVariable {t : Token} (h : t.isVariable = true) :
    Decimal.numeral? t.lexeme = none := by
  simp only [isVariable, value?, Bool.and_eq_true, beq_iff_eq] at h
  simpa [h.1] using h.2

/-- A leaf asks for a value only if it is a variable. -/
theorem Token.evaluate_congr {known known' : Valuation} {t : Token}
    (h : t.isVariable = true → known' t.lexeme = known t.lexeme) :
    t.evaluate known' = t.evaluate known := by
  unfold evaluate
  cases hvalue : t.value? with
  | some x => rfl
  | none =>
    by_cases hkind : t.kind = .name
    · rw [h (by simp [isVariable, hkind, hvalue])]
    · rw [if_neg hkind, if_neg hkind]

namespace Expr

variable {known : Valuation}

/-- The value of an operation is its operator applied to the values of its operands. -/
theorem evaluate_binary_ok {op : Op} {t : Token} {l r : Expr} {z : Float} :
    (binary op t l r).evaluate known = .ok z ↔
      ∃ x y, l.evaluate known = .ok x ∧ r.evaluate known = .ok y ∧ op.apply x y = .ok z := by
  cases op with
  | equals => simp [evaluate, Op.apply]
  | add | sub | mul | div | pow =>
    rw [evaluate]
    · cases l.evaluate known with
      | error error => simp
      | ok x =>
        cases r.evaluate known with
        | error error => simp
        | ok y => simp
    · simp

/-- **When an expression has a value.**  No `=` stands in it and every leaf has a value. -/
theorem exists_evaluate_iff {e : Expr} :
    (∃ x, e.evaluate known = .ok x) ↔
      e.firstEquals? = none ∧ ∀ t ∈ e.leaves, ∃ x, t.evaluate known = .ok x := by
  induction e with
  | leaf t => simp [evaluate, firstEquals?, leaves]
  | binary op t l r ihl ihr =>
    have hleaves : (∀ t' ∈ (binary op t l r).leaves, ∃ x, t'.evaluate known = .ok x) ↔
        (∀ t' ∈ l.leaves, ∃ x, t'.evaluate known = .ok x) ∧
          ∀ t' ∈ r.leaves, ∃ x, t'.evaluate known = .ok x := List.forall_mem_append
    rw [firstEquals?_binary_eq_none_iff, hleaves]
    constructor
    · rintro ⟨z, hz⟩
      obtain ⟨x, y, hx, hy, happly⟩ := evaluate_binary_ok.1 hz
      obtain ⟨hl, hlleaves⟩ := ihl.1 ⟨x, hx⟩
      obtain ⟨hr, hrleaves⟩ := ihr.1 ⟨y, hy⟩
      exact ⟨⟨(Op.exists_apply_iff x y).1 ⟨z, happly⟩, hl, hr⟩, hlleaves, hrleaves⟩
    · rintro ⟨⟨hop, hl, hr⟩, hlleaves, hrleaves⟩
      obtain ⟨x, hx⟩ := ihl.2 ⟨hl, hlleaves⟩
      obtain ⟨y, hy⟩ := ihr.2 ⟨hr, hrleaves⟩
      obtain ⟨z, hz⟩ := (Op.exists_apply_iff x y).2 hop
      exact ⟨z, evaluate_binary_ok.2 ⟨x, y, hx, hy, hz⟩⟩

/-- A value stays the same when more variables have values. -/
theorem evaluate_mono {known' : Valuation}
    (h : ∀ name x, known name = some x → known' name = some x)
    {e : Expr} : ∀ {x : Float}, e.evaluate known = .ok x → e.evaluate known' = .ok x := by
  induction e with
  | leaf t =>
    intro x hx
    exact Token.evaluate_mono h hx
  | binary op t l r ihl ihr =>
    intro z hz
    obtain ⟨x, y, hx, hy, happly⟩ := evaluate_binary_ok.1 hz
    exact evaluate_binary_ok.2 ⟨x, y, ihl hx, ihr hy, happly⟩

/-- Valuations that agree on the variables give the same value, or the same error. -/
theorem evaluate_congr_leaves {known' : Valuation} {e : Expr} :
    (∀ t ∈ e.leaves, t.isVariable = true → known' t.lexeme = known t.lexeme) →
      e.evaluate known' = e.evaluate known := by
  induction e with
  | leaf t => exact fun h => Token.evaluate_congr (h t (List.mem_singleton_self t))
  | binary op t l r ihl ihr =>
    intro h
    obtain ⟨hl, hr⟩ := List.forall_mem_append.1 h
    cases op with
    | equals => rfl
    | add | sub | mul | div | pow => rw [evaluate, evaluate, ihl hl, ihr hr] <;> simp

/-- What a valuation says of numerals does not matter. -/
theorem evaluate_congr {known' : Valuation}
    (h : ∀ name, Decimal.numeral? name = none → known' name = known name) (e : Expr) :
    e.evaluate known' = e.evaluate known :=
  evaluate_congr_leaves fun t _ ht => h t.lexeme (Token.numeral?_of_isVariable ht)

end Expr

end EquationNetwork
