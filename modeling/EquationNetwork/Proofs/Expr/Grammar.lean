import Mathlib.Tactic
import EquationNetwork.Expr.Parser

/-!
# The grammar of expressions

The parser compares binding powers.  This file says what an expression is in the usual way, by a
grammar of five levels:

    atom     ::= number | name | '(' equation ')' | '[' equation ']'
    power    ::= atom | atom '^' power | '-' power
    product  ::= power | product ('*' | '/') power
    sum      ::= product | sum ('+' | '-') product
    equation ::= sum | sum '=' equation

* `Derives` — a list of tokens is of a level and stands for a tree.  `Op.level`, `Op.leftLevel` and
  `Op.rightLevel` are the table of the infix productions.
* `floor_lt_power_iff` and `power_le_floor_iff` — the binding powers say the same as the levels, of
  what a frame takes in and of what closes it.
-/

namespace EquationNetwork

/-! ## Levels -/

/-- The levels of the grammar, the tightest first. -/
inductive Level where
  | atom
  | power
  | product
  | sum
  | equation
deriving DecidableEq, Repr

namespace Level

/-- The place of a level in the order from tight to loose. -/
def rank : Level → Nat
  | atom => 0
  | power => 1
  | product => 2
  | sum => 3
  | equation => 4

instance : LE Level := ⟨fun a b => a.rank ≤ b.rank⟩

instance (a b : Level) : Decidable (a ≤ b) := Nat.decLe a.rank b.rank

protected theorem le_refl (a : Level) : a ≤ a := Nat.le_refl a.rank

protected theorem le_trans {a b c : Level} (h₁ : a ≤ b) (h₂ : b ≤ c) : a ≤ c := Nat.le_trans h₁ h₂

theorem atom_le (a : Level) : atom ≤ a := Nat.zero_le a.rank

theorem le_equation (a : Level) : a ≤ equation := by cases a <;> decide

end Level

namespace Op

/-- The level of an operation. -/
def level : Op → Level
  | equals => .equation
  | add | sub => .sum
  | mul | div => .product
  | pow => .power

/-- The loosest level of an operator's left operand. -/
def leftLevel : Op → Level
  | equals | add | sub => .sum
  | mul | div => .product
  | pow => .atom

/-- The loosest level of an operator's right operand. -/
def rightLevel : Op → Level
  | equals => .equation
  | add | sub => .product
  | mul | div | pow => .power

theorem leftLevel_le (op : Op) : op.leftLevel ≤ op.level := by cases op <;> decide

theorem rightLevel_le (op : Op) : op.rightLevel ≤ op.level := by cases op <;> decide

end Op

namespace Parser

/-! ## Derivations -/

/-- The tokens are of the level and stand for the tree.  A minus sign in front of an operand stands
for the difference from zero, and brackets leave no trace. -/
inductive Derives : Level → List Token → Expr → Prop where
  | number {t : Token} (h : t.kind = .number) : Derives .atom [t] (.leaf t)
  | name {t : Token} (h : t.kind = .name) : Derives .atom [t] (.leaf t)
  | group {opener closer : Token} {ts : List Token} {e : Expr} (ho : opener.isOpening = true)
      (hc : closer.closes opener = true) (h : Derives .equation ts e) :
      Derives .atom (opener :: (ts ++ [closer])) e
  | negation {t : Token} {ts : List Token} {e : Expr} (hk : t.kind = .operator)
      (ht : t.op? = some .sub) (h : Derives .power ts e) :
      Derives .power (t :: ts) (.binary .sub t (.ofNumber 0 t.span) e)
  | infixed {op : Op} {t : Token} {ls rs : List Token} {l r : Expr}
      (hl : Derives op.leftLevel ls l) (ht : t.op? = some op) (hr : Derives op.rightLevel rs r) :
      Derives op.level (ls ++ t :: rs) (.binary op t l r)
  /-- What is of a level is of every looser one, too. -/
  | looser {a b : Level} {ts : List Token} {e : Expr} (h : Derives a ts e) (hab : a ≤ b) :
      Derives b ts e

/-! ## Frames and levels -/

/-- The loosest level of the operand that the innermost frame waits for. -/
def operandLevel : List Frame → Level
  | [] => .equation
  | .group _ :: _ => .equation
  | .minus _ :: _ => .power
  | .infixed _ op _ :: _ => op.rightLevel

/-- The level of what a frame becomes when it closes.  A bracket closes only with a token of its
own. -/
def Frame.level : Frame → Level
  | .group _ => .atom
  | .minus _ => .power
  | .infixed _ op _ => op.level

/-- A frame that closes without a token of its own. -/
def Frame.Open : Frame → Prop
  | .group _ => False
  | .minus _ => True
  | .infixed .. => True

/-- **Binding powers are levels.**  An operator exceeds the floor of the open frames exactly if the
operand that they wait for may be its operation. -/
theorem floor_lt_power_iff (stack : List Frame) (op : Op) :
    floor stack < op.power ↔ op.level ≤ operandLevel stack := by
  cases stack with
  | nil => cases op <;> decide
  | cons f stack =>
    cases f with
    | group t =>
      simp only [floor, Frame.floor, operandLevel]
      cases op <;> decide
    | minus t =>
      simp only [floor, Frame.floor, operandLevel]
      cases op <;> decide
    | infixed l inner t =>
      simp only [floor, Frame.floor, operandLevel]
      cases op <;> cases inner <;> decide

/-- An operator closes a frame exactly if its left operand may be what the frame becomes. -/
theorem power_le_floor_iff {f : Frame} (hf : f.Open) (op : Op) :
    op.power ≤ f.floor ↔ f.level ≤ op.leftLevel := by
  cases f with
  | group t => exact hf.elim
  | minus t =>
    simp only [Frame.floor, Frame.level]
    cases op <;> decide
  | infixed l inner t =>
    simp only [Frame.floor, Frame.level]
    cases op <;> cases inner <;> decide

theorem power_le_operandLevel (stack : List Frame) : Level.power ≤ operandLevel stack := by
  cases stack with
  | nil => decide
  | cons f stack =>
    cases f with
    | group t => exact Level.le_equation .power
    | minus t => exact Level.le_refl .power
    | infixed l op t =>
      simp only [operandLevel]
      cases op <;> decide

theorem opAbove?_eq_some_iff {power : Nat} {t : Token} {op : Op} :
    opAbove? power t = some op ↔ t.op? = some op ∧ power < op.power := by
  simp [opAbove?, Option.filter_eq_some_iff]

theorem opAbove?_eq_none_iff {power : Nat} {t : Token} :
    opAbove? power t = none ↔ ∀ op, t.op? = some op → op.power ≤ power := by
  simp [opAbove?, Option.filter_eq_none_iff]

/-- A closing bracket is no operator. -/
theorem op?_of_closes {t opener : Token} (h : t.closes opener = true) : t.op? = none := by
  have hlex : t.lexeme = ")" ∨ t.lexeme = "]" := by
    simp only [Token.closes, Bool.or_eq_true, Bool.and_eq_true, beq_iff_eq] at h
    rcases h with ⟨-, h⟩ | ⟨-, h⟩
    · exact .inl h
    · exact .inr h
  unfold Token.op?
  rcases hlex with hlex | hlex <;> rw [hlex] <;> split <;> rfl

end Parser

end EquationNetwork
