import EquationNetwork.Proofs.Token.Rescanning

/-!
# Brackets

Brackets pair by kind, round ones with round ones and square ones with square ones.

* `Balanced` — every bracket of a list has its partner.
* `nest`, `openAfter` — what is open after some tokens, read from left to right.
  `openAfter_of_balanced` says that balanced brackets leave nothing open.
* `Token.Lexical.kind_of_closes` — among the tokens of a text only brackets close brackets.
-/

namespace EquationNetwork

/-! ## Tokens -/

namespace Token

theorem kind_of_isOpening {t : Token} (h : t.isOpening = true) : t.kind = .bracket := by
  simp only [isOpening, Bool.and_eq_true, beq_iff_eq] at h
  exact h.1

theorem kind_of_isClosing {t : Token} (h : t.isClosing = true) : t.kind = .bracket := by
  simp only [isClosing, Bool.and_eq_true, beq_iff_eq] at h
  exact h.1

/-- What closes another bracket opens none. -/
theorem isOpening_of_closes {t opener : Token} (h : t.closes opener = true) :
    t.isOpening = false := by
  simp only [closes, Bool.or_eq_true, Bool.and_eq_true, beq_iff_eq] at h
  rcases h with ⟨-, h⟩ | ⟨-, h⟩ <;> simp [isOpening, h]

/-- A closing bracket opens none. -/
theorem isOpening_of_isClosing {t : Token} (h : t.isClosing = true) : t.isOpening = false := by
  simp only [isClosing, Bool.and_eq_true, Bool.or_eq_true, beq_iff_eq] at h
  rcases h.2 with h | h <;> simp [isOpening, h]

/-- No operator is a bracket. -/
theorem kind_of_op? {t : Token} {op : Op} (h : t.op? = some op) : t.kind ≠ .bracket := by
  intro hk
  rw [op?, hk] at h
  exact absurd h (by simp)

/-- What closes a bracket is a bracket itself. -/
theorem Lexical.kind_of_closes {t opener : Token} (ht : t.Lexical)
    (h : t.closes opener = true) : t.kind = .bracket := by
  simp only [Token.closes, Bool.or_eq_true, Bool.and_eq_true, beq_iff_eq] at h
  rcases h with ⟨-, h⟩ | ⟨-, h⟩
  · exact Option.some.inj (Scanner.kind_of_lexeme ht (c := ')') (by rw [h]; rfl)).symm
  · exact Option.some.inj (Scanner.kind_of_lexeme ht (c := ']') (by rw [h]; rfl)).symm

end Token

/-! ## Balanced brackets -/

/-- Brackets that pair by kind. -/
inductive Balanced : List Token → Prop where
  | nil : Balanced []
  | pair {opener closer : Token} {inner rest : List Token} (ho : opener.isOpening = true)
      (hc : closer.closes opener = true) (hinner : Balanced inner) (hrest : Balanced rest) :
      Balanced (opener :: (inner ++ closer :: rest))

/-- The brackets among tokens. -/
def brackets (tokens : List Token) : List Token := tokens.filter (·.kind == .bracket)

/-! ## Open brackets -/

/-- What is open after one more bracket, the innermost first. -/
def nest (openers : List Token) (t : Token) : Option (List Token) :=
  if t.isOpening then some (t :: openers)
  else
    match openers with
    | [] => none
    | opener :: outer => if t.closes opener then some outer else none

/-- What is open after tokens, the innermost first, if every closing bracket among them belongs to
the innermost one that is open. -/
def openAfter (tokens : List Token) : Option (List Token) := (brackets tokens).foldlM nest []

theorem openAfter_concat_bracket {tokens openers : List Token} {t : Token}
    (h : openAfter tokens = some openers) (hk : t.kind = .bracket) :
    openAfter (tokens ++ [t]) = nest openers t := by
  have hbrackets : brackets (tokens ++ [t]) = brackets tokens ++ [t] := by simp [brackets, hk]
  rw [openAfter, hbrackets, List.foldlM_append, ← openAfter, h]
  simp

theorem openAfter_concat_other {tokens openers : List Token} {t : Token}
    (h : openAfter tokens = some openers) (hk : t.kind ≠ .bracket) :
    openAfter (tokens ++ [t]) = some openers := by
  have hbrackets : brackets (tokens ++ [t]) = brackets tokens := by simp [brackets, hk]
  rw [openAfter, hbrackets, ← openAfter, h]

/-- A closing bracket that belongs to none is not made good by what follows. -/
theorem openAfter_append_of_none {tokens : List Token} (h : openAfter tokens = none)
    (more : List Token) : openAfter (tokens ++ more) = none := by
  have hbrackets : brackets (tokens ++ more) = brackets tokens ++ brackets more := by
    simp [brackets]
  rw [openAfter, hbrackets, List.foldlM_append, ← openAfter, h]
  rfl

theorem nest_opener {openers : List Token} {t : Token} (h : t.isOpening = true) :
    nest openers t = some (t :: openers) := by
  simp only [nest, if_pos h]

theorem nest_closer {opener t : Token} {outer : List Token} (h : t.closes opener = true) :
    nest (opener :: outer) t = some outer := by
  simp only [nest, Token.isOpening_of_closes h, Bool.false_eq_true, if_false, if_pos h]

/-- A closing bracket that does not belong to the innermost open one ends the nesting. -/
theorem nest_mismatch {openers : List Token} {t : Token} (hc : t.isClosing = true)
    (h : openers.head?.any t.closes = false) : nest openers t = none := by
  cases openers with
  | nil => simp only [nest, Token.isOpening_of_isClosing hc, Bool.false_eq_true, if_false]
  | cons opener outer =>
    have hcloses : t.closes opener = false := by simpa using h
    simp only [nest, Token.isOpening_of_isClosing hc, hcloses, Bool.false_eq_true, if_false]

/-- Balanced brackets leave open what was open before. -/
theorem Balanced.foldlM_nest {ts : List Token} (h : Balanced ts) :
    ∀ openers : List Token, ts.foldlM nest openers = some openers := by
  induction h with
  | nil => exact fun openers => rfl
  | @pair opener closer inner rest ho hc _ _ ihinner ihrest =>
    intro openers
    rw [List.foldlM_cons, nest_opener ho, Option.bind_eq_bind, Option.bind_some,
      List.foldlM_append, ihinner, Option.bind_eq_bind, Option.bind_some, List.foldlM_cons,
      nest_closer hc, Option.bind_eq_bind, Option.bind_some, ihrest]

theorem openAfter_of_balanced {tokens : List Token} (h : Balanced (brackets tokens)) :
    openAfter tokens = some [] := h.foldlM_nest []

end EquationNetwork
