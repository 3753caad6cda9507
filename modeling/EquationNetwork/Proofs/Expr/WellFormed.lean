import EquationNetwork.Proofs.Distinct
import EquationNetwork.Proofs.Expr.Parsing
import EquationNetwork.Proofs.Token.Lexemes

/-!
# Well-formed expressions

What every expression read from a text is like.

* `Token.IsOperand` — a number that has a value, or a name that has none.
* `Expr.Legible` — the leaves are operands, and every operator is the one its token stands for.
* `Expr.WellFormed` — legible, with `=` nowhere below the root.
* `Expr.Legible.variableNames_eq` — the variables are the leaves that are no numerals.
* `wellFormed_of_read` — **what is read from a text** is well formed.
-/

namespace EquationNetwork

/-- A token that stands for an operand: a number that has a value, or a name that has none. -/
def Token.IsOperand (t : Token) : Prop :=
  (t.kind = .number ∧ t.value?.isSome = true) ∨ t.isVariable = true

/-- The number of a number or a name is that of its lexeme. -/
theorem Token.value?_eq_numeral? {t : Token} (h : t.kind = .number ∨ t.kind = .name) :
    t.value? = Decimal.numeral? t.lexeme := by
  rcases h with h | h <;> rw [Token.value?, h]

theorem Token.IsOperand.kind {t : Token} (h : t.IsOperand) :
    t.kind = .number ∨ t.kind = .name := by
  rcases h with ⟨hkind, -⟩ | hvariable
  · exact .inl hkind
  · rw [Token.isVariable, Bool.and_eq_true, beq_iff_eq] at hvariable
    exact .inr hvariable.1

/-- The operands that have a number of their own are those that are numbers by their kind. -/
theorem Token.IsOperand.isSome_value?_iff {t : Token} (h : t.IsOperand) :
    t.value?.isSome = true ↔ t.kind = .number := by
  rcases h with ⟨hkind, hvalue⟩ | hvariable
  · simp [hkind, hvalue]
  · rw [Token.isVariable, Bool.and_eq_true, beq_iff_eq, Option.isNone_iff_eq_none] at hvariable
    simp [hvariable.1, hvariable.2]

/-- The lexeme of an operand tells whether it is a variable. -/
theorem Token.IsOperand.isVariable_eq {t : Token} (h : t.IsOperand) :
    t.isVariable = (Decimal.numeral? t.lexeme).isNone := by
  rcases h with ⟨hkind, hvalue⟩ | hvariable
  · rw [Token.value?, hkind] at hvalue
    simp [Token.isVariable, hkind, Option.isNone_eq_false_iff.2 hvalue]
  · rw [hvariable]
    rw [Token.isVariable, Bool.and_eq_true, beq_iff_eq, Token.value?] at hvariable
    rw [hvariable.1] at hvariable
    exact hvariable.2.symm

namespace Expr

/-- The leaves are operands, and every operator is the one that its token stands for. -/
def Legible : Expr → Prop
  | leaf t => t.IsOperand
  | binary op t l r => t.op? = some op ∧ l.Legible ∧ r.Legible

/-- A legible expression in which `=` stands nowhere below the root. -/
structure WellFormed (e : Expr) : Prop where
  legible : e.Legible
  equalsOnlyAtRoot : e.EqualsOnlyAtRoot

theorem Legible.isOperand {e : Expr} (h : e.Legible) : ∀ t ∈ e.leaves, t.IsOperand := by
  induction e with
  | leaf t =>
    intro t' ht'
    obtain rfl := List.mem_singleton.mp ht'
    exact h
  | binary op t l r ihl ihr =>
    intro t' ht'
    rcases List.mem_append.mp ht' with ht' | ht'
    · exact ihl h.2.1 t' ht'
    · exact ihr h.2.2 t' ht'

/-- The variables are the leaves that are no numerals. -/
theorem Legible.variableNames_eq {e : Expr} (h : e.Legible) :
    e.variableNames = e.leafNames.filter fun name => (Decimal.numeral? name).isNone := by
  rw [variableNames, leafNames, ← eraseDups_filter, List.filter_map]
  congr 2
  exact List.filter_congr fun t ht => (h.isOperand t ht).isVariable_eq

end Expr

/-! ## What is read from a text -/

/-- The tokens `0` and `1`, which no text holds, are numbers. -/
theorem Token.isOperand_ofNumber {x : Float} (span : Span)
    (hx : (Decimal.numeral? (Decimal.shortestText x)).isSome = true) :
    (Token.ofNumber x span).IsOperand := .inl ⟨rfl, hx⟩

theorem Token.Lexical.isOperand_of_number {t : Token} (h : t.Lexical) (hkind : t.kind = .number) :
    t.IsOperand := .inl ⟨hkind, h.value?_isSome hkind⟩

theorem Token.Lexical.isOperand_of_name {t : Token} (h : t.Lexical) (hkind : t.kind = .name) :
    t.IsOperand := by
  right
  simp [Token.isVariable, hkind, h.value?_eq_none hkind]

/-- The tree that tokens of a text stand for is legible. -/
theorem Parser.Derives.legible {a : Level} {ts : List Token} {e : Expr} (h : Derives a ts e) :
    (∀ t ∈ ts, t.Lexical) → e.Legible := by
  induction h with
  | number hkind => exact fun hts => (hts _ (List.mem_singleton_self _)).isOperand_of_number hkind
  | name hkind => exact fun hts => (hts _ (List.mem_singleton_self _)).isOperand_of_name hkind
  | group _ _ _ ih =>
    intro hts
    exact ih fun t ht => hts t (List.mem_cons_of_mem _ (List.mem_append_left _ ht))
  | negation _ hop _ ih =>
    intro hts
    exact ⟨hop, Token.isOperand_ofNumber _ (by decide +kernel),
      ih fun t ht => hts t (List.mem_cons_of_mem _ ht)⟩
  | infixed _ hop _ ihl ihr =>
    intro hts
    exact ⟨hop, ihl fun t ht => hts t (List.mem_append_left _ ht),
      ihr fun t ht => hts t (List.mem_append_right _ (List.mem_cons_of_mem _ ht))⟩
  | looser _ _ ih => exact ih

/-- What is read from a text is parsed from the tokens of the text. -/
theorem exists_parse_of_read {limit : Nat} {text : String} {e : Expr}
    (h : Expr.read limit text = .ok e) :
    ∃ tokens, tokenize text = .ok tokens ∧ Expr.parse limit tokens = .ok e := by
  unfold Expr.read at h
  split at h
  · exact absurd h (by simp)
  · rename_i tokens htokens
    cases hparse : Expr.parse limit tokens with
    | error error => exact absurd h (by simp [hparse, Except.mapError])
    | ok e' =>
      obtain rfl : e' = e := by simpa [hparse, Except.mapError] using h
      exact ⟨tokens, htokens, hparse⟩

/-- What is read from a text is derived by the tokens of the text. -/
theorem derives_of_read {limit : Nat} {text : String} {e : Expr}
    (h : Expr.read limit text = .ok e) :
    ∃ tokens, tokenize text = .ok tokens ∧ Parser.Derives .equation tokens e ∧
      e.EqualsOnlyAtRoot := by
  obtain ⟨tokens, htokens, hparse⟩ := exists_parse_of_read h
  exact ⟨tokens, htokens, Parser.derives_of_parse hparse⟩

/-- **What is read from a text is well formed.** -/
theorem wellFormed_of_read {limit : Nat} {text : String} {e : Expr}
    (h : Expr.read limit text = .ok e) : e.WellFormed := by
  obtain ⟨tokens, htokens, hderives, hroot⟩ := derives_of_read h
  exact ⟨hderives.legible (lexical_of_tokenize htokens), hroot⟩

end EquationNetwork
