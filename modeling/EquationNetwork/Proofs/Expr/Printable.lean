import EquationNetwork.Proofs.Expr.Operands
import EquationNetwork.Proofs.Token.Patterns

/-!
# Expressions that can be written

Every expression that is read from a text, and every one that solving and isolating make of it, is
made of tokens that a text can hold.

* `Expr.Textual` — the leaves are lexemes of numbers and names, and every operator has its own
  token.
* `Expr.Printable` — textual, with `=` nowhere below the root.
* `Expr.Obtained` — the expressions that reading, solving and isolating lead to.
* `Expr.Obtained.printable` — **all of them are printable**, and so well formed
  (`Expr.Obtained.wellFormed`).
-/

namespace EquationNetwork

/-- The leaves are lexemes of numbers and names, and every operator has its own token. -/
def Expr.Textual : Expr → Prop
  | leaf t => t.Lexical ∧ (t.kind = .number ∨ t.kind = .name)
  | binary op t l r => t = .ofOp op t.span ∧ l.Textual ∧ r.Textual

/-- A textual expression in which `=` stands nowhere below the root. -/
structure Expr.Printable (e : Expr) : Prop where
  textual : e.Textual
  equalsOnlyAtRoot : e.EqualsOnlyAtRoot

/-- The expressions that reading, solving and isolating lead to. -/
inductive Expr.Obtained : Expr → Prop where
  | read {limit : Nat} {text : String} {e : Expr} (h : Expr.read limit text = .ok e) : Obtained e
  | solve {limit : Nat} {e s : Expr} {name : String} (he : Obtained e)
      (h : e.solve limit name = .ok s) : Obtained s
  | isolate {limit : Nat} {e s : Expr} {name : String} (he : Obtained e)
      (h : e.isolate limit name = .ok s) : Obtained s

/-! ## What is read -/

theorem Op.eq_lexeme_of_ofLexeme? {lexeme : String} {op : Op} (h : ofLexeme? lexeme = some op) :
    lexeme = op.lexeme := by
  unfold ofLexeme? at h
  split at h <;> cases h <;> rfl

/-- An operator that a text holds has its own token. -/
theorem Token.Lexical.eq_ofOp {t : Token} (h : t.Lexical) {op : Op} (hop : t.op? = some op) :
    t = .ofOp op t.span := by
  have hlexeme : t.lexeme = op.lexeme := by
    unfold Token.op? at hop
    split at hop
    · exact Op.eq_lexeme_of_ofLexeme? hop
    · exact Op.eq_lexeme_of_ofLexeme? hop
    · exact absurd hop (by simp)
  have hkind : t.kind = (Token.ofOp op t.span).kind :=
    h.kind_eq (Token.lexical_ofOp op t.span) hlexeme
  calc t = ⟨t.kind, t.lexeme, t.span⟩ := rfl
    _ = .ofOp op t.span := by rw [hkind, hlexeme]; rfl

/-- The numerals of a digit, which no text needs to hold. -/
theorem Token.lexical_ofNumber {x : Float} (digit : Char) (span : Span)
    (hx : Decimal.shortestText x = String.singleton digit) (hdigit : digit.isDigit = true) :
    (Token.ofNumber x span).Lexical := by
  refine ⟨.whole, rfl, ?_⟩
  show Scanner.State.whole.Reads (Decimal.shortestText x).toList
  rw [hx, String.toList_singleton]
  exact ⟨by simp, by simpa using hdigit⟩

theorem Expr.textual_ofNumber {x : Float} (digit : Char) (span : Span)
    (hx : Decimal.shortestText x = String.singleton digit) (hdigit : digit.isDigit = true) :
    (Expr.ofNumber x span).Textual := ⟨Token.lexical_ofNumber digit span hx hdigit, .inl rfl⟩

/-- The tree that tokens of a text stand for is textual. -/
theorem Parser.Derives.textual {a : Level} {ts : List Token} {e : Expr} (h : Derives a ts e) :
    (∀ t ∈ ts, t.Lexical) → e.Textual := by
  induction h with
  | number hkind => exact fun hts => ⟨hts _ (List.mem_singleton_self _), .inl hkind⟩
  | name hkind => exact fun hts => ⟨hts _ (List.mem_singleton_self _), .inr hkind⟩
  | group _ _ _ ih =>
    intro hts
    exact ih fun t ht => hts t (List.mem_cons_of_mem _ (List.mem_append_left _ ht))
  | negation _ hop _ ih =>
    intro hts
    exact ⟨(hts _ (List.mem_cons_self ..)).eq_ofOp hop,
      Expr.textual_ofNumber '0' _ (by decide +kernel) rfl,
      ih fun t ht => hts t (List.mem_cons_of_mem _ ht)⟩
  | infixed _ hop _ ihl ihr =>
    intro hts
    exact ⟨(hts _ (List.mem_append_right _ (List.mem_cons_self ..))).eq_ofOp hop,
      ihl fun t ht => hts t (List.mem_append_left _ ht),
      ihr fun t ht => hts t (List.mem_append_right _ (List.mem_cons_of_mem _ ht))⟩
  | looser _ _ ih => exact ih

theorem Expr.printable_of_read {limit : Nat} {text : String} {e : Expr}
    (h : Expr.read limit text = .ok e) : e.Printable := by
  obtain ⟨tokens, htokens, hderives, hroot⟩ := derives_of_read h
  exact ⟨hderives.textual (lexical_of_tokenize htokens), hroot⟩

/-! ## What solving makes -/

namespace Expr

/-- What a move adds is textual. -/
theorem keptByMoves_textual : KeptByMoves Textual where
  operands h := h.2
  combine _ _ hl hr := ⟨rfl, hl, hr⟩
  one span := textual_ofNumber '1' span (by decide +kernel) rfl

/-- Both sides of an equation are textual and without `=` after any number of moves. -/
theorem Printable.unwind {limit : Nat} {e : Expr} {name : String} {side : Side} {u : Unwinding}
    (he : e.Printable) (h : e.unwind limit name = .ok (side, u)) :
    (u.current.Textual ∧ u.current.firstEquals? = none) ∧
      u.opposite.Textual ∧ u.opposite.firstEquals? = none := by
  obtain ⟨a, happroach, -⟩ := unwind_ok h
  obtain ⟨t, l, r, rfl, -⟩ := approach_ok happroach
  obtain ⟨-, hl, hr⟩ := he.textual
  obtain ⟨hl_none, hr_none⟩ := equalsOnlyAtRoot_binary_iff.1 he.equalsOnlyAtRoot
  exact (keptByMoves_textual.and keptByMoves_firstEquals?).unwind ⟨hl, hl_none⟩ ⟨hr, hr_none⟩ h

/-- A solution is printable. -/
theorem Printable.solve {limit : Nat} {e s : Expr} {name : String} (he : e.Printable)
    (h : e.solve limit name = .ok s) : s.Printable := by
  obtain ⟨⟨side, u⟩, hunwind, rfl⟩ := map_eq_ok_iff.1 h
  obtain ⟨-, htextual, hnone⟩ := he.unwind hunwind
  exact ⟨htextual, .of_firstEquals? hnone⟩

/-- An equation of printable sides is printable. -/
theorem printable_equation {t : Token} {l r : Expr} (ht : t = .ofOp .equals t.span)
    (hl : l.Textual) (hr : r.Textual) (hl_none : l.firstEquals? = none)
    (hr_none : r.firstEquals? = none) : (binary .equals t l r).Printable :=
  ⟨⟨ht, hl, hr⟩, equalsOnlyAtRoot_binary_iff.2 ⟨hl_none, hr_none⟩⟩

/-- An equation with a variable isolated is printable. -/
theorem Printable.isolate {limit : Nat} {e s : Expr} {name : String} (he : e.Printable)
    (h : e.isolate limit name = .ok s) : s.Printable := by
  obtain ⟨⟨side, u⟩, hunwind, rfl⟩ := map_eq_ok_iff.1 h
  obtain ⟨⟨hcurrent, hcurrent_none⟩, hopposite, hopposite_none⟩ := he.unwind hunwind
  obtain ⟨a, happroach, -⟩ := unwind_ok hunwind
  obtain ⟨t, l, r, rfl, -⟩ := approach_ok happroach
  have ht : t = .ofOp .equals t.span := he.textual.1
  cases side with
  | left => exact printable_equation ht hcurrent hopposite hcurrent_none hopposite_none
  | right => exact printable_equation ht hopposite hcurrent hopposite_none hcurrent_none

/-- **Whatever reading, solving and isolating lead to is printable.** -/
theorem Obtained.printable {e : Expr} (h : e.Obtained) : e.Printable := by
  induction h with
  | read h => exact printable_of_read h
  | solve _ h ih => exact ih.solve h
  | isolate _ h ih => exact ih.isolate h

/-- A textual expression is legible. -/
theorem Textual.legible {e : Expr} (h : e.Textual) : e.Legible := by
  induction e with
  | leaf t =>
    obtain ⟨hlexical, hkind⟩ := h
    rcases hkind with hkind | hkind
    · exact hlexical.isOperand_of_number hkind
    · exact hlexical.isOperand_of_name hkind
  | binary op t l r ihl ihr =>
    obtain ⟨ht, hl, hr⟩ := h
    refine ⟨?_, ihl hl, ihr hr⟩
    rw [ht]
    exact Token.op?_ofOp op t.span

/-- Whatever reading, solving and isolating lead to is well formed. -/
theorem Obtained.wellFormed {e : Expr} (h : e.Obtained) : e.WellFormed :=
  ⟨h.printable.textual.legible, h.printable.equalsOnlyAtRoot⟩

end Expr

end EquationNetwork
