import EquationNetwork.Proofs.Expr.Printable
import EquationNetwork.Proofs.Token.Rescanning

/-!
# Reading what was printed

The text of an expression has brackets around every operation, so reading it needs no precedence;
what it needs is room: an operation takes two levels of nesting, one for its bracket and one for its
right operand.

* `Expr.unplaced` — the expression, whatever the places of its tokens.
* `Parser.Spells`, `Parser.SpellsText` — the tokens of a formula with all its brackets, and those of
  a text.
* `Parser.SpellsText.parse` — **the parser** reads such tokens within two levels for each operation.
* `Expr.Textual.yields` — **the scanner** finds such tokens in the text of a formula.
* `Expr.read_text` — **reading undoes printing.**
-/

namespace EquationNetwork

/-! ## Whatever the places -/

namespace Token

/-- The token without its place. -/
def unplaced (t : Token) : Token := { t with span := ⟨0, 0⟩ }

@[simp] theorem lexeme_unplaced (t : Token) : t.unplaced.lexeme = t.lexeme := rfl

/-- What a token stands for does not depend on its place. -/
@[simp] theorem value?_unplaced (t : Token) : t.unplaced.value? = t.value? := rfl

@[simp] theorem isVariable_unplaced (t : Token) : t.unplaced.isVariable = t.isVariable := rfl

end Token

namespace Expr

/-- The expression without the places of its tokens. -/
def unplaced : Expr → Expr
  | leaf t => leaf t.unplaced
  | binary op t l r => binary op t.unplaced l.unplaced r.unplaced

@[simp] theorem depth_unplaced (e : Expr) : e.unplaced.depth = e.depth := by
  induction e with
  | leaf t => rfl
  | binary op t l r ihl ihr => simp only [unplaced, depth, ihl, ihr]

@[simp] theorem leaves_unplaced (e : Expr) : e.unplaced.leaves = e.leaves.map Token.unplaced := by
  induction e with
  | leaf t => rfl
  | binary op t l r ihl ihr => simp only [unplaced, leaves, ihl, ihr, List.map_append]

@[simp] theorem variableNames_unplaced (e : Expr) : e.unplaced.variableNames = e.variableNames := by
  simp [variableNames, List.filter_map, Function.comp_def]

@[simp] theorem pathOf?_unplaced (e : Expr) (name : String) :
    e.unplaced.pathOf? name = e.pathOf? name := by
  unfold pathOf?
  induction e with
  | leaf t => rfl
  | binary op t l r ihl ihr =>
    rw [unplaced, firstPath?, firstPath?, ihl, ihr]
    rfl

end Expr

/-! ## The parser -/

theorem Op.power_pos (op : Op) : 0 < op.power := by cases op <;> decide

namespace Parser

/-- The tokens are those of a formula, with brackets around every operation. -/
inductive Spells : List Token → Expr → Prop where
  | leaf {t : Token} (h : t.kind = .number ∨ t.kind = .name) : Spells [t] (.leaf t)
  | operation {op : Op} {opener closer t : Token} {ls rs : List Token} {l r : Expr}
      (ho : opener.isOpening = true) (hc : closer.closes opener = true) (ht : t.op? = some op)
      (hne : op ≠ .equals) (hl : Spells ls l) (hr : Spells rs r) :
      Spells (opener :: (ls ++ t :: (rs ++ [closer]))) (.binary op t l r)

theorem Spells.firstEquals? {ts : List Token} {e : Expr} (h : Spells ts e) :
    e.firstEquals? = none := by
  induction h with
  | leaf h => rfl
  | operation _ _ _ hne _ _ ihl ihr => exact Expr.firstEquals?_binary_eq_none_iff.2 ⟨hne, ihl, ihr⟩

theorem step_opening {limit : Nat} {stack : List Frame} {t : Token} (ht : t.isOpening = true)
    (hlimit : stack.length ≤ limit) :
    step limit (.operand stack) t = .ok (.operand (.group t :: stack)) := by
  have hkind : t.kind = .bracket := by
    simp only [Token.isOpening, Bool.and_eq_true, beq_iff_eq] at ht
    exact ht.1
  simp only [step, takeOperand, if_neg (Nat.not_lt.2 hlimit), hkind, ht, if_true]

theorem step_leaf {limit : Nat} {stack : List Frame} {t : Token}
    (ht : t.kind = .number ∨ t.kind = .name) (hlimit : stack.length ≤ limit) :
    step limit (.operand stack) t = .ok (.operator stack ⟨.leaf t, 0⟩) := by
  rcases ht with ht | ht <;> simp only [step, takeOperand, if_neg (Nat.not_lt.2 hlimit), ht]

/-- A closing bracket joins the operands of the operation that it closes. -/
theorem step_closing {limit : Nat} {stack : List Frame} {opener t token : Token} {op : Op}
    {left right : Operand} (hc : t.closes opener = true)
    (hlimit : 1 + max left.levels right.levels ≤ limit) :
    step limit (.operator (.infixed left op token :: .group opener :: stack) right) t =
      .ok (.operator stack
        ⟨.binary op token left.tree right.tree, 1 + max left.levels right.levels⟩) := by
  have hnone : ∀ power, opAbove? power t = none := fun power => by
    simp [opAbove?, op?_of_closes hc]
  rw [step, takeOperator, hnone]
  simp only [join, if_neg (Nat.not_lt.2 hlimit)]
  rw [takeOperator, hnone]
  simp only [hc, if_true]

/-- The tokens of a formula are read under any frames, if there is room for two more for each level
of operations. -/
theorem Spells.foldlM {limit : Nat} {ts : List Token} {e : Expr} (h : Spells ts e) :
    ∀ stack : List Frame, stack.length + 2 * (e.depth - 1) ≤ limit →
      ts.foldlM (step limit) (.operand stack) = .ok (.operator stack ⟨e, e.depth - 1⟩) := by
  induction h with
  | leaf h =>
    intro stack hlimit
    exact foldlM_step_cons [] (step_leaf h (by omega))
  | @operation op opener closer t ls rs l r ho hc ht hne _ _ ihl ihr =>
    intro stack hlimit
    have hl_pos := l.depth_pos
    have hr_pos := r.depth_pos
    simp only [Expr.depth] at hlimit ⊢
    -- The left operand stands under one more frame, the bracket, and the right one under two.
    have hopen : step limit (.operand stack) opener = .ok (.operand (.group opener :: stack)) :=
      step_opening ho (by omega)
    have hleft := ihl (.group opener :: stack) (by simp only [List.length_cons]; omega)
    have hop : step limit (.operator (.group opener :: stack) ⟨l, l.depth - 1⟩) t =
        .ok (.operand (.infixed ⟨l, l.depth - 1⟩ op t :: .group opener :: stack)) :=
      takeOperator_of_opAbove? (opAbove?_eq_some_iff.2 ⟨ht, op.power_pos⟩)
    have hright := ihr (.infixed ⟨l, l.depth - 1⟩ op t :: .group opener :: stack)
      (by simp only [List.length_cons]; omega)
    rw [foldlM_step_cons _ hopen, foldlM_step_append _ hleft, foldlM_step_cons _ hop,
      foldlM_step_append _ hright, foldlM_step_cons _ (step_closing hc (by simp only; omega))]
    have hlevels : 1 + max (l.depth - 1) (r.depth - 1) = 1 + max l.depth r.depth - 1 := by omega
    simp only [hlevels]
    rfl

/-- The tokens are those of a text: of a formula, or of two formulas with `=` between them. -/
inductive SpellsText : List Token → Expr → Prop where
  | formula {ts : List Token} {e : Expr} (h : Spells ts e) : SpellsText ts e
  | equation {t : Token} {ls rs : List Token} {l r : Expr} (ht : t.op? = some .equals)
      (hl : Spells ls l) (hr : Spells rs r) : SpellsText (ls ++ t :: rs) (.binary .equals t l r)

theorem SpellsText.equalsOnlyAtRoot {ts : List Token} {e : Expr} (h : SpellsText ts e) :
    e.EqualsOnlyAtRoot := by
  cases h with
  | formula h => exact .of_firstEquals? h.firstEquals?
  | equation _ hl hr =>
    exact Expr.equalsOnlyAtRoot_binary_iff.2 ⟨hl.firstEquals?, hr.firstEquals?⟩

theorem SpellsText.run {limit : Nat} {ts : List Token} {e : Expr} (h : SpellsText ts e)
    (hlimit : 2 * (e.depth - 1) ≤ limit) : run limit ts = .ok e := by
  cases h with
  | formula h =>
    rw [Parser.run, h.foldlM [] (by simpa using hlimit)]
    rfl
  | @equation t ls rs l r ht hl hr =>
    have hl_pos := l.depth_pos
    have hr_pos := r.depth_pos
    simp only [Expr.depth] at hlimit
    have hleft : ls.foldlM (step limit) (.operand []) = .ok (.operator [] ⟨l, l.depth - 1⟩) :=
      hl.foldlM [] (by simp only [List.length_nil]; omega)
    have hop : step limit (.operator [] ⟨l, l.depth - 1⟩) t =
        .ok (.operand [.infixed ⟨l, l.depth - 1⟩ .equals t]) :=
      takeOperator_of_opAbove? (opAbove?_eq_some_iff.2 ⟨ht, Op.power_pos .equals⟩)
    have hright : rs.foldlM (step limit) (.operand [.infixed ⟨l, l.depth - 1⟩ .equals t]) =
        .ok (.operator [.infixed ⟨l, l.depth - 1⟩ .equals t] ⟨r, r.depth - 1⟩) :=
      hr.foldlM _ (by simp only [List.length_singleton]; omega)
    have hfits : ¬ limit < 1 + max (l.depth - 1) (r.depth - 1) := by omega
    rw [Parser.run, foldlM_step_append _ hleft, foldlM_step_cons _ hop, hright]
    simp only [bind, Except.bind, finish, closeAll, join, if_neg hfits]

/-- **The parser** reads the tokens of a text within two levels for each operation. -/
theorem SpellsText.parse {limit : Nat} {ts : List Token} {e : Expr} (h : SpellsText ts e)
    (hlimit : 2 * (e.depth - 1) ≤ limit) : Expr.parse limit ts = .ok e := by
  rcases parse_of_run (h.run hlimit) with ⟨-, hparse⟩ | ⟨hroot, -⟩
  · exact hparse
  · exact absurd h.equalsOnlyAtRoot hroot

end Parser

/-! ## The scanner -/

namespace Token

theorem lexical_bracket {c : Char} (h : Scanner.isBracket c = true) (span : Span) :
    (⟨.bracket, String.singleton c, span⟩ : Token).Lexical :=
  ⟨.bracket, rfl, c, String.toList_singleton c, h⟩

end Token

namespace Scanner

/-- An operator between blanks yields its own token. -/
theorem yields_op (op : Op) (position : Nat) (rest : List Char) :
    ∃ span position', Yields position ([' '] ++ (op.lexeme.toList ++ [' '])) rest position'
      [.ofOp op span] := by
  have hrest : ∀ c ∈ (' ' :: rest).head?, Separates c := by simp [Separates]
  obtain ⟨span, position', h⟩ := yields_token (Token.lexical_ofOp op ⟨0, 0⟩)
    (position + 1) (.inr hrest)
  exact ⟨span, position' + 1,
    (yields_blank position _).trans (Yields.trans h (yields_blank position' rest))⟩

/-- A bracket yields a token of its own. -/
theorem yields_bracket {c : Char} (h : isBracket c = true) (position : Nat) (rest : List Char) :
    ∃ span position', Yields position [c] rest position'
      [⟨.bracket, String.singleton c, span⟩] := by
  simpa using yields_token (Token.lexical_bracket h ⟨0, 0⟩) position (.inl rfl)

theorem tokenize_of_yields {text : String} {position : Nat} {tokens : List Token}
    (h : Yields 0 text.toList [] position tokens) : tokenize text = .ok tokens := by
  have hscan : scan text = ⟨tokens, none⟩ := by
    rw [scan, ← List.append_nil text.toList, h]
    simp [scanFrom, Scan.prepend]
  rw [tokenize, hscan]

end Scanner

namespace Expr

open Scanner

theorem toList_text_operation {op : Op} (h : op ≠ .equals) (t : Token) (l r : Expr) :
    (binary op t l r).text.toList = ['('] ++ (l.text.toList ++
      (([' '] ++ (op.lexeme.toList ++ [' '])) ++ (r.text.toList ++ [')']))) := by
  cases op with
  | equals => exact absurd rfl h
  | _ => simp [text, Op.lexeme, Op.symbol]

theorem toList_text_equation (t : Token) (l r : Expr) :
    (binary .equals t l r).text.toList =
      l.text.toList ++ (([' '] ++ (Op.equals.lexeme.toList ++ [' '])) ++ r.text.toList) := by
  simp [text, Op.lexeme, Op.symbol]

/-- **The scanner** finds the tokens of a formula in its text, whatever separates it from the
rest. -/
theorem Textual.yields {e : Expr} (he : e.Textual) (hnone : e.firstEquals? = none) :
    ∀ (position : Nat) (rest : List Char), (∀ c ∈ rest.head?, Separates c) →
      ∃ position' ts e', Yields position e.text.toList rest position' ts ∧ Parser.Spells ts e' ∧
        e'.unplaced = e.unplaced := by
  induction e with
  | leaf t =>
    intro position rest hrest
    obtain ⟨hlexical, hkind⟩ := he
    obtain ⟨span, position', h⟩ := yields_token hlexical position (.inr hrest)
    exact ⟨position', [{ t with span := span }], _, h, .leaf hkind, rfl⟩
  | binary op t l r ihl ihr =>
    intro position rest _
    obtain ⟨ht, hl, hr⟩ := he
    obtain ⟨hne, hl_none, hr_none⟩ := firstEquals?_binary_eq_none_iff.1 hnone
    obtain ⟨s₁, p₁, hopen⟩ := yields_bracket (c := '(') rfl position _
    obtain ⟨p₂, ls, l', hleft, hls, hl'⟩ := ihl hl hl_none p₁
      (([' '] ++ (op.lexeme.toList ++ [' ']) ++ (r.text.toList ++ [')'])) ++ rest)
      (by simp [Separates])
    obtain ⟨s₃, p₃, hop⟩ := yields_op op p₂ _
    obtain ⟨p₄, rs, r', hright, hrs, hr'⟩ := ihr hr hr_none p₃ ([')'] ++ rest)
      (by simp [Separates])
    obtain ⟨s₅, p₅, hclose⟩ := yields_bracket (c := ')') rfl p₄ rest
    let opener : Token := ⟨.bracket, "(", s₁⟩
    let closer : Token := ⟨.bracket, ")", s₅⟩
    have hyields : Yields position (binary op t l r).text.toList rest p₅
        (opener :: (ls ++ .ofOp op s₃ :: (rs ++ [closer]))) := by
      rw [toList_text_operation hne]
      exact hopen.trans (hleft.trans (hop.trans (hright.trans hclose)))
    refine ⟨p₅, _, .binary op (.ofOp op s₃) l' r', hyields,
      .operation rfl rfl (Token.op?_ofOp op s₃) hne hls hrs, ?_⟩
    rw [unplaced, unplaced, hl', hr', ht]
    rfl

/-- The text of a printable expression yields the tokens of a text. -/
theorem Printable.tokenize {e : Expr} (he : e.Printable) :
    ∃ ts e', tokenize e.text = .ok ts ∧ Parser.SpellsText ts e' ∧ e'.unplaced = e.unplaced := by
  cases e with
  | leaf t =>
    obtain ⟨p, ts, e', hyields, hts, he'⟩ := he.textual.yields rfl 0 [] (by simp)
    exact ⟨ts, e', tokenize_of_yields hyields, .formula hts, he'⟩
  | binary op t l r =>
    obtain ⟨ht, hl, hr⟩ := he.textual
    obtain ⟨hl_none, hr_none⟩ := equalsOnlyAtRoot_binary_iff.1 he.equalsOnlyAtRoot
    by_cases hop : op = .equals
    · subst hop
      obtain ⟨p₁, ls, l', hleft, hls, hl'⟩ := hl.yields hl_none 0
        ([' '] ++ (Op.equals.lexeme.toList ++ [' ']) ++ r.text.toList ++ []) (by simp [Separates])
      obtain ⟨s, p₂, hmiddle⟩ := yields_op .equals p₁ (r.text.toList ++ [])
      obtain ⟨p₃, rs, r', hright, hrs, hr'⟩ := hr.yields hr_none p₂ [] (by simp)
      have hyields : Yields 0 (binary .equals t l r).text.toList [] p₃
          (ls ++ .ofOp .equals s :: rs) := by
        rw [toList_text_equation]
        exact hleft.trans (hmiddle.trans hright)
      refine ⟨_, .binary .equals (.ofOp .equals s) l' r', tokenize_of_yields hyields,
        .equation (Token.op?_ofOp .equals s) hls hrs, ?_⟩
      rw [unplaced, unplaced, hl', hr', ht]
      rfl
    · obtain ⟨p, ts, e', hyields, hts, he'⟩ := he.textual.yields
        (firstEquals?_binary_eq_none_iff.2 ⟨hop, hl_none, hr_none⟩) 0 [] (by simp)
      exact ⟨ts, e', tokenize_of_yields hyields, .formula hts, he'⟩

/-! ## Reading what was printed -/

/-- Expressions that differ only in the places of their tokens have the same leaves, up to their
places. -/
theorem map_leaves_of_unplaced {α : Type} {f : Token → α} (hf : ∀ t, f t.unplaced = f t)
    {e e' : Expr} (h : e'.unplaced = e.unplaced) : e'.leaves.map f = e.leaves.map f := by
  have hmap : ∀ d : Expr, d.leaves.map f = d.unplaced.leaves.map f := fun d => by
    simp [Function.comp_def, hf]
  rw [hmap e', hmap e, h]

/-- **Reading undoes printing.**  The text of an expression that reading, solving and isolating lead
to is read as the same expression, up to the places of the tokens: the same shape, operators, kinds,
lexemes, numbers, variables and paths.  A limit of two levels for each level of operations is
enough. -/
theorem read_text {e : Expr} (he : e.Obtained) {limit : Nat} (hlimit : 2 * (e.depth - 1) ≤ limit) :
    ∃ e', read limit e.text = .ok e' ∧ e'.unplaced = e.unplaced ∧
      e'.leaves.map Token.value? = e.leaves.map Token.value? ∧
      e'.variableNames = e.variableNames ∧ ∀ name, e'.pathOf? name = e.pathOf? name := by
  obtain ⟨ts, e', htokens, hts, hsame⟩ := he.printable.tokenize
  have hdepth : e'.depth = e.depth := by rw [← depth_unplaced e', hsame, depth_unplaced]
  refine ⟨e', ?_, hsame, map_leaves_of_unplaced Token.value?_unplaced hsame, ?_, fun name => ?_⟩
  · have hparse : parse limit ts = .ok e' := hts.parse (hdepth ▸ hlimit)
    rw [read, htokens]
    simp only [hparse]
    rfl
  · rw [← variableNames_unplaced e', hsame, variableNames_unplaced]
  · rw [← pathOf?_unplaced e', hsame, pathOf?_unplaced]

/-- The zero of a minus sign and the brackets that solving adds are read again. -/
theorem read_text_solution :
    ∃ e s, read 3 "x / (b - c) = -a" = .ok e ∧ e.solve 2 "x" = .ok s ∧
      s.text = "((0 - a) * (b - c))" ∧ 2 * (s.depth - 1) = 4 ∧
      ∃ s', read 4 s.text = .ok s' ∧ s'.unplaced = s.unplaced ∧
        s'.leaves.map Token.value? = s.leaves.map Token.value? ∧
        s'.variableNames = s.variableNames ∧ ∀ name, s'.pathOf? name = s.pathOf? name := by
  let difference : Expr :=
    .binary .sub ⟨.operator, "-", ⟨8, 8⟩⟩ (.leaf ⟨.name, "b", ⟨6, 6⟩⟩)
      (.leaf ⟨.name, "c", ⟨10, 10⟩⟩)
  let negated : Expr :=
    .binary .sub ⟨.operator, "-", ⟨15, 15⟩⟩ (.leaf ⟨.number, "0", ⟨15, 15⟩⟩)
      (.leaf ⟨.name, "a", ⟨16, 16⟩⟩)
  let e : Expr :=
    .binary .equals ⟨.equals, "=", ⟨13, 13⟩⟩
      (.binary .div ⟨.operator, "/", ⟨3, 3⟩⟩ (.leaf ⟨.name, "x", ⟨1, 1⟩⟩) difference) negated
  let s : Expr := .combine .mul negated difference ⟨3, 3⟩
  have hread : read 3 "x / (b - c) = -a" = .ok e := by decide +kernel
  have hsolve : e.solve 2 "x" = .ok s := by decide +kernel
  exact ⟨e, s, hread, hsolve, by decide +kernel, by decide,
    read_text (.solve (.read hread) hsolve) (by decide)⟩

/-- Two levels for each level of operations are needed on the right. -/
example : read 3 "((0 - a) * (b - c))" = .error (.parse (.nestingTooDeep 3 ⟨17, 17⟩)) := by
  decide +kernel

end Expr

end EquationNetwork
