import EquationNetwork.Expr.Traversal
import EquationNetwork.Proofs.Expr.RoundTrip
import EquationNetwork.Proofs.Token.Patterns

/-!
# Outlines

An outline lists the nodes of a tree with the lexeme of each, and nothing that says what belongs to
what but the order of its lines.  From its last line to its first it is a postfix notation, so that a
stack of finished trees is enough to read it.

* `Expr.mirror` — the tree with the operands of every operation exchanged.  `walkFrom_mirror` — it
  is walked from the root down as the tree itself is walked back from its last node.
* `lineLexeme_outlineLine` — no lexeme starts with `#`, so a line gives it back.
* `Expr.addLine`, `Expr.ofOutline?` — reading an outline, a line at a time.
* `foldl_addLine_walkFrom` — the lines of a tree put that tree on the stack.
* `outline_eq_iff` — **an outline determines its tree.**
-/

namespace EquationNetwork

namespace Expr

/-! ## The mirrored tree -/

/-- The tree with the operands of every operation exchanged. -/
def mirror : Expr → Expr
  | leaf t => leaf t
  | binary op t l r => binary op t r.mirror l.mirror

@[simp] theorem token_mirror (e : Expr) : e.mirror.token = e.token := by
  cases e <;> rfl

@[simp] theorem outlineLine_mirror (e : Expr) (d : Nat) :
    outlineLine (e.mirror, d) = outlineLine (e, d) := by
  simp [outlineLine, lexeme]

/-- From the root down the mirrored tree is walked as the tree is walked back. -/
theorem walkFrom_mirror (e : Expr) (d : Nat) :
    e.mirror.walkFrom .before d = ((e.walkFrom .after d).map fun v => (v.1.mirror, v.2)).reverse := by
  induction e generalizing d with
  | leaf t => rfl
  | binary op t l r ihl ihr => simp [mirror, walkFrom, ihl, ihr]

/-- An outline goes through the mirrored tree from the root down. -/
theorem outline_eq (e : Expr) : e.outline = (e.mirror.walk .before).map outlineLine := by
  rw [outline, walk, walk, walkFrom_mirror, List.map_reverse, List.map_map]
  simp [Function.comp_def]

end Expr

/-! ## Lines -/

/-- No lexeme has a `#`. -/
theorem Token.Lexical.hash_notMem {t : Token} (h : t.Lexical) : '#' ∉ t.lexeme.toList := by
  obtain ⟨s, hs, hreads⟩ := h
  intro hmem
  cases s with
  | start => exact absurd hs (by simp [Scanner.State.kind?])
  | name =>
    obtain ⟨c, rest, hlexeme, hletter, hrest⟩ := hreads
    rcases List.mem_cons.1 (hlexeme ▸ hmem) with rfl | hmem
    · exact absurd hletter (by decide)
    · exact absurd (hrest _ hmem) (by decide)
  | operator | bracket =>
    obtain ⟨c, hlexeme, hc⟩ := hreads
    obtain rfl := List.mem_singleton.1 (hlexeme ▸ hmem)
    exact absurd hc (by decide)
  | equals =>
    have hlexeme : t.lexeme.toList = ['='] := hreads
    exact absurd (hlexeme ▸ hmem) (by decide)
  | whole => exact absurd (hreads.2 _ hmem) (by decide)
  | point =>
    obtain ⟨whole, hlexeme, hwhole⟩ := hreads
    rcases List.mem_append.1 (hlexeme ▸ hmem) with hmem | hmem
    · exact absurd (hwhole _ hmem) (by decide)
    · exact absurd hmem (by decide)
  | fraction =>
    obtain ⟨whole, fraction, hlexeme, -, hwhole, hfraction⟩ := hreads
    rcases List.mem_append.1 (hlexeme ▸ hmem) with hmem | hmem
    · exact absurd (hwhole _ hmem) (by decide)
    · rcases List.mem_cons.1 hmem with hpoint | hmem
      · exact absurd hpoint (by decide)
      · exact absurd (hfraction _ hmem) (by decide)
  | malformed => exact absurd (hreads.1 _ hmem) (by decide)

namespace Expr

/-- The lexeme of a line. -/
def lineLexeme (line : String) : String := String.ofList (line.toList.dropWhile (· == '#'))

/-- A line gives back the lexeme of its node. -/
theorem lineLexeme_outlineLine {v : Visit} (h : v.1.token.Lexical) :
    lineLexeme (outlineLine v) = v.1.lexeme := by
  have hlexeme : v.1.lexeme.toList.dropWhile (· == '#') = v.1.lexeme.toList := by
    rw [List.dropWhile_eq_self_iff]
    intro hpos hhash
    exact h.hash_notMem (beq_iff_eq.1 hhash ▸ List.getElem_mem hpos)
  have hdepth : ∀ c ∈ List.replicate v.2 '#', (c == '#') = true := by simp
  rw [lineLexeme, outlineLine, String.toList_append, String.toList_ofList,
    List.dropWhile_append_of_pos hdepth, hlexeme, String.ofList_toList]

/-! ## Reading an outline -/

/-- The leaf with a lexeme. -/
def leafOf (lexeme : String) : Expr :=
  leaf ⟨if (Decimal.numeral? lexeme).isSome then .number else .name, lexeme, ⟨0, 0⟩⟩

/-- Puts the node of a line on the stack of the trees that have been read; an operator takes its
operands from there. -/
def addLine (stack : List Expr) (line : String) : List Expr :=
  match Op.ofLexeme? (lineLexeme line), stack with
  | some op, r :: l :: rest => binary op (.ofOp op ⟨0, 0⟩) l r :: rest
  | _, _ => leafOf (lineLexeme line) :: stack

/-- The tree of an outline, which is read from its last line to its first. -/
def ofOutline? (lines : List String) : Option Expr := (lines.reverse.foldl addLine []).head?

/-- The kind of an operand can be told from its lexeme. -/
theorem leafOf_lexeme {t : Token} (h : t.Lexical) (hkind : t.kind = .number ∨ t.kind = .name) :
    leafOf t.lexeme = leaf t.unplaced := by
  have hnumber := h.isSome_value?_iff
  rw [Token.value?_eq_numeral? hkind] at hnumber
  rw [leafOf, Token.unplaced]
  rcases hkind with hkind | hkind <;> simp [hnumber, hkind]

/-- No operand has the lexeme of an operator. -/
theorem ofLexeme?_operand {t : Token} (h : t.Lexical)
    (hkind : t.kind = .number ∨ t.kind = .name) : Op.ofLexeme? t.lexeme = none := by
  rw [Option.eq_none_iff_forall_ne_some]
  intro op hop
  have hmem : t.lexeme.toList ∈ t.kind.pattern := (h.kind_iff t.kind).1 rfl
  rw [Op.eq_lexeme_of_ofLexeme? hop, Op.lexeme_mem_pattern_iff] at hmem
  rcases hkind with hkind | hkind <;> rw [hkind] at hmem <;> cases op <;> cases hmem

theorem addLine_leaf {t : Token} (h : t.Lexical) (hkind : t.kind = .number ∨ t.kind = .name)
    (d : Nat) (stack : List Expr) :
    addLine stack (outlineLine (leaf t, d)) = (leaf t).unplaced :: stack := by
  have hline : lineLexeme (outlineLine (leaf t, d)) = t.lexeme :=
    lineLexeme_outlineLine (v := (leaf t, d)) h
  simp only [addLine, hline, ofLexeme?_operand h hkind, leafOf_lexeme h hkind, unplaced]

theorem addLine_binary {op : Op} {t : Token} (ht : t = .ofOp op t.span) (l r : Expr) (d : Nat)
    (stack : List Expr) :
    addLine (r.unplaced :: l.unplaced :: stack) (outlineLine (binary op t l r, d)) =
      (binary op t l r).unplaced :: stack := by
  have hlexical : t.Lexical := ht ▸ Token.lexical_ofOp op t.span
  have hline : lineLexeme (outlineLine (binary op t l r, d)) = op.lexeme :=
    (lineLexeme_outlineLine (v := (binary op t l r, d)) hlexical).trans (congrArg Token.lexeme ht)
  have hplace : t.unplaced = .ofOp op ⟨0, 0⟩ := by rw [ht]; rfl
  simp only [addLine, hline, Op.ofLexeme?_lexeme, unplaced, hplace]

/-- **The lines of a tree** put that tree on the stack, whatever is on it. -/
theorem foldl_addLine_walkFrom {e : Expr} (he : e.Textual) (d : Nat) (stack : List Expr) :
    ((e.walkFrom .after d).map outlineLine).foldl addLine stack = e.unplaced :: stack := by
  induction e generalizing d stack with
  | leaf t => exact addLine_leaf he.1 he.2 d stack
  | binary op t l r ihl ihr =>
    obtain ⟨ht, hl, hr⟩ := he
    simp only [walkFrom, List.map_append, List.foldl_append, ihl hl, ihr hr, List.map_cons,
      List.map_nil, List.foldl_cons, List.foldl_nil]
    exact addLine_binary ht l r d stack

/-- Reading undoes writing. -/
theorem Textual.ofOutline?_outline {e : Expr} (he : e.Textual) :
    ofOutline? e.outline = some e.unplaced := by
  rw [ofOutline?, outline, List.reverse_reverse, walk, foldl_addLine_walkFrom he, List.head?_cons]

/-- An outline does not depend on the places of the tokens. -/
theorem outline_unplaced (e : Expr) : e.unplaced.outline = e.outline := by
  suffices h : ∀ d, (e.unplaced.walkFrom .after d).map outlineLine =
      (e.walkFrom .after d).map outlineLine by
    rw [outline, outline, walk, walk, h]
  induction e with
  | leaf t => exact fun _ => rfl
  | binary op t l r ihl ihr =>
    intro d
    simp only [unplaced, walkFrom, List.map_append, ihl, ihr]
    rfl

/-- **An outline determines its tree.**  The lines are those of the mirrored tree from the root down,
each with as many `#` as the depth of its node, which is 1 at the root, before the lexeme; and two
expressions that reading, solving and isolating lead to have the same outline only if they are the
same, up to the places of their tokens. -/
theorem outline_determines :
    (∀ e : Expr, e.outline = (e.mirror.walk .before).map fun (node, d) =>
        String.ofList (List.replicate d '#') ++ node.lexeme) ∧
      ∀ e e' : Expr, e.Obtained → e'.Obtained →
        (e.outline = e'.outline ↔ e.unplaced = e'.unplaced) := by
  refine ⟨outline_eq, fun e e' he he' => ⟨fun h => ?_, fun h => ?_⟩⟩
  · have hread := he.printable.textual.ofOutline?_outline
    rw [h, he'.printable.textual.ofOutline?_outline] at hread
    exact (Option.some.inj hread).symm
  · rw [← outline_unplaced e, h, outline_unplaced]

/-- A solution has the outline of a text that says the same elsewhere. -/
theorem outline_determines_solution :
    ∃ e s e', read 3 "a + b = c" = .ok e ∧ e.solve 2 "a" = .ok s ∧ read 2 "c-b" = .ok e' ∧
      s.outline = ["#-", "##b", "##c"] ∧ e'.outline = s.outline ∧ e' ≠ s ∧
      e'.unplaced = s.unplaced := by
  let e : Expr :=
    .binary .equals ⟨.equals, "=", ⟨7, 7⟩⟩
      (.binary .add ⟨.operator, "+", ⟨3, 3⟩⟩ (.leaf ⟨.name, "a", ⟨1, 1⟩⟩)
        (.leaf ⟨.name, "b", ⟨5, 5⟩⟩))
      (.leaf ⟨.name, "c", ⟨9, 9⟩⟩)
  let s : Expr :=
    .combine .sub (.leaf ⟨.name, "c", ⟨9, 9⟩⟩) (.leaf ⟨.name, "b", ⟨5, 5⟩⟩) ⟨3, 3⟩
  let e' : Expr :=
    .binary .sub ⟨.operator, "-", ⟨2, 2⟩⟩ (.leaf ⟨.name, "c", ⟨1, 1⟩⟩)
      (.leaf ⟨.name, "b", ⟨3, 3⟩⟩)
  have hread : read 3 "a + b = c" = .ok e := by decide +kernel
  have hsolve : e.solve 2 "a" = .ok s := by decide +kernel
  have hread' : read 2 "c-b" = .ok e' := by decide +kernel
  have houtline : e'.outline = s.outline := by decide +kernel
  exact ⟨e, s, e', hread, hsolve, hread', by decide +kernel, houtline, by decide +kernel,
    (outline_determines.2 e' s (.read hread') (.solve (.read hread) hsolve)).1 houtline⟩

end Expr

end EquationNetwork
