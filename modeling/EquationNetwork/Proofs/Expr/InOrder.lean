import EquationNetwork.Expr.Traversal
import EquationNetwork.Proofs.Expr.WellFormed
import EquationNetwork.Proofs.Token.Brackets
import EquationNetwork.Proofs.Token.Segmentation

/-!
# Reading an expression from left to right

The tree that is made of tokens still has them in their order: walking through it from left to right,
with every operator between its operands, goes through the tokens again.  Only the brackets are gone,
and every minus sign in front of an operand has got a zero to subtract from.

* `Expr.inOrder` — the nodes in the order of the walk, and `Expr.zero?` — the zero of a minus sign.
* `Expr.written` — the tokens of the walk without the zeros, an operation at a time
  (`written_negation`, `written_operation`).
* `signs` — the minus signs that have no operand before them.
* `TextTokens` — what the tokens of a text have and lists of tokens may lack.
* `Derives.written_eq`, `Derives.signs_eq` — what a derivation makes of its tokens.
* `written_of_parse` — **no token is lost, doubled or moved**, and there is one zero for each sign.
-/

namespace EquationNetwork

namespace Expr

/-! ## The walk -/

/-- The nodes from left to right, every operator between its operands. -/
def inOrder (e : Expr) : List Expr := (e.walk .between).map Prod.fst

theorem map_fst_walkFrom (e : Expr) (depth depth' : Nat) :
    (e.walkFrom .between depth).map Prod.fst = (e.walkFrom .between depth').map Prod.fst := by
  induction e generalizing depth depth' with
  | leaf t => rfl
  | binary op t l r ihl ihr =>
    simp only [walkFrom, List.map_append, List.map_cons]
    rw [ihl (depth + 1) (depth' + 1), ihr (depth + 1) (depth' + 1)]

@[simp] theorem inOrder_leaf (t : Token) : (leaf t).inOrder = [leaf t] := rfl

@[simp] theorem inOrder_binary (op : Op) (t : Token) (l r : Expr) :
    (binary op t l r).inOrder = l.inOrder ++ binary op t l r :: r.inOrder := by
  simp only [inOrder, walk, walkFrom, List.map_append, List.map_cons]
  rw [map_fst_walkFrom l 1 (1 + 1), map_fst_walkFrom r 1 (1 + 1)]

/-! ## The zeros of minus signs -/

/-- The zero that a minus sign in front of an operand subtracts from.  It stands at the place of the
sign. -/
def zero? : Expr → Option Expr
  | binary .sub t (leaf zero) _ => if zero = .ofNumber 0 t.span then some (leaf zero) else none
  | _ => none

/-- The nodes of a walk without those that are the zeros of the signs next to them. -/
def withoutZeros : List Expr → List Expr
  | [] => []
  | e :: rest =>
      if rest.head?.bind zero? = some e then withoutZeros rest else e :: withoutZeros rest

/-- The tokens from left to right, without the zeros of minus signs. -/
def written (e : Expr) : List Token := (withoutZeros e.inOrder).map token

theorem zero?_negation (t : Token) (e : Expr) :
    (binary .sub t (.ofNumber 0 t.span) e).zero? = some (.ofNumber 0 t.span) := by
  simp [zero?, ofNumber]

theorem zero?_eq_some {op : Op} {t : Token} {l r zero : Expr}
    (h : (binary op t l r).zero? = some zero) : l = .ofNumber 0 t.span ∧ zero = l := by
  unfold zero? at h
  split at h
  · rename_i sign z r' heq
    cases heq
    split_ifs at h with hz
    exact ⟨by rw [hz, ofNumber], (Option.some.inj h).symm⟩
  · exact absurd h (by simp)

theorem withoutZeros_cons_of_ne {e : Expr} {rest : List Expr}
    (h : rest.head?.bind zero? ≠ some e) :
    withoutZeros (e :: rest) = e :: withoutZeros rest := by
  rw [withoutZeros, if_neg h]

/-- Two walks go on one after the other, if the first does not end with the zero of the node that
the second starts with. -/
theorem withoutZeros_append {nodes rest : List Expr} (h : rest.head?.bind zero? = none) :
    withoutZeros (nodes ++ rest) = withoutZeros nodes ++ withoutZeros rest := by
  induction nodes with
  | nil => rfl
  | cons e nodes ih =>
    have hnext : (nodes ++ rest).head?.bind zero? = nodes.head?.bind zero? := by
      cases nodes with
      | nil => exact h
      | cons e' nodes => rfl
    rw [List.cons_append, withoutZeros, withoutZeros, hnext, ih]
    split_ifs <;> rfl

/-- No operation is the zero of a sign. -/
theorem withoutZeros_cons_binary (op : Op) (t : Token) (l r : Expr) (rest : List Expr) :
    withoutZeros (binary op t l r :: rest) = binary op t l r :: withoutZeros rest := by
  refine withoutZeros_cons_of_ne fun h => ?_
  obtain ⟨e, -, he⟩ := Option.bind_eq_some_iff.1 h
  cases e with
  | leaf t' => exact absurd he (by simp [zero?])
  | binary op' t' l' r' =>
    obtain ⟨hl, hzero⟩ := zero?_eq_some he
    exact absurd (hzero.trans hl) (by simp [ofNumber])

@[simp] theorem written_leaf (t : Token) : (leaf t).written = [t] := by
  simp [written, withoutZeros, token]

/-- A minus sign in front of an operand is written as the sign and the operand. -/
theorem written_negation (t : Token) (e : Expr) :
    (binary .sub t (.ofNumber 0 t.span) e).written = t :: e.written := by
  have hzero : (Expr.ofNumber 0 t.span).inOrder = [.ofNumber 0 t.span] := rfl
  rw [written, inOrder_binary, hzero, List.singleton_append, withoutZeros, if_pos,
    withoutZeros_cons_binary]
  · rfl
  · simpa using zero?_negation t e

/-- Every other operation is written as its operands with the operator between them. -/
theorem written_operation {op : Op} {t : Token} {l r : Expr} (h : (binary op t l r).zero? = none) :
    (binary op t l r).written = l.written ++ t :: r.written := by
  rw [written, inOrder_binary, withoutZeros_append (by simpa using h), withoutZeros_cons_binary]
  simp [written, token]

end Expr

/-! ## Signs -/

/-- After the token an operand is due. -/
def Token.awaitsOperand (t : Token) : Bool :=
  t.isOpening || t.kind == .operator || t.kind == .equals

/-- The number of minus signs that have no operand before them: those that come first, and those
after an opening bracket, an operator or `=`.  The tokens come after `before?`, if there is such a
token. -/
def signs (before? : Option Token) : List Token → Nat
  | [] => 0
  | t :: ts =>
      (if t.op? = some .sub ∧ before?.all Token.awaitsOperand = true then 1 else 0) +
        signs (some t) ts

theorem signs_append (before? : Option Token) (ts us : List Token) :
    signs before? (ts ++ us) = signs before? ts + signs (ts.getLast?.or before?) us := by
  induction ts generalizing before? with
  | nil => simp [signs]
  | cons t ts ih =>
    have hlast : ((t :: ts).getLast?).or before? = ts.getLast?.or (some t) := by
      rw [List.getLast?_cons]
      cases ts.getLast? <;> rfl
    rw [List.cons_append, signs, signs, ih, hlast]
    omega

/-- A token that is no minus sign is no sign. -/
theorem signs_cons_of_ne {before? : Option Token} {t : Token} {ts : List Token}
    (h : t.op? ≠ some .sub) : signs before? (t :: ts) = signs (some t) ts := by
  simp [signs, h]

/-- An operator after an operand is no sign. -/
theorem signs_cons_of_operand {before t : Token} {ts : List Token}
    (h : before.awaitsOperand = false) : signs (some before) (t :: ts) = signs (some t) ts := by
  simp [signs, h]

/-- After an operator an operand is due. -/
theorem Token.awaitsOperand_of_op? {t : Token} {op : Op} (h : t.op? = some op) :
    t.awaitsOperand = true := by
  rw [op?] at h
  split at h
  · rename_i hk
    simp [awaitsOperand, hk]
  · rename_i hk
    simp [awaitsOperand, hk]
  · exact absurd h (by simp)

/-! ## Tokens of a text -/

/-- Tokens as a text has them: with lexemes of their kinds, each at a place of its own. -/
structure TextTokens (ts : List Token) : Prop where
  lexical : ∀ t ∈ ts, t.Lexical
  apart : ts.Pairwise fun t t' => t.span ≠ t'.span

theorem TextTokens.sublist {ts us : List Token} (h : TextTokens ts) (hus : us.Sublist ts) :
    TextTokens us :=
  ⟨fun t ht => h.lexical t (hus.subset ht), h.apart.sublist hus⟩

theorem TextTokens.tail {t : Token} {ts : List Token} (h : TextTokens (t :: ts)) : TextTokens ts :=
  h.sublist (List.sublist_cons_self t ts)

theorem TextTokens.left {ls rs : List Token} (h : TextTokens (ls ++ rs)) : TextTokens ls :=
  h.sublist (List.sublist_append_left ls rs)

theorem TextTokens.right {ls rs : List Token} (h : TextTokens (ls ++ rs)) : TextTokens rs :=
  h.sublist (List.sublist_append_right ls rs)

/-- The places of the tokens of a text do not overlap, so they differ. -/
theorem textTokens_of_tokenize {text : String} {tokens : List Token}
    (h : tokenize text = .ok tokens) : TextTokens tokens := by
  have hsegments := segments_of_tokenize h
  refine ⟨lexical_of_tokenize h, hsegments.ordered.imp_of_mem fun {t t'} _ ht' hlt heq => ?_⟩
  have hinside := (hsegments.inside t' ht').2.1
  rw [heq] at hlt
  omega

namespace Parser

/-! ## Derivations -/

/-- Tokens that stand for an expression end with an operand or a closing bracket. -/
theorem Derives.exists_last {a : Level} {ts : List Token} {e : Expr} (h : Derives a ts e) :
    TextTokens ts → ∃ t, ts.getLast? = some t ∧ t.awaitsOperand = false := by
  induction h with
  | @number t hk | @name t hk =>
    exact fun _ => ⟨t, rfl, by simp [Token.awaitsOperand, Token.isOpening, hk]⟩
  | @group opener closer ts e ho hc _ ih =>
    intro htext
    have hk := (htext.lexical closer (by simp)).kind_of_closes hc
    refine ⟨closer, by simp [List.getLast?_cons, List.getLast?_append], ?_⟩
    simp [Token.awaitsOperand, Token.isOpening_of_closes hc, hk]
  | @negation t ts e _ _ _ ih =>
    intro htext
    obtain ⟨last, hlast, hoperand⟩ := ih htext.tail
    exact ⟨last, by simp [List.getLast?_cons, hlast], hoperand⟩
  | @infixed op t ls rs l r _ _ _ _ ihr =>
    intro htext
    obtain ⟨last, hlast, hoperand⟩ := ihr htext.right.tail
    exact ⟨last, by simp [List.getLast?_append, List.getLast?_cons, hlast], hoperand⟩
  | looser _ _ ih => exact ih

/-- A tree that is a leaf is one of the tokens. -/
theorem Derives.mem_of_leaf {a : Level} {ts : List Token} {e : Expr} (h : Derives a ts e) :
    ∀ t, e = .leaf t → t ∈ ts := by
  induction h with
  | number _ | name _ =>
    intro t ht
    cases ht
    exact List.mem_singleton_self _
  | group _ _ _ ih =>
    exact fun t ht => List.mem_cons_of_mem _ (List.mem_append_left _ (ih t ht))
  | negation _ _ _ _ | infixed _ _ _ _ _ => exact fun t ht => absurd ht (by simp)
  | looser _ _ ih => exact ih

/-- An operator that stands at a place of its own has no zero for its left operand. -/
theorem Derives.zero?_eq_none {a : Level} {ls rs : List Token} {op : Op} {t : Token} {l r : Expr}
    (hl : Derives a ls l) (h : TextTokens (ls ++ t :: rs)) :
    (Expr.binary op t l r).zero? = none := by
  refine Option.eq_none_iff_forall_ne_some.2 fun zero hzero => ?_
  obtain ⟨rfl, -⟩ := Expr.zero?_eq_some hzero
  obtain ⟨-, -, hbetween⟩ := List.pairwise_append.1 h.apart
  exact hbetween _ (hl.mem_of_leaf _ rfl) t (List.mem_cons_self ..) rfl

/-- **The tokens are written as they were read**, apart from brackets. -/
theorem Derives.written_eq {a : Level} {ts : List Token} {e : Expr} (h : Derives a ts e) :
    TextTokens ts → e.written = ts.filter (·.kind != .bracket) := by
  induction h with
  | number hk | name hk => exact fun _ => by simp [hk]
  | @group opener closer ts e ho hc _ ih =>
    intro htext
    have hk := (htext.lexical closer (by simp)).kind_of_closes hc
    simp [ih htext.tail.left, Token.kind_of_isOpening ho, hk]
  | @negation t ts e hk _ _ ih =>
    intro htext
    rw [Expr.written_negation, ih htext.tail, List.filter_cons_of_pos (by simp [hk])]
  | @infixed op t ls rs l r hl ht _ ihl ihr =>
    intro htext
    rw [Expr.written_operation (hl.zero?_eq_none htext), ihl htext.left,
      ihr htext.right.tail, List.filter_append,
      List.filter_cons_of_pos (by simp [Token.kind_of_op? ht])]
  | looser _ _ ih => exact ih

/-- **There is one zero for each sign**, where the tokens stand where an operand is due. -/
theorem Derives.signs_eq {a : Level} {ts : List Token} {e : Expr} (h : Derives a ts e) :
    TextTokens ts → ∀ before? : Option Token, before?.all Token.awaitsOperand = true →
      e.inOrder.length = e.written.length + signs before? ts := by
  induction h with
  | number hk | name hk =>
    intro _ before? _
    simp [signs, Token.op?, hk]
  | @group opener closer ts e ho hc _ ih =>
    intro htext before? _
    have hopener : opener.op? ≠ some .sub :=
      fun hsub => Token.kind_of_op? hsub (Token.kind_of_isOpening ho)
    have hcloser : closer.op? ≠ some .sub := by simp [op?_of_closes hc]
    have hawaits : opener.awaitsOperand = true := by simp [Token.awaitsOperand, ho]
    rw [signs_cons_of_ne hopener, signs_append, signs_cons_of_ne hcloser,
      ih htext.tail.left (some opener) (by simpa using hawaits)]
    rfl
  | @negation t ts e hk hsub _ ih =>
    intro htext before? hbefore
    have hrest := ih htext.tail (some t) (by simpa using Token.awaitsOperand_of_op? hsub)
    rw [Expr.written_negation, signs, if_pos ⟨hsub, hbefore⟩]
    simp only [Expr.inOrder_binary, Expr.ofNumber, Expr.inOrder_leaf, List.length_append,
      List.length_cons, List.length_nil, hrest]
    omega
  | @infixed op t ls rs l r hl ht _ ihl ihr =>
    intro htext before? hbefore
    obtain ⟨last, hlast, hoperand⟩ := hl.exists_last htext.left
    have hleft := ihl htext.left before? hbefore
    have hright := ihr htext.right.tail (some t)
      (by simpa using Token.awaitsOperand_of_op? ht)
    rw [Expr.written_operation (hl.zero?_eq_none htext), signs_append, hlast, Option.some_or,
      signs_cons_of_operand hoperand]
    simp only [Expr.inOrder_binary, List.length_append, List.length_cons, hleft, hright]
    omega
  | looser _ _ ih => exact ih

/-! ## Texts -/

/-- **No token is lost, doubled or moved by parsing.**  The tokens that a walk from left to right
goes through, without the zeros of minus signs, are those of the text without the brackets; and
there are as many zeros as minus signs that come first or after an opening bracket, an operator or
`=`. -/
theorem written_of_parse {text : String} {tokens : List Token} {limit : Nat} {e : Expr}
    (htokens : tokenize text = .ok tokens) (he : Expr.parse limit tokens = .ok e) :
    e.written = tokens.filter (·.kind != .bracket) ∧
      e.inOrder.length = e.written.length + signs none tokens := by
  have hderives := (derives_of_parse he).1
  have htext := textTokens_of_tokenize htokens
  exact ⟨hderives.written_eq htext, hderives.signs_eq htext none rfl⟩

/-- Two minus signs, one of them without an operand before it, and a zero that is written. -/
theorem written_of_parse_signs :
    ∃ tokens e, tokenize "-(0-x)" = .ok tokens ∧ Expr.parse 6 tokens = .ok e ∧
      e.text = "(0 - (0 - x))" ∧ e.written = tokens.filter (·.kind != .bracket) ∧
      e.inOrder.length = e.written.length + 1 := by
  let tokens : List Token := [⟨.operator, "-", ⟨1, 1⟩⟩, ⟨.bracket, "(", ⟨2, 2⟩⟩,
    ⟨.number, "0", ⟨3, 3⟩⟩, ⟨.operator, "-", ⟨4, 4⟩⟩, ⟨.name, "x", ⟨5, 5⟩⟩,
    ⟨.bracket, ")", ⟨6, 6⟩⟩]
  let e : Expr := .binary .sub ⟨.operator, "-", ⟨1, 1⟩⟩ (.leaf ⟨.number, "0", ⟨1, 1⟩⟩)
    (.binary .sub ⟨.operator, "-", ⟨4, 4⟩⟩ (.leaf ⟨.number, "0", ⟨3, 3⟩⟩)
      (.leaf ⟨.name, "x", ⟨5, 5⟩⟩))
  have htokens : tokenize "-(0-x)" = .ok tokens := by decide +kernel
  have he : Expr.parse 6 tokens = .ok e := by decide +kernel
  exact ⟨tokens, e, htokens, he, by decide +kernel, written_of_parse htokens he⟩

end Parser

end EquationNetwork
