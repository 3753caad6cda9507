import Mathlib
import EquationNetwork.Token.Scanner

/-!
# What lexemes look like

Which texts lead the automaton to a state, and what that says about the tokens of a text.

* `Scanner.State.Reads` — the lexemes that end in a state.
* `Scanner.State.Reads.next` — **one edge** takes a lexeme of its source to one of its target.
* `Token.Lexical` — the token ends in a state that reads its lexeme.
* `Token.Stands` — a token stands in a text where its place says, and the text does not go on with
  it.
* `Scanner.stands_of_scanFrom` — **every token of a scan** stands in its text.
* `lexical_of_tokenize` — every token of a text is lexical.
* `Token.Lexical.value?_isSome`, `Token.Lexical.value?_eq_none` — a token of a text that is a number
  at first sight has one, and a name has none.
-/

namespace EquationNetwork

/-! ## The lexemes of a state -/

namespace Scanner.State

/-- The lexemes that end in a state. -/
def Reads : State → List Char → Prop
  | start, cs => cs = []
  | name, cs => ∃ c rest, cs = c :: rest ∧ isLetter c = true ∧ ∀ d ∈ rest, isNameChar d = true
  | operator, cs => ∃ c, cs = [c] ∧ isOperator c = true
  | bracket, cs => ∃ c, cs = [c] ∧ isBracket c = true
  | equals, cs => cs = ['=']
  | whole, cs => cs ≠ [] ∧ ∀ d ∈ cs, d.isDigit = true
  | point, cs => ∃ whole, cs = whole ++ ['.'] ∧ ∀ d ∈ whole, d.isDigit = true
  | fraction, cs => ∃ whole fraction, cs = whole ++ '.' :: fraction ∧ fraction ≠ [] ∧
      (∀ d ∈ whole, d.isDigit = true) ∧ ∀ d ∈ fraction, d.isDigit = true
  | malformed, cs => (∀ d ∈ cs, isDigitOrPoint d = true) ∧ 2 ≤ cs.count '.'

/-- A character is taken along an edge that leaves the state and accepts it. -/
theorem exists_edge_of_next {s s' : State} {c : Char} (h : s.next c = some s') :
    ∃ e ∈ edges, e.source = s ∧ e.accepts c = true ∧ e.target = s' := by
  obtain ⟨e, hfind, htarget⟩ := Option.map_eq_some_iff.mp h
  have haccepts := List.find?_some hfind
  rw [Bool.and_eq_true, beq_iff_eq] at haccepts
  exact ⟨e, List.mem_of_find?_eq_some hfind, haccepts.1, haccepts.2, htarget⟩

/-- **One edge takes a lexeme of its source to one of its target.**  An edge back to the start takes
a blank and leaves nothing. -/
theorem Reads.next {s s' : State} {c : Char} {cs : List Char} (h : s.Reads cs)
    (hnext : s.next c = some s') : s' = .start ∨ s'.Reads (cs ++ [c]) := by
  obtain ⟨e, he, hsource, haccepts, htarget⟩ := exists_edge_of_next hnext
  subst hsource htarget
  simp only [edges, List.mem_cons, List.not_mem_nil, or_false] at he
  rcases he with rfl | rfl | rfl | rfl | rfl | rfl | rfl | rfl | rfl | rfl | rfl | rfl | rfl | rfl |
    rfl
  · exact .inl rfl
  · obtain rfl : cs = [] := h
    exact .inr ⟨c, [], rfl, haccepts, by simp⟩
  · obtain ⟨d, rest, rfl, hd, hrest⟩ := h
    refine .inr ⟨d, rest ++ [c], rfl, hd, ?_⟩
    simpa [or_imp, forall_and] using ⟨hrest, haccepts⟩
  · obtain rfl : cs = [] := h
    exact .inr ⟨c, rfl, haccepts⟩
  · obtain rfl : cs = [] := h
    exact .inr ⟨c, rfl, haccepts⟩
  · obtain rfl : cs = [] := h
    obtain rfl : c = '=' := beq_iff_eq.mp haccepts
    exact .inr rfl
  · obtain rfl : cs = [] := h
    exact .inr ⟨by simp, by simpa using haccepts⟩
  · obtain rfl : cs = [] := h
    obtain rfl : c = '.' := beq_iff_eq.mp haccepts
    exact .inr ⟨[], rfl, by simp⟩
  · obtain ⟨-, hdigits⟩ := h
    refine .inr ⟨by simp, ?_⟩
    simpa [or_imp, forall_and] using ⟨hdigits, haccepts⟩
  · obtain ⟨-, hdigits⟩ := h
    obtain rfl : c = '.' := beq_iff_eq.mp haccepts
    exact .inr ⟨cs, rfl, hdigits⟩
  · obtain ⟨whole, rfl, hwhole⟩ := h
    exact .inr ⟨whole, [c], by simp, by simp, hwhole, by simpa using haccepts⟩
  · obtain ⟨whole, rfl, hwhole⟩ := h
    obtain rfl : c = '.' := beq_iff_eq.mp haccepts
    refine .inr ⟨?_, by simp⟩
    simpa [isDigitOrPoint, or_imp, forall_and] using fun d hd => Or.inl (hwhole d hd)
  · obtain ⟨whole, fraction, rfl, -, hwhole, hfraction⟩ := h
    refine .inr ⟨whole, fraction ++ [c], by simp, by simp, hwhole, ?_⟩
    simpa [or_imp, forall_and] using ⟨hfraction, haccepts⟩
  · obtain ⟨whole, fraction, rfl, -, hwhole, hfraction⟩ := h
    obtain rfl : c = '.' := beq_iff_eq.mp haccepts
    refine .inr ⟨fun d hd => ?_, by simp; omega⟩
    simp only [List.append_assoc, List.cons_append, List.mem_append, List.mem_cons,
      List.not_mem_nil, or_false] at hd
    rcases hd with hd | rfl | hd | rfl
    · simp [isDigitOrPoint, hwhole d hd]
    · rfl
    · simp [isDigitOrPoint, hfraction d hd]
    · rfl
  · obtain ⟨hchars, hpoints⟩ := h
    refine .inr ⟨?_, by rw [List.count_append]; omega⟩
    simpa [or_imp, forall_and] using ⟨hchars, haccepts⟩

end Scanner.State

/-! ## The tokens of a text -/

/-- The token ends in a state that reads its lexeme. -/
def Token.Lexical (t : Token) : Prop :=
  ∃ s : Scanner.State, s.kind? = some t.kind ∧ s.Reads t.lexeme.toList

/-- The token of an operator is one that a text can hold. -/
theorem Token.lexical_ofOp (op : Op) (span : Span) : (ofOp op span).Lexical := by
  have hlexeme : (ofOp op span).lexeme.toList = [op.symbol] := String.toList_singleton op.symbol
  cases op with
  | equals => exact ⟨.equals, rfl, hlexeme⟩
  | _ => exact ⟨.operator, rfl, _, hlexeme, rfl⟩

namespace Scanner

theorem Cursor.reads_feed {cursor longer : Cursor} {c : Char}
    (h : cursor.state.Reads cursor.lexeme.toList) (hfeed : cursor.feed c = some longer) :
    longer.state.Reads longer.lexeme.toList := by
  obtain ⟨s, hnext, rfl⟩ := Option.map_eq_some_iff.mp hfeed
  by_cases hs : s = .start
  · subst hs
    rfl
  · simpa [hs] using h.next hnext

theorem Cursor.position_feed {cursor longer : Cursor} {c : Char}
    (hfeed : cursor.feed c = some longer) : longer.position = cursor.position + 1 := by
  obtain ⟨s, -, rfl⟩ := Option.map_eq_some_iff.mp hfeed
  rfl

/-- The place of the token that ends where a cursor stands, told by where it starts. -/
theorem Cursor.span_eq (cursor : Cursor) {before : Nat}
    (h : cursor.position = before + cursor.lexeme.toList.length) :
    (⟨cursor.position + 1 - cursor.lexeme.length, cursor.position⟩ : Span) =
      ⟨before + 1, before + cursor.lexeme.toList.length⟩ := by
  rw [← String.length_toList, h]
  congr 1
  omega

end Scanner

/-- The token stands in the text where its place says, in a state that reads its lexeme and that the
next character does not go on with. -/
def Token.Stands (t : Token) (text : List Char) : Prop :=
  ∃ (s : Scanner.State) (before after : List Char), s.kind? = some t.kind ∧
    s.Reads t.lexeme.toList ∧ text = before ++ t.lexeme.toList ++ after ∧
    t.span = ⟨before.length + 1, before.length + t.lexeme.toList.length⟩ ∧
    ∀ c ∈ after.head?, s.next c = none

namespace Scanner

/-- The cursor is in the text before the rest of it, and its lexeme is what comes before. -/
structure Cursor.Within (cursor : Cursor) (text rest : List Char) : Prop where
  reads : cursor.state.Reads cursor.lexeme.toList
  place : ∃ before, text = before ++ cursor.lexeme.toList ++ rest ∧
    cursor.position = before.length + cursor.lexeme.toList.length

namespace Cursor.Within

variable {cursor longer : Cursor} {text rest : List Char} {c : Char}

theorem feed (h : cursor.Within text (c :: rest)) (hfeed : cursor.feed c = some longer) :
    longer.Within text rest := by
  refine ⟨reads_feed h.reads hfeed, ?_⟩
  obtain ⟨before, htext, hposition⟩ := h.place
  obtain ⟨s, -, rfl⟩ := Option.map_eq_some_iff.1 hfeed
  by_cases hs : s = .start
  · exact ⟨before ++ cursor.lexeme.toList ++ [c], by simp [hs, htext],
      by simp [hs, hposition, Nat.add_assoc]⟩
  · exact ⟨before, by simp [hs, htext], by simp [hs, hposition, Nat.add_assoc]⟩

/-- Between two tokens the cursor is at rest. -/
theorem atRest (h : cursor.Within text rest) :
    (Cursor.atRest cursor.position).Within text rest := by
  obtain ⟨before, htext, hposition⟩ := h.place
  exact ⟨rfl, before ++ cursor.lexeme.toList, by simpa [Cursor.atRest] using htext,
    by simpa [Cursor.atRest] using hposition⟩

/-- The token that ends where the cursor stops stands in the text. -/
theorem stands (h : cursor.Within text rest)
    (hstop : ∀ c ∈ rest.head?, cursor.state.next c = none) :
    ∀ t ∈ cursor.token?.toList, t.Stands text := by
  intro t ht
  obtain ⟨kind, hkind, rfl⟩ := Option.map_eq_some_iff.1 (Option.mem_toList.1 ht)
  obtain ⟨before, htext, hposition⟩ := h.place
  refine ⟨cursor.state, before, rest, hkind, h.reads, htext, ?_, hstop⟩
  exact cursor.span_eq hposition

end Cursor.Within

/-- **Every token of a scan stands in its text.** -/
theorem stands_of_scanFrom {text cs : List Char} :
    ∀ {cursor : Cursor}, cursor.Within text cs →
      ∀ t ∈ (scanFrom cursor cs).tokens, t.Stands text := by
  induction cs with
  | nil =>
    intro cursor h
    exact h.stands (by simp)
  | cons c cs ih =>
    intro cursor h t ht
    unfold scanFrom at ht
    split at ht
    · rename_i longer hfeed
      exact ih (h.feed hfeed) t ht
    · rename_i hrefused
      have hstop : ∀ d ∈ (c :: cs).head?, cursor.state.next d = none := by
        rintro d ⟨⟩
        exact Option.map_eq_none_iff.1 hrefused
      split at ht
      · rename_i fresh hfeed
        rcases List.mem_append.1 ht with ht | ht
        · exact h.stands hstop t ht
        · exact ih (h.atRest.feed hfeed) t ht
      · exact h.stands hstop t ht

end Scanner

theorem stands_of_tokenize {text : String} {tokens : List Token} (h : tokenize text = .ok tokens) :
    ∀ t ∈ tokens, t.Stands text.toList := by
  rw [tokenize] at h
  split at h
  · exact absurd h (by simp)
  · cases h
    exact Scanner.stands_of_scanFrom ⟨rfl, [], rfl, rfl⟩

/-- Every token of a text ends in a state that reads its lexeme. -/
theorem lexical_of_tokenize {text : String} {tokens : List Token}
    (h : tokenize text = .ok tokens) : ∀ t ∈ tokens, t.Lexical := by
  intro t ht
  obtain ⟨s, _, _, hkind, hreads, _⟩ := stands_of_tokenize h t ht
  exact ⟨s, hkind, hreads⟩

/-! ## Numbers and names -/

/-- No letter is a digit. -/
theorem Scanner.isDigit_of_isLetter {c : Char} (h : isLetter c = true) : c.isDigit = false := by
  simp only [isLetter, Char.isAlpha, Char.isUpper, Char.isLower, Char.isDigit, Bool.or_eq_true,
    Bool.and_eq_true, decide_eq_true_eq, Bool.and_eq_false_iff, decide_eq_false_iff_not, ge_iff_le,
    UInt32.le_iff_toNat_le] at h ⊢
  have hA : 'A'.val.toNat = 65 := rfl
  have ha : 'a'.val.toNat = 97 := rfl
  have h9 : '9'.val.toNat = 57 := rfl
  omega

namespace Decimal

theorem spanDigits_append {digits rest : List Char} (hdigits : ∀ d ∈ digits, d.isDigit = true)
    (hrest : ∀ c ∈ rest.head?, c.isDigit = false) :
    spanDigits (digits ++ rest) = (digits, rest) := by
  rw [spanDigits, List.takeWhile_append_of_pos hdigits, List.dropWhile_append_of_pos hdigits]
  cases rest with
  | nil => simp
  | cons c rest => simp [hrest c rfl]

theorem numeral?_whole {lexeme : String} (hne : lexeme.toList ≠ [])
    (hdigits : ∀ d ∈ lexeme.toList, d.isDigit = true) : (numeral? lexeme).isSome = true := by
  have hspan : spanDigits lexeme.toList = (lexeme.toList, []) := by
    simpa using @spanDigits_append _ [] hdigits (by simp)
  have hread : readMagnitude lexeme.toList = some ⟨lexeme.toList, [], []⟩ := by
    simp [readMagnitude, hspan, hne]
  simp [numeral?, hread]

theorem numeral?_fraction {lexeme : String} {whole fraction : List Char}
    (hlexeme : lexeme.toList = whole ++ '.' :: fraction) (hne : fraction ≠ [])
    (hwhole : ∀ d ∈ whole, d.isDigit = true) (hfraction : ∀ d ∈ fraction, d.isDigit = true) :
    (numeral? lexeme).isSome = true := by
  have hspan : spanDigits lexeme.toList = (whole, '.' :: fraction) := by
    rw [hlexeme]
    exact spanDigits_append hwhole (by simp)
  have hspan' : spanDigits fraction = (fraction, []) := by
    simpa using @spanDigits_append _ [] hfraction (by simp)
  have hread : readMagnitude lexeme.toList = some ⟨whole, fraction, []⟩ := by
    simp [readMagnitude, hspan, hspan', hne]
  simp [numeral?, hread]

/-- A text that starts with neither a digit nor a point is no numeral. -/
theorem numeral?_eq_none {lexeme : String} {c : Char} {rest : List Char}
    (hlexeme : lexeme.toList = c :: rest) (hdigit : c.isDigit = false) (hpoint : c ≠ '.') :
    numeral? lexeme = none := by
  have hspan : spanDigits lexeme.toList = ([], c :: rest) := by
    rw [hlexeme]
    exact @spanDigits_append [] _ (by simp) (by simpa using hdigit)
  have hread : readMagnitude lexeme.toList = none := by
    simp [readMagnitude, hspan, hpoint]
  simp [numeral?, hread]

end Decimal

namespace Token.Lexical

variable {t : Token}

/-- A token that is a number at first sight has a number. -/
theorem value?_isSome (h : t.Lexical) (hkind : t.kind = .number) : t.value?.isSome = true := by
  obtain ⟨s, hs, hreads⟩ := h
  rw [hkind] at hs
  rw [value?, hkind]
  cases s with
  | whole => exact Decimal.numeral?_whole hreads.1 hreads.2
  | fraction =>
    obtain ⟨whole, fraction, hlexeme, hne, hwhole, hfraction⟩ := hreads
    exact Decimal.numeral?_fraction hlexeme hne hwhole hfraction
  | _ => exact absurd hs (by simp [Scanner.State.kind?])

/-- A name stands for no number. -/
theorem value?_eq_none (h : t.Lexical) (hkind : t.kind = .name) : t.value? = none := by
  obtain ⟨s, hs, hreads⟩ := h
  rw [hkind] at hs
  rw [value?, hkind]
  cases s with
  | name =>
    obtain ⟨c, rest, hlexeme, hletter, -⟩ := hreads
    refine Decimal.numeral?_eq_none hlexeme (Scanner.isDigit_of_isLetter hletter) ?_
    rintro rfl
    exact absurd hletter (by decide)
  | _ => exact absurd hs (by simp [Scanner.State.kind?])

end Token.Lexical

end EquationNetwork
