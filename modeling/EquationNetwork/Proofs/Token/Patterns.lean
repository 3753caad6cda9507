import Mathlib.Computability.Language
import EquationNetwork.Proofs.Token.Rescanning
import EquationNetwork.Proofs.Token.Segmentation

/-!
# The patterns of tokens

What lexemes look like is said three times: by the edges of the automaton, by the numbers that can
be read, and by a regular expression for each kind of token. They say the same.

* `Kind.pattern` — the regular expression of the lexemes of a kind.
* `Token.Lexical.kind_eq` — no two kinds read the same lexeme.
* `Kind.mem_pattern_iff` — **the pattern of a kind** holds the lexemes of the states that end in it.
* `Scanner.State.notMem_continuation` — a token ends only where its lexeme could not be longer.
* `Token.Lexical.isSome_value?_iff`, `Token.Lexical.isSome_op?_iff` — the tokens that stand for a
  number, and those that stand for an operator.
* `tokenize_patterns` — **the pattern of a lexeme decides its kind.**
-/

namespace EquationNetwork

open scoped Computability

/-! ## Regular expressions -/

namespace Pattern

/-- The texts of one character of a class. -/
def one (chars : Set Char) : Language Char := {cs | ∃ c ∈ chars, cs = [c]}

/-- The texts of one or more characters of a class. -/
def run (chars : Set Char) : Language Char := one chars * (one chars)∗

theorem mem_one {chars : Set Char} {cs : List Char} :
    cs ∈ one chars ↔ ∃ c ∈ chars, cs = [c] := Iff.rfl

theorem mem_kstar_one {chars : Set Char} {cs : List Char} :
    cs ∈ (one chars)∗ ↔ ∀ c ∈ cs, c ∈ chars := by
  rw [Language.mem_kstar]
  constructor
  · rintro ⟨pieces, rfl, hpieces⟩ c hc
    obtain ⟨piece, hpiece, hc⟩ := List.mem_flatten.1 hc
    obtain ⟨d, hd, rfl⟩ := hpieces piece hpiece
    rwa [List.mem_singleton.1 hc]
  · intro h
    refine ⟨cs.map fun c => [c], (List.flatMap_singleton' cs).symm, fun piece hpiece => ?_⟩
    obtain ⟨c, hc, rfl⟩ := List.mem_map.1 hpiece
    exact ⟨c, h c hc, rfl⟩

theorem mem_one_mul {chars : Set Char} {l : Language Char} {cs : List Char} :
    cs ∈ one chars * l ↔ ∃ c ∈ chars, ∃ rest ∈ l, cs = c :: rest := by
  rw [Language.mem_mul]
  constructor
  · rintro ⟨_, ⟨c, hc, rfl⟩, rest, hrest, rfl⟩
    exact ⟨c, hc, rest, hrest, rfl⟩
  · rintro ⟨c, hc, rest, hrest, rfl⟩
    exact ⟨[c], ⟨c, hc, rfl⟩, rest, hrest, rfl⟩

theorem mem_run {chars : Set Char} {cs : List Char} :
    cs ∈ run chars ↔ cs ≠ [] ∧ ∀ c ∈ cs, c ∈ chars := by
  rw [run, mem_one_mul]
  constructor
  · rintro ⟨c, hc, rest, hrest, rfl⟩
    exact ⟨by simp, List.forall_mem_cons.2 ⟨hc, mem_kstar_one.1 hrest⟩⟩
  · rintro ⟨hne, h⟩
    obtain ⟨c, rest, rfl⟩ := List.exists_cons_of_ne_nil hne
    obtain ⟨hc, hrest⟩ := List.forall_mem_cons.1 h
    exact ⟨c, hc, rest, mem_kstar_one.2 hrest, rfl⟩

/-! ### Classes of characters -/

def letters : Set Char := Set.Icc 'A' 'Z' ∪ Set.Icc 'a' 'z'

def digits : Set Char := Set.Icc '0' '9'

theorem mem_letters {c : Char} : c ∈ letters ↔ Scanner.isLetter c = true := by
  simp [letters, Scanner.isLetter, Char.isAlpha, Char.isUpper, Char.isLower, Char.le_def]

theorem mem_digits {c : Char} : c ∈ digits ↔ c.isDigit = true := by
  simp [digits, Char.isDigit, Char.le_def]

theorem mem_nameChars {c : Char} :
    c ∈ letters ∪ digits ∪ {'_'} ↔ Scanner.isNameChar c = true := by
  rw [Set.union_singleton, Set.mem_insert_iff, Set.mem_union, mem_letters, mem_digits, or_comm]
  simp [Scanner.isNameChar, Scanner.isLetter, Char.isAlphanum]

theorem mem_numberChars {c : Char} : c ∈ digits ∪ {'.'} ↔ Scanner.isDigitOrPoint c = true := by
  rw [Set.union_singleton, Set.mem_insert_iff, mem_digits, or_comm]
  simp [Scanner.isDigitOrPoint]

/-! ### The patterns -/

/-- `[A-Za-z][A-Za-z0-9_]*` -/
def name : Language Char := one letters * (one (letters ∪ digits ∪ {'_'}))∗

/-- `[0-9]+(\.[0-9]+)?|\.[0-9]+` -/
def number : Language Char := run digits * (1 + one {'.'} * run digits) + one {'.'} * run digits

/-- `[0-9.]+`, but no number. -/
def malformed : Language Char := run (digits ∪ {'.'}) - number

theorem mem_name {cs : List Char} : cs ∈ name ↔ Scanner.State.name.Reads cs := by
  simp only [name, mem_one_mul, mem_kstar_one, mem_letters, mem_nameChars]
  constructor
  · rintro ⟨c, hc, rest, hrest, rfl⟩
    exact ⟨c, rest, rfl, hc, hrest⟩
  · rintro ⟨c, rest, rfl, hc, hrest⟩
    exact ⟨c, hc, rest, hrest, rfl⟩

theorem mem_number {cs : List Char} :
    cs ∈ number ↔ Scanner.State.whole.Reads cs ∨ Scanner.State.fraction.Reads cs := by
  simp only [number, Language.mem_add, Language.mem_mul (l := run digits), Language.mem_one,
    mem_one_mul, mem_run, mem_digits, Set.mem_singleton_iff]
  constructor
  · rintro (⟨digits, hdigits, _, rfl | ⟨_, rfl, fraction, hfraction, rfl⟩, rfl⟩ |
      ⟨_, rfl, fraction, hfraction, rfl⟩)
    · rw [List.append_nil]
      exact .inl hdigits
    · exact .inr ⟨digits, fraction, rfl, hfraction.1, hdigits.2, hfraction.2⟩
    · exact .inr ⟨[], fraction, rfl, hfraction.1, by simp, hfraction.2⟩
  · rintro (hwhole | ⟨digits, fraction, rfl, hne, hdigits, hfraction⟩)
    · exact .inl ⟨cs, hwhole, [], .inl rfl, by simp⟩
    · by_cases hdigits_ne : digits = []
      · subst hdigits_ne
        exact .inr ⟨'.', rfl, fraction, ⟨hne, hfraction⟩, rfl⟩
      · exact .inl ⟨digits, ⟨hdigits_ne, hdigits⟩, '.' :: fraction,
          .inr ⟨'.', rfl, fraction, ⟨hne, hfraction⟩, rfl⟩, rfl⟩

end Pattern

/-! ## Kinds -/

/-- No two kinds read the same lexeme: alone, it is scanned as one token. -/
theorem Token.Lexical.kind_eq {t t' : Token} (h : t.Lexical) (h' : t'.Lexical)
    (heq : t.lexeme = t'.lexeme) : t.kind = t'.kind := by
  have hend : ∀ c ∈ ([] : List Char).head?, Scanner.Separates c := by simp
  obtain ⟨span, position, hyields⟩ := Scanner.yields_token h 0 (.inr hend)
  obtain ⟨span', position', hyields'⟩ := Scanner.yields_token h' 0 (.inr hend)
  rw [← heq, Scanner.Yields] at hyields'
  have htokens : [{ t with span := span }] = [{ t' with span := span' }] := by
    simpa [Scanner.scanFrom, Scanner.Scan.prepend, heq] using
      congrArg Scanner.Scan.tokens (hyields.symm.trans hyields')
  exact (Token.mk.inj (List.cons.inj htokens).1).1

namespace Pattern

open Scanner (State)

/-- The lexeme of a state that ends in a kind is that of a state that ends in another. -/
theorem kind_eq_of_reads {s s' : State} {kind kind' : Kind} {cs : List Char}
    (hs : s.kind? = some kind) (h : s.Reads cs) (hs' : s'.kind? = some kind') (h' : s'.Reads cs) :
    kind = kind' := by
  have hlexical : (⟨kind, String.ofList cs, ⟨0, 0⟩⟩ : Token).Lexical :=
    ⟨s, hs, by simpa using h⟩
  have hlexical' : (⟨kind', String.ofList cs, ⟨0, 0⟩⟩ : Token).Lexical :=
    ⟨s', hs', by simpa using h'⟩
  exact hlexical.kind_eq hlexical' rfl

theorem mem_malformed {cs : List Char} :
    cs ∈ malformed ↔ State.point.Reads cs ∨ State.malformed.Reads cs := by
  have hmem : cs ∈ malformed ↔ cs ∈ run (digits ∪ {'.'}) ∧ cs ∉ number := Iff.rfl
  simp only [hmem, mem_run, mem_numberChars]
  constructor
  · rintro ⟨⟨hne, hchars⟩, hnumber⟩
    rw [mem_number] at hnumber
    by_cases hpoint : '.' ∈ cs
    · obtain ⟨digits, more, rfl, hdigits⟩ := List.eq_append_cons_of_mem hpoint
      obtain ⟨hdigitChars, hmoreChars⟩ := List.forall_mem_append.1 hchars
      have hdigit := Scanner.isDigit_of_isDigitOrPoint hdigitChars hdigits
      by_cases hmore : '.' ∈ more
      · refine .inr ⟨hchars, ?_⟩
        have hcount := List.count_pos_iff.2 hmore
        rw [List.count_append, List.count_cons_self]
        omega
      · left
        have hfraction :=
          Scanner.isDigit_of_isDigitOrPoint (List.forall_mem_cons.1 hmoreChars).2 hmore
        by_cases hmore_ne : more = []
        · exact ⟨digits, by rw [hmore_ne], hdigit⟩
        · exact absurd (.inr ⟨digits, more, rfl, hmore_ne, hdigit, hfraction⟩) hnumber
    · exact absurd (.inl ⟨hne, Scanner.isDigit_of_isDigitOrPoint hchars hpoint⟩) hnumber
  · have hnot : ∀ s : State, s.kind? = some .malformed → s.Reads cs → cs ∉ number := by
      intro s hs h hnumber
      rcases mem_number.1 hnumber with h' | h'
      · exact absurd (kind_eq_of_reads hs h rfl h') (by simp)
      · exact absurd (kind_eq_of_reads hs h rfl h') (by simp)
    rintro (h | h)
    · refine ⟨⟨h.ne_nil (by simp), ?_⟩, hnot _ rfl h⟩
      obtain ⟨digits, rfl, hdigits⟩ := h
      rw [List.forall_mem_append]
      exact ⟨fun c hc => by simp [Scanner.isDigitOrPoint, hdigits c hc], by simp; rfl⟩
    · exact ⟨⟨h.ne_nil (by simp), h.1⟩, hnot _ rfl h⟩

end Pattern

/-- The regular expression of the lexemes of a kind. -/
def Kind.pattern : Kind → Language Char
  | name => Pattern.name
  | number => Pattern.number
  | malformed => Pattern.malformed
  | operator => Pattern.one {'+', '-', '*', '/', '^'}
  | bracket => Pattern.one {'(', ')', '[', ']'}
  | equals => Pattern.one {'='}

/-- Every kind has the states that end in it. -/
theorem Scanner.State.exists_kind_iff {kind : Kind} {p : State → Prop} :
    (∃ s : State, s.kind? = some kind ∧ p s) ↔
      match kind with
      | .name => p .name
      | .number => p .whole ∨ p .fraction
      | .malformed => p .point ∨ p .malformed
      | .operator => p .operator
      | .bracket => p .bracket
      | .equals => p .equals := by
  constructor
  · rintro ⟨s, hs, h⟩
    cases s <;> cases hs <;> simp [h]
  · cases kind with
    | name => exact fun h => ⟨.name, rfl, h⟩
    | number =>
      rintro (h | h)
      · exact ⟨.whole, rfl, h⟩
      · exact ⟨.fraction, rfl, h⟩
    | malformed =>
      rintro (h | h)
      · exact ⟨.point, rfl, h⟩
      · exact ⟨.malformed, rfl, h⟩
    | operator => exact fun h => ⟨.operator, rfl, h⟩
    | bracket => exact fun h => ⟨.bracket, rfl, h⟩
    | equals => exact fun h => ⟨.equals, rfl, h⟩

/-- **The pattern of a kind** holds the lexemes of the states that end in it. -/
theorem Kind.mem_pattern_iff {kind : Kind} {cs : List Char} :
    cs ∈ kind.pattern ↔ ∃ s : Scanner.State, s.kind? = some kind ∧ s.Reads cs := by
  rw [Scanner.State.exists_kind_iff]
  cases kind with
  | name => exact Pattern.mem_name
  | number => exact Pattern.mem_number
  | malformed => exact Pattern.mem_malformed
  | operator =>
    simp [pattern, Pattern.mem_one, Scanner.State.Reads, Scanner.isOperator, and_comm]
  | bracket => simp [pattern, Pattern.mem_one, Scanner.State.Reads, Scanner.isBracket, and_comm]
  | equals => simp [pattern, Pattern.mem_one, Scanner.State.Reads]

theorem Token.lexical_iff {t : Token} : t.Lexical ↔ t.lexeme.toList ∈ t.kind.pattern :=
  Kind.mem_pattern_iff.symm

/-- A token of a text has the one kind whose pattern its lexeme matches. -/
theorem Token.Lexical.kind_iff {t : Token} (h : t.Lexical) (kind : Kind) :
    t.kind = kind ↔ t.lexeme.toList ∈ kind.pattern := by
  constructor
  · rintro rfl
    exact Token.lexical_iff.1 h
  · intro hmem
    have hother : (⟨kind, t.lexeme, t.span⟩ : Token).Lexical := Token.lexical_iff.2 hmem
    exact h.kind_eq hother rfl

/-- An operator is written like no tokens but those of its kind. -/
theorem Op.lexeme_mem_pattern_iff {op : Op} {kind : Kind} :
    op.lexeme.toList ∈ kind.pattern ↔ (Token.ofOp op ⟨0, 0⟩).kind = kind :=
  ((Token.lexical_ofOp op ⟨0, 0⟩).kind_iff kind).symm

/-! ## Longest lexemes -/

/-- The characters that a lexeme of a kind goes on with. -/
def Kind.continuation : Kind → Set Char
  | name => Pattern.letters ∪ Pattern.digits ∪ {'_'}
  | number | malformed => Pattern.digits ∪ {'.'}
  | operator | bracket | equals => ∅

/-- An automaton that stops cannot go on. -/
theorem Scanner.State.notMem_continuation {s : State} {kind : Kind} {c : Char}
    (hs : s.kind? = some kind) (hstop : s.next c = none) : c ∉ kind.continuation := by
  intro hc
  have hnext : (s.next c).isSome = true := by
    cases s with
    | start => exact absurd hs (by simp [kind?])
    | name =>
      cases hs
      rw [next_name (Pattern.mem_nameChars.1 hc), Option.isSome_some]
    | operator | bracket | equals =>
      cases hs
      exact absurd hc (Set.notMem_empty c)
    | whole | point | fraction | malformed =>
      cases hs
      have hclass : c.isDigit = true ∨ c = '.' := by
        simpa [isDigitOrPoint] using Pattern.mem_numberChars.1 hc
      rcases hclass with hdigit | rfl
      · simp [next, edges, hdigit, isDigitOrPoint]
      · rfl
  rw [hstop] at hnext
  exact absurd hnext (by simp)

/-! ## Numbers and operators -/

/-- The numbers among the tokens of a text are those that are numbers by their kind. -/
theorem Token.Lexical.isSome_value?_iff {t : Token} (h : t.Lexical) :
    t.value?.isSome = true ↔ t.kind = .number := by
  refine ⟨fun hvalue => ?_, h.value?_isSome⟩
  cases hkind : t.kind with
  | number => rfl
  | name => exact absurd hvalue (by simp [h.value?_eq_none hkind])
  | operator | equals | bracket | malformed =>
    exact absurd hvalue (by simp [Token.value?, hkind])

/-- The operators among the tokens of a text are those that are operators or `=` by their kind. -/
theorem Token.Lexical.isSome_op?_iff {t : Token} (h : t.Lexical) :
    t.op?.isSome = true ↔ t.kind = .operator ∨ t.kind = .equals := by
  have hlexeme := String.ofList_toList (s := t.lexeme)
  cases hkind : t.kind with
  | operator =>
    obtain ⟨c, hc, hsingle⟩ := Pattern.mem_one.1 ((h.kind_iff .operator).1 hkind)
    rw [hsingle] at hlexeme
    rw [Token.op?, hkind, ← hlexeme]
    simp only [Set.mem_insert_iff, Set.mem_singleton_iff] at hc
    rcases hc with rfl | rfl | rfl | rfl | rfl <;> decide
  | equals =>
    obtain ⟨c, hc, hsingle⟩ := Pattern.mem_one.1 ((h.kind_iff .equals).1 hkind)
    rw [hsingle] at hlexeme
    rw [Token.op?, hkind, ← hlexeme]
    obtain rfl : c = '=' := hc
    decide
  | number | name | bracket | malformed => simp [Token.op?, hkind]

/-- **The pattern of a lexeme decides its kind.**  A token of a text is of a kind exactly if its
lexeme matches the pattern of that kind; it stands in the text where its place says, and the text
does not go on with it. It stands for a number exactly if it is a number by its kind, and for an
operator exactly if it is an operator or `=`. -/
theorem tokenize_patterns {text : String} {tokens : List Token} (h : tokenize text = .ok tokens) :
    ∀ t ∈ tokens,
      (∀ kind, t.kind = kind ↔ t.lexeme.toList ∈ kind.pattern) ∧
      (∃ before after, text.toList = before ++ t.lexeme.toList ++ after ∧
        t.span = ⟨before.length + 1, before.length + t.lexeme.toList.length⟩ ∧
        ∀ c ∈ after.head?, c ∉ t.kind.continuation) ∧
      (t.value?.isSome = true ↔ t.kind = .number) ∧
      (t.op?.isSome = true ↔ t.kind = .operator ∨ t.kind = .equals) := by
  intro t ht
  obtain ⟨s, before, after, hkind, hreads, htext, hspan, hstop⟩ := stands_of_tokenize h t ht
  have hlexical : t.Lexical := ⟨s, hkind, hreads⟩
  refine ⟨hlexical.kind_iff, ⟨before, after, htext, hspan, fun c hc => ?_⟩,
    hlexical.isSome_value?_iff, hlexical.isSome_op?_iff⟩
  exact Scanner.State.notMem_continuation hkind (hstop c hc)

/-- A number needs a digit after its point, and no name starts with a digit or a point. -/
theorem tokenize_patterns_point_at_the_end :
    tokenize "1.e_5=.5" = .ok [⟨.malformed, "1.", ⟨1, 2⟩⟩, ⟨.name, "e_5", ⟨3, 5⟩⟩,
        ⟨.equals, "=", ⟨6, 6⟩⟩, ⟨.number, ".5", ⟨7, 8⟩⟩] ∧
      "1.".toList ∈ Kind.malformed.pattern ∧ "1.".toList ∉ Kind.number.pattern ∧
      'e' ∉ Kind.malformed.continuation ∧ "e_5".toList ∈ Kind.name.pattern := by
  have h : tokenize "1.e_5=.5" = .ok [⟨.malformed, "1.", ⟨1, 2⟩⟩, ⟨.name, "e_5", ⟨3, 5⟩⟩,
      ⟨.equals, "=", ⟨6, 6⟩⟩, ⟨.number, ".5", ⟨7, 8⟩⟩] := by decide +kernel
  obtain ⟨hkind, ⟨before, after, htext, hspan, hstop⟩, -⟩ :=
    tokenize_patterns h ⟨.malformed, "1.", ⟨1, 2⟩⟩ (by simp)
  refine ⟨h, (hkind .malformed).1 rfl, fun hnumber => ?_, hstop 'e' ?_, ?_⟩
  · exact absurd ((hkind .number).2 hnumber) (by decide)
  · obtain rfl : before = [] := by
      have hlength : 1 = before.length + 1 := congrArg Span.first hspan
      exact List.length_eq_zero_iff.1 (by omega)
    have hsplit : "1.e_5=.5".toList = "1.".toList ++ "e_5=.5".toList := by decide +kernel
    have hafter : "e_5=.5".toList = after := List.append_cancel_left (hsplit.symm.trans htext)
    rw [← hafter]
    rfl
  · exact ((tokenize_patterns h ⟨.name, "e_5", ⟨3, 5⟩⟩ (by simp)).1 .name).1 rfl

end EquationNetwork
