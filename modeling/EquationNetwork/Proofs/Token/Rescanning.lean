import EquationNetwork.Proofs.Token.Lexemes

/-!
# Scanning a lexeme

How the automaton goes through a lexeme and what it makes of it, whatever comes after.

* `Scanner.scanFrom_reads` — **a lexeme leads to the state that reads it.**
* `Scanner.scanFrom_stop` — a token ends where the text does not go on with it.
* `Scanner.Yields` — a stretch of characters yields tokens, given what comes after it.
* `Scanner.yields_token` — **a lexeme that is set apart** is scanned as one token of its kind.
-/

namespace EquationNetwork.Scanner

/-! ## Classes of characters -/

/-- No visible character of ASCII is blank. -/
theorem isBlank_eq_false {c : Char} (hlow : 0x20 < c.toNat) (hhigh : c.toNat < 0x7F) :
    Text.isBlank c = false := by
  simp only [Text.isBlank, Text.inRanges, Text.blankRanges, List.any_cons, List.any_nil,
    Bool.or_false, Bool.or_eq_false_iff, Bool.and_eq_false_iff, decide_eq_false_iff_not]
  omega

theorem toNat_of_isLetter {c : Char} (h : isLetter c = true) :
    0x40 < c.toNat ∧ c.toNat < 0x7B := by
  simp only [isLetter, Char.isAlpha, Char.isUpper, Char.isLower, Bool.or_eq_true,
    Bool.and_eq_true, decide_eq_true_eq, ge_iff_le, UInt32.le_iff_toNat_le] at h
  have hA : 'A'.val.toNat = 65 := rfl
  have hZ : 'Z'.val.toNat = 90 := rfl
  have ha : 'a'.val.toNat = 97 := rfl
  have hz : 'z'.val.toNat = 122 := rfl
  show 0x40 < c.val.toNat ∧ c.val.toNat < 0x7B
  omega

theorem toNat_of_isDigit {c : Char} (h : c.isDigit = true) :
    0x2F < c.toNat ∧ c.toNat < 0x3A := by
  simp only [Char.isDigit, Bool.and_eq_true, decide_eq_true_eq, ge_iff_le,
    UInt32.le_iff_toNat_le] at h
  have h0 : '0'.val.toNat = 48 := rfl
  have h9 : '9'.val.toNat = 57 := rfl
  show 0x2F < c.val.toNat ∧ c.val.toNat < 0x3A
  omega

/-- No digit is a letter. -/
theorem isLetter_of_isDigit {c : Char} (h : c.isDigit = true) : isLetter c = false := by
  cases hletter : isLetter c with
  | false => rfl
  | true => exact absurd h (by simp [isDigit_of_isLetter hletter])

/-! ## Edges -/

namespace State

theorem next_start_letter {c : Char} (h : isLetter c = true) : start.next c = some name := by
  obtain ⟨hlow, hhigh⟩ := toNat_of_isLetter h
  have hblank : Text.isBlank c = false := isBlank_eq_false (by omega) (by omega)
  simp [next, edges, h, hblank]

theorem next_start_digit {c : Char} (h : c.isDigit = true) : start.next c = some whole := by
  obtain ⟨hlow, hhigh⟩ := toNat_of_isDigit h
  have hblank : Text.isBlank c = false := isBlank_eq_false (by omega) (by omega)
  have hne : ∀ d : Char, d.toNat < 0x30 ∨ 0x39 < d.toNat → c ≠ d := by
    rintro d hd rfl
    omega
  have hoperator : isOperator c = false := by simp [isOperator, hne]
  have hbracket : isBracket c = false := by simp [isBracket, hne]
  simp [next, edges, h, hblank, isLetter_of_isDigit h, hoperator, hbracket, hne]

theorem next_start_operator {c : Char} (h : isOperator c = true) :
    start.next c = some operator := by
  simp only [isOperator, List.contains_iff_mem, List.mem_cons, List.not_mem_nil, or_false] at h
  rcases h with rfl | rfl | rfl | rfl | rfl <;> decide

theorem next_start_bracket {c : Char} (h : isBracket c = true) : start.next c = some bracket := by
  simp only [isBracket, List.contains_iff_mem, List.mem_cons, List.not_mem_nil, or_false] at h
  rcases h with rfl | rfl | rfl | rfl <;> decide

theorem next_name {c : Char} (h : isNameChar c = true) : name.next c = some name := by
  simp [next, edges, h]

theorem next_whole {c : Char} (h : c.isDigit = true) : whole.next c = some whole := by
  simp [next, edges, h]

theorem next_point {c : Char} (h : c.isDigit = true) : point.next c = some fraction := by
  simp [next, edges, h]

theorem next_fraction {c : Char} (h : c.isDigit = true) : fraction.next c = some fraction := by
  simp [next, edges, h]

theorem next_malformed {c : Char} (h : isDigitOrPoint c = true) :
    malformed.next c = some malformed := by
  simp [next, edges, h]

/-- Nothing goes on with a bracket. -/
theorem next_bracket (c : Char) : bracket.next c = none := by
  simp [next, edges]

end State

/-- A state that reads a single character is the one that the character leads to. -/
theorem State.Reads.next_start {s : State} {c : Char} (h : s.Reads [c]) (hs : s ≠ .start) :
    State.start.next c = some s := by
  cases s with
  | start => exact absurd rfl hs
  | name =>
    obtain ⟨d, rest, hcs, hd, -⟩ := h
    cases hcs
    exact State.next_start_letter hd
  | operator =>
    obtain ⟨d, hcs, hd⟩ := h
    cases hcs
    exact State.next_start_operator hd
  | bracket =>
    obtain ⟨d, hcs, hd⟩ := h
    cases hcs
    exact State.next_start_bracket hd
  | equals =>
    cases h
    rfl
  | whole => exact State.next_start_digit (h.2 c (List.mem_singleton_self c))
  | point =>
    obtain ⟨whole, hcs, -⟩ := h
    obtain ⟨rfl, rfl⟩ : whole = [] ∧ '.' = c := by
      simpa using List.append_eq_singleton_iff.1 hcs.symm
    rfl
  | fraction =>
    obtain ⟨whole, fraction, hcs, hne, -⟩ := h
    have hlength := congrArg List.length hcs
    have := List.length_pos_iff.2 hne
    simp only [List.length_cons, List.length_nil, List.length_append] at hlength
    omega
  | malformed =>
    have hcount := h.2.trans List.count_le_length
    exact absurd hcount (by simp)

/-- The kind of a token of one character is told by the character. -/
theorem kind_of_lexeme {t : Token} {c : Char} (ht : t.Lexical) (h : t.lexeme.toList = [c]) :
    (State.start.next c).bind State.kind? = some t.kind := by
  obtain ⟨s, hs, hreads⟩ := ht
  rw [h] at hreads
  have hstart : s ≠ .start := by
    rintro rfl
    exact absurd hs (by simp [State.kind?])
  rw [hreads.next_start hstart, Option.bind_some, hs]

/-- The character may follow any token that is complete: a blank, or a closing bracket. -/
def Separates (c : Char) : Prop := c = ' ' ∨ c = ')'

theorem State.next_of_separates {s : State} {c : Char} (hs : s ≠ .start) (hc : Separates c) :
    s.next c = none := by
  rcases hc with rfl | rfl
  · revert hs
    cases s <;> decide
  · revert hs
    cases s <;> decide

/-! ## Runs over a lexeme -/

/-- The cursor after more characters of a lexeme, in the state that they lead to. -/
def Cursor.after (cursor : Cursor) (s : State) (cs : List Char) : Cursor :=
  ⟨s, cursor.lexeme ++ String.ofList cs, cursor.position + cs.length⟩

theorem Cursor.after_after (cursor : Cursor) (s s' : State) (cs ds : List Char) :
    (cursor.after s cs).after s' ds = cursor.after s' (cs ++ ds) := by
  simp [after, String.append_assoc, Nat.add_assoc]

theorem Cursor.feed_of_next {cursor : Cursor} {s : State} {c : Char}
    (h : cursor.state.next c = some s) (hs : s ≠ .start) :
    cursor.feed c = some (cursor.after s [c]) := by
  simp [feed, h, hs, after]

/-- Characters that lead back to a state are added to the lexeme. -/
theorem scanFrom_loop {s : State} (hs : s ≠ .start) {ds : List Char} (rest : List Char) :
    ∀ cursor : Cursor, cursor.state = s → (∀ d ∈ ds, s.next d = some s) →
      scanFrom cursor (ds ++ rest) = scanFrom (cursor.after s ds) rest := by
  induction ds with
  | nil =>
    rintro ⟨state, lexeme, position⟩ rfl _
    simp [Cursor.after]
  | cons d ds ih =>
    intro cursor hstate h
    obtain ⟨hd, hds⟩ := List.forall_mem_cons.1 h
    rw [List.cons_append, scanFrom, Cursor.feed_of_next (hstate ▸ hd) hs]
    dsimp only
    rw [ih _ rfl hds, Cursor.after_after, List.singleton_append]

/-- A character leads to a state and the next ones back to it. -/
theorem scanFrom_run {cursor : Cursor} {s : State} {c : Char} {ds : List Char}
    (h : cursor.state.next c = some s) (hs : s ≠ .start) (hds : ∀ d ∈ ds, s.next d = some s)
    (rest : List Char) :
    scanFrom cursor (c :: ds ++ rest) = scanFrom (cursor.after s (c :: ds)) rest := by
  rw [List.cons_append, scanFrom, Cursor.feed_of_next h hs]
  dsimp only
  rw [scanFrom_loop hs rest _ rfl hds, Cursor.after_after, List.singleton_append]

/-- Digits lead to a point, and a point alone does. -/
theorem scanFrom_point {digits : List Char} (hdigits : ∀ d ∈ digits, d.isDigit = true)
    (position : Nat) (rest : List Char) :
    scanFrom (.atRest position) (digits ++ '.' :: rest) =
      scanFrom ((Cursor.atRest position).after .point (digits ++ ['.'])) rest := by
  cases digits with
  | nil => exact scanFrom_run rfl (by simp) (List.forall_mem_nil _) rest
  | cons c ds =>
    obtain ⟨hc, hds⟩ := List.forall_mem_cons.1 hdigits
    rw [scanFrom_run (State.next_start_digit hc) (by simp) fun d hd => State.next_whole (hds d hd),
      ← Cursor.after_after _ .whole]
    exact scanFrom_run rfl (by simp) (List.forall_mem_nil _) rest

/-- Digits and points without a point are digits. -/
theorem isDigit_of_isDigitOrPoint {cs : List Char} (hcs : ∀ c ∈ cs, isDigitOrPoint c = true)
    (hpoint : '.' ∉ cs) : ∀ c ∈ cs, c.isDigit = true := by
  intro c hc
  have hne : c ≠ '.' := fun heq => hpoint (heq ▸ hc)
  simpa [isDigitOrPoint, hne] using hcs c hc

/-- A malformed run has two points with digits before each of them. -/
theorem State.Reads.exists_points {lexeme : List Char} (h : State.malformed.Reads lexeme) :
    ∃ digits fraction tail, lexeme = digits ++ '.' :: (fraction ++ '.' :: tail) ∧
      (∀ c ∈ digits, c.isDigit = true) ∧ (∀ c ∈ fraction, c.isDigit = true) ∧
        ∀ c ∈ tail, isDigitOrPoint c = true := by
  obtain ⟨hchars, hpoints⟩ := h
  obtain ⟨digits, more, rfl, hdigits⟩ :=
    List.eq_append_cons_of_mem (List.count_pos_iff.1 (Nat.zero_lt_of_lt hpoints))
  rw [List.count_append, List.count_cons_self, List.count_eq_zero.2 hdigits] at hpoints
  obtain ⟨fraction, tail, rfl, hfraction⟩ :=
    List.eq_append_cons_of_mem (List.count_pos_iff.1 (show 0 < more.count '.' by omega))
  simp only [List.forall_mem_append, List.forall_mem_cons] at hchars
  obtain ⟨hdigitChars, -, hfractionChars, -, htail⟩ := hchars
  exact ⟨digits, fraction, tail, rfl, isDigit_of_isDigitOrPoint hdigitChars hdigits,
    isDigit_of_isDigitOrPoint hfractionChars hfraction, htail⟩

/-- A malformed run leads past its two points, and the rest of it leads nowhere else. -/
theorem scanFrom_malformed {lexeme : List Char} (h : State.malformed.Reads lexeme)
    (position : Nat) (rest : List Char) :
    scanFrom (.atRest position) (lexeme ++ rest) =
      scanFrom ((Cursor.atRest position).after .malformed lexeme) rest := by
  obtain ⟨digits, fraction, tail, rfl, hdigits, hfraction, htail⟩ := h.exists_points
  have hloop : ∀ c ∈ tail, State.malformed.next c = some .malformed :=
    fun c hc => State.next_malformed (htail c hc)
  rw [List.append_assoc, List.cons_append, scanFrom_point hdigits]
  cases fraction with
  | nil =>
    rw [List.nil_append, List.append_cons digits '.' ('.' :: tail),
      ← Cursor.after_after _ .point .malformed]
    exact scanFrom_run rfl (by simp) hloop rest
  | cons c ds =>
    obtain ⟨hc, hds⟩ := List.forall_mem_cons.1 hfraction
    rw [List.append_assoc, scanFrom_run (State.next_point hc) (by simp)
      fun d hd => State.next_fraction (hds d hd), Cursor.after_after,
      List.append_cons digits '.' (c :: ds ++ '.' :: tail), ← List.append_assoc,
      ← Cursor.after_after _ .fraction .malformed]
    exact scanFrom_run rfl (by simp) hloop rest

/-- **A lexeme leads to the state that reads it.** -/
theorem scanFrom_reads {s : State} {lexeme : List Char} (h : s.Reads lexeme)
    (hs : s ≠ .start) (position : Nat) (rest : List Char) :
    scanFrom (.atRest position) (lexeme ++ rest) =
      scanFrom ((Cursor.atRest position).after s lexeme) rest := by
  cases s with
  | start => exact absurd rfl hs
  | name =>
    obtain ⟨c, ds, rfl, hc, hds⟩ := h
    exact scanFrom_run (State.next_start_letter hc) (by simp)
      (fun d hd => State.next_name (hds d hd)) rest
  | operator =>
    obtain ⟨c, rfl, hc⟩ := h
    exact scanFrom_run (State.next_start_operator hc) (by simp) (by simp) rest
  | bracket =>
    obtain ⟨c, rfl, hc⟩ := h
    exact scanFrom_run (State.next_start_bracket hc) (by simp) (by simp) rest
  | equals =>
    obtain rfl : lexeme = ['='] := h
    exact scanFrom_run rfl (by simp) (by simp) rest
  | whole =>
    obtain ⟨hne, hdigits⟩ := h
    obtain ⟨c, ds, rfl⟩ := List.exists_cons_of_ne_nil hne
    obtain ⟨hc, hds⟩ := List.forall_mem_cons.1 hdigits
    exact scanFrom_run (State.next_start_digit hc) (by simp)
      (fun d hd => State.next_whole (hds d hd)) rest
  | point =>
    obtain ⟨digits, rfl, hdigits⟩ := h
    rw [List.append_assoc, List.singleton_append]
    exact scanFrom_point hdigits position rest
  | fraction =>
    obtain ⟨digits, fraction, rfl, hne, hdigits, hfraction⟩ := h
    obtain ⟨c, ds, rfl⟩ := List.exists_cons_of_ne_nil hne
    obtain ⟨hc, hds⟩ := List.forall_mem_cons.1 hfraction
    rw [List.append_assoc, List.cons_append, scanFrom_point hdigits,
      List.append_cons digits '.' (c :: ds), ← Cursor.after_after _ .point .fraction]
    exact scanFrom_run (State.next_point hc) (by simp)
      (fun d hd => State.next_fraction (hds d hd)) rest
  | malformed => exact scanFrom_malformed h position rest

/-! ## Tokens set apart -/

/-- A scan with more tokens before it. -/
def Scan.prepend (tokens : List Token) (scan : Scan) : Scan :=
  { scan with tokens := tokens ++ scan.tokens }

@[simp] theorem Cursor.position_atRest (position : Nat) : (atRest position).position = position :=
  rfl

@[simp] theorem Cursor.token?_atRest (position : Nat) : (atRest position).token? = none := rfl

/-- A token ends where the text does not go on with it. -/
theorem scanFrom_stop {cursor : Cursor} {rest : List Char}
    (h : ∀ c ∈ rest.head?, cursor.state.next c = none) :
    scanFrom cursor rest =
      (scanFrom (.atRest cursor.position) rest).prepend cursor.token?.toList := by
  cases rest with
  | nil => simp [scanFrom, Scan.prepend]
  | cons c rest =>
    have hfeed : cursor.feed c = none := by simp [Cursor.feed, h c rfl]
    rw [scanFrom, hfeed, scanFrom, Cursor.position_atRest]
    cases (Cursor.atRest cursor.position).feed c with
    | some fresh => rfl
    | none => simp [Scan.prepend]

/-- At rest at the first place, the characters yield the tokens and lead to rest at the second
place, where `rest` comes after them. -/
def Yields (position : Nat) (cs rest : List Char) (position' : Nat) (tokens : List Token) : Prop :=
  scanFrom (.atRest position) (cs ++ rest) = (scanFrom (.atRest position') rest).prepend tokens

theorem Yields.trans {position position' position'' : Nat} {cs ds rest : List Char}
    {tokens more : List Token} (h : Yields position cs (ds ++ rest) position' tokens)
    (h' : Yields position' ds rest position'' more) :
    Yields position (cs ++ ds) rest position'' (tokens ++ more) := by
  rw [Yields, List.append_assoc, h, h']
  simp [Scan.prepend]

/-- A blank is passed over. -/
theorem yields_blank (position : Nat) (rest : List Char) :
    Yields position [' '] rest (position + 1) [] := rfl

/-- **A lexeme that is set apart** is scanned as one token of its kind. -/
theorem yields_token {t : Token} (h : t.Lexical) (position : Nat) {rest : List Char}
    (hrest : t.kind = .bracket ∨ ∀ c ∈ rest.head?, Separates c) :
    ∃ span position', Yields position t.lexeme.toList rest position' [{ t with span := span }] := by
  obtain ⟨s, hs, hreads⟩ := h
  have hstart : s ≠ .start := by
    rintro rfl
    exact absurd hs (by simp [State.kind?])
  have hstop : ∀ c ∈ rest.head?, s.next c = none := by
    rcases hrest with hbracket | hrest
    · obtain rfl : s = .bracket := by
        rw [hbracket] at hs
        revert hs
        cases s <;> decide
      exact fun c _ => State.next_bracket c
    · exact fun c hc => State.next_of_separates hstart (hrest c hc)
  have htoken : ((Cursor.atRest position).after s t.lexeme.toList).token? =
      some ⟨t.kind, t.lexeme, ⟨position + 1, position + t.lexeme.toList.length⟩⟩ := by
    have hposition : ((Cursor.atRest position).after s t.lexeme.toList).position =
        position + ((Cursor.atRest position).after s t.lexeme.toList).lexeme.toList.length := by
      simp [Cursor.after, Cursor.atRest]
    rw [Cursor.token?, Cursor.span_eq _ hposition]
    simp [Cursor.after, Cursor.atRest, hs]
  refine ⟨⟨position + 1, position + t.lexeme.toList.length⟩, position + t.lexeme.toList.length, ?_⟩
  rw [Yields, scanFrom_reads hreads hstart, scanFrom_stop hstop, htoken]
  rfl

end EquationNetwork.Scanner
