import EquationNetwork.Proofs.Token.Rescanning
import EquationNetwork.Proofs.Token.Segmentation

/-!
# Blanks separate texts

What stands on the two sides of a blank is scanned as if it stood alone.

* `Scanner.scanFrom_shift` — **scanning does not depend on where it starts**: all places are moved
  along.
* `Scanner.State.next_blank` — a blank ends every token.
* `Scanner.Scan.andThen` — one scan after another: the first error ends both.
* `Scanner.scanFrom_append_blank` — **a blank cuts a scan in two**, wherever it comes.
* `tokenize_append_blanks` — **the tokens and errors of two texts** with blanks between them.
-/

namespace EquationNetwork

/-! ## Places moved along -/

/-- A token that comes later in a text. -/
def Token.shift (t : Token) (distance : Nat) : Token :=
  { t with span := ⟨t.span.first + distance, t.span.last + distance⟩ }

/-- An error that comes later in a text. -/
def ScanError.shift (distance : Nat) : ScanError → ScanError
  | unexpectedCharacter c position => unexpectedCharacter c (position + distance)

namespace Scanner

/-- A scan of what comes later in a text. -/
def Scan.shift (scan : Scan) (distance : Nat) : Scan :=
  ⟨scan.tokens.map (·.shift distance), scan.error?.map (·.shift distance)⟩

def Cursor.shift (cursor : Cursor) (distance : Nat) : Cursor :=
  { cursor with position := cursor.position + distance }

theorem Cursor.feed_shift (cursor : Cursor) (distance : Nat) (c : Char) :
    (cursor.shift distance).feed c = (cursor.feed c).map (·.shift distance) := by
  rw [feed, feed, Option.map_map]
  refine congrArg (fun f => (cursor.state.next c).map f) (funext fun s => ?_)
  simp [shift, Nat.add_right_comm]

/-- A lexeme lies inside the text that is behind. -/
theorem Cursor.length_feed {cursor longer : Cursor} {c : Char}
    (h : cursor.lexeme.length ≤ cursor.position) (hfeed : cursor.feed c = some longer) :
    longer.lexeme.length ≤ longer.position := by
  obtain ⟨s, -, rfl⟩ := Option.map_eq_some_iff.1 hfeed
  by_cases hs : s = .start
  · simp [hs]
  · simpa [hs] using h

theorem Cursor.token?_shift {cursor : Cursor} (h : cursor.lexeme.length ≤ cursor.position)
    (distance : Nat) :
    (cursor.shift distance).token? = cursor.token?.map (·.shift distance) := by
  rw [token?, token?, Option.map_map]
  refine congrArg (fun f => cursor.state.kind?.map f) (funext fun kind => ?_)
  simp only [shift, Token.shift, Function.comp_apply]
  congr 2
  omega

/-- **Scanning does not depend on where it starts.** -/
theorem scanFrom_shift (distance : Nat) {cs : List Char} :
    ∀ {cursor : Cursor}, cursor.lexeme.length ≤ cursor.position →
      scanFrom (cursor.shift distance) cs = (scanFrom cursor cs).shift distance := by
  induction cs with
  | nil =>
    intro cursor h
    simp [scanFrom, Scan.shift, Cursor.token?_shift h, Option.toList_map]
  | cons c cs ih =>
    intro cursor h
    rw [scanFrom, scanFrom, Cursor.feed_shift, Cursor.token?_shift h]
    have hrest : Cursor.atRest (cursor.shift distance).position =
        (Cursor.atRest cursor.position).shift distance := rfl
    rw [hrest, Cursor.feed_shift]
    cases hfeed : cursor.feed c with
    | some longer => exact ih (Cursor.length_feed h hfeed)
    | none =>
      cases hfresh : (Cursor.atRest cursor.position).feed c with
      | some fresh =>
        have hfresh_length := Cursor.length_feed (Nat.zero_le _) hfresh
        simp [Scan.before, Scan.shift, ih hfresh_length, Option.toList_map]
      | none =>
        simp [Scan.shift, ScanError.shift, Cursor.shift, Option.toList_map, Nat.add_right_comm]

/-! ## Blanks -/

/-- No character of a name or a number is blank. -/
theorem isBlank_of_isNameChar {c : Char} (h : isNameChar c = true ∨ c = '.') :
    Text.isBlank c = false := by
  have hclass : isLetter c = true ∨ c.isDigit = true ∨ c = '_' ∨ c = '.' := by
    simpa [isNameChar, isLetter, Char.isAlphanum, or_assoc] using h
  rcases hclass with hletter | hdigit | rfl | rfl
  · obtain ⟨hlow, hhigh⟩ := toNat_of_isLetter hletter
    exact isBlank_eq_false (by omega) (by omega)
  · obtain ⟨hlow, hhigh⟩ := toNat_of_isDigit hdigit
    exact isBlank_eq_false (by omega) (by omega)
  · decide
  · decide

namespace State

/-- A blank at the start is passed over. -/
theorem next_start_blank {c : Char} (h : Text.isBlank c = true) : start.next c = some start := by
  simp [next, edges, h]

/-- A blank ends every token. -/
theorem next_blank {s : State} {c : Char} (hs : s ≠ .start) (h : Text.isBlank c = true) :
    s.next c = none := by
  have hclass : ¬ (isNameChar c = true ∨ c = '.') := by
    intro hclass
    exact absurd h (by simp [isBlank_of_isNameChar hclass])
  obtain ⟨hname, hpoint⟩ := not_or.1 hclass
  have hdigit : c.isDigit = false := by
    rw [Bool.eq_false_iff]
    intro hdigit
    exact hname (by simp [isNameChar, Char.isAlphanum, hdigit])
  cases s with
  | start => exact absurd rfl hs
  | name => simp [next, edges, hname]
  | operator | bracket | equals => simp [next, edges]
  | whole | point | fraction | malformed => simp [next, edges, isDigitOrPoint, hdigit, hpoint]

end State

@[simp] theorem Scan.prepend_nil (scan : Scan) : scan.prepend [] = scan := rfl

/-- A blank ends the token before it and leaves nothing. -/
theorem scanFrom_blank {b : Char} (hb : Text.isBlank b = true) (cursor : Cursor)
    (rest : List Char) :
    scanFrom cursor (b :: rest) =
      (scanFrom (.atRest (cursor.position + 1)) rest).prepend cursor.token?.toList := by
  have hfeed : ∀ cursor : Cursor, cursor.state = .start →
      cursor.feed b = some (.atRest (cursor.position + 1)) := by
    intro cursor hs
    simp [Cursor.feed, Cursor.atRest, hs, State.next_start_blank hb]
  by_cases hs : cursor.state = .start
  · have htoken : cursor.token? = none := by simp [Cursor.token?, hs, State.kind?]
    rw [scanFrom, hfeed cursor hs, htoken, Option.toList_none, Scan.prepend_nil]
  · have hstop : ∀ c ∈ (b :: rest).head?, cursor.state.next c = none := by
      rintro c ⟨⟩
      exact State.next_blank hs hb
    rw [scanFrom_stop hstop, scanFrom, hfeed (.atRest cursor.position) rfl,
      Cursor.position_atRest]

/-- Any number of blanks leave nothing. -/
theorem scanFrom_blanks {blanks : List Char} (hblanks : ∀ b ∈ blanks, Text.isBlank b = true)
    (rest : List Char) : ∀ position, scanFrom (.atRest position) (blanks ++ rest) =
      scanFrom (.atRest (position + blanks.length)) rest := by
  induction blanks with
  | nil => exact fun position => rfl
  | cons b blanks ih =>
    intro position
    obtain ⟨hb, hblanks⟩ := List.forall_mem_cons.1 hblanks
    rw [List.cons_append, scanFrom_blank hb, Cursor.token?_atRest, Option.toList_none,
      Scan.prepend_nil, Cursor.position_atRest, ih hblanks, List.length_cons, Nat.add_assoc,
      Nat.add_comm 1]

/-! ## Two texts -/

/-- One scan after another: the first error ends both. -/
def Scan.andThen (scan next : Scan) : Scan :=
  match scan.error? with
  | some _ => scan
  | none => next.prepend scan.tokens

theorem Scan.before_andThen (scan next : Scan) (token? : Option Token) :
    (scan.before token?).andThen next = (scan.andThen next).before token? := by
  obtain ⟨tokens, error?⟩ := scan
  cases error? with
  | some error => rfl
  | none => simp [before, andThen, prepend]

/-- **A blank cuts a scan in two.** -/
theorem scanFrom_append_blank {b : Char} (hb : Text.isBlank b = true) (rest : List Char)
    {cs : List Char} : ∀ cursor : Cursor, scanFrom cursor (cs ++ b :: rest) =
      (scanFrom cursor cs).andThen
        (scanFrom (.atRest (cursor.position + cs.length + 1)) rest) := by
  induction cs with
  | nil => exact fun cursor => scanFrom_blank hb cursor rest
  | cons c cs ih =>
    intro cursor
    have hlength : cursor.position + (c :: cs).length + 1 =
        cursor.position + 1 + cs.length + 1 := by
      rw [List.length_cons]
      omega
    rw [List.cons_append, scanFrom, scanFrom, hlength]
    cases hfeed : cursor.feed c with
    | some longer =>
      dsimp only
      rw [ih, Cursor.position_feed hfeed]
    | none =>
      cases hfresh : (Cursor.atRest cursor.position).feed c with
      | some fresh =>
        dsimp only
        rw [ih, Cursor.position_feed hfresh, Scan.before_andThen, Cursor.position_atRest]
      | none => rfl

/-- What stands on the two sides of blanks is scanned as if it stood alone. -/
theorem scan_append_blanks {blanks : String} (hne : blanks ≠ "")
    (hblanks : ∀ b ∈ blanks.toList, Text.isBlank b = true) (left right : String) :
    scan (left ++ blanks ++ right) =
      (scan left).andThen ((scan right).shift (left.length + blanks.length)) := by
  obtain ⟨b, bs, hcons⟩ := List.exists_cons_of_ne_nil (mt String.toList_eq_nil_iff.1 hne)
  rw [hcons] at hblanks
  obtain ⟨hb, hbs⟩ := List.forall_mem_cons.1 hblanks
  have hplace : left.length + 1 + bs.length = left.length + blanks.length := by
    rw [← String.length_toList (s := blanks), hcons, List.length_cons]
    omega
  have hstart : Cursor.atRest (left.length + blanks.length) =
      (Cursor.atRest 0).shift (left.length + blanks.length) := by
    simp [Cursor.atRest, Cursor.shift]
  rw [scan, String.toList_append, String.toList_append, hcons, List.append_assoc, List.cons_append,
    scanFrom_append_blank hb, scanFrom_blanks hbs, Cursor.position_atRest, Nat.zero_add,
    String.length_toList, hplace, hstart, scanFrom_shift _ (Nat.zero_le _)]
  rfl

end Scanner

/-- **Blanks separate texts.**  Between two texts that have tokens, blanks only move the places of
the second one's tokens along. An error in the first text stays where it is, whatever follows, and
an error in the second one moves along with its text. -/
theorem tokenize_append_blanks {blanks : String} (hne : blanks ≠ "")
    (hblanks : ∀ b ∈ blanks.toList, Text.isBlank b = true) (left right : String) :
    (∀ ts us, tokenize left = .ok ts → tokenize right = .ok us →
      tokenize (left ++ blanks ++ right) =
        .ok (ts ++ us.map (·.shift (left.length + blanks.length)))) ∧
    (∀ c position, tokenize left = .error (.unexpectedCharacter c position) →
      tokenize (left ++ blanks ++ right) = .error (.unexpectedCharacter c position)) ∧
    ∀ ts c position, tokenize left = .ok ts →
      tokenize right = .error (.unexpectedCharacter c position) →
      tokenize (left ++ blanks ++ right) =
        .error (.unexpectedCharacter c (position + (left.length + blanks.length))) := by
  have hscan := Scanner.scan_append_blanks hne hblanks left right
  refine ⟨fun ts us hleft hright => ?_, fun c position hleft => ?_,
    fun ts c position hleft hright => ?_⟩
  · obtain ⟨hleft_none, rfl⟩ := tokenize_eq_ok_iff.1 hleft
    obtain ⟨hright_none, rfl⟩ := tokenize_eq_ok_iff.1 hright
    rw [tokenize_eq_ok_iff, hscan, Scanner.Scan.andThen, hleft_none]
    exact ⟨by simp [Scanner.Scan.prepend, Scanner.Scan.shift, hright_none], rfl⟩
  · have hleft_error := tokenize_eq_error_iff.1 hleft
    rw [tokenize_eq_error_iff, hscan, Scanner.Scan.andThen, hleft_error]
    exact hleft_error
  · obtain ⟨hleft_none, -⟩ := tokenize_eq_ok_iff.1 hleft
    have hright_error := tokenize_eq_error_iff.1 hright
    rw [tokenize_eq_error_iff, hscan, Scanner.Scan.andThen, hleft_none]
    simp [Scanner.Scan.prepend, Scanner.Scan.shift, hright_error, ScanError.shift]

/-- Without the blanks both points would be in one token, and the underscore in a name. -/
theorem tokenize_append_blanks_points :
    tokenize ("a1." ++ "\t\u3000" ++ ".5") =
        .ok [⟨.name, "a1", ⟨1, 2⟩⟩, ⟨.malformed, ".", ⟨3, 3⟩⟩, ⟨.number, ".5", ⟨6, 7⟩⟩] ∧
      tokenize ("a1" ++ "\t\u3000" ++ "_") = .error (.unexpectedCharacter '_' 5) ∧
      tokenize ("_" ++ "\t\u3000" ++ "_") = .error (.unexpectedCharacter '_' 1) := by
  have hblanks : ∀ b ∈ "\t\u3000".toList, Text.isBlank b = true := by
    rw [← List.all_eq_true]
    rfl
  have hne : "\t\u3000" ≠ "" := by decide
  have hseparate := tokenize_append_blanks hne hblanks
  have hthree : "a1.".length + "\t\u3000".length = 5 := by decide +kernel
  have htwo : "a1".length + "\t\u3000".length = 4 := by decide +kernel
  have htokens := (hseparate "a1." ".5").1 [⟨.name, "a1", ⟨1, 2⟩⟩, ⟨.malformed, ".", ⟨3, 3⟩⟩]
    [⟨.number, ".5", ⟨1, 2⟩⟩] (by decide +kernel) (by decide +kernel)
  have herror := (hseparate "a1" "_").2.2 [⟨.name, "a1", ⟨1, 2⟩⟩] '_' 1 (by decide +kernel)
    (by decide +kernel)
  rw [hthree] at htokens
  rw [htwo] at herror
  exact ⟨htokens, herror, (hseparate "_" "_").2.1 '_' 1 (by decide +kernel)⟩

end EquationNetwork
