import EquationNetwork.Proofs.Token.Lexemes

/-!
# Scanning cuts a text into its tokens

Nothing but blanks is left out by scanning, nothing is changed, and scanning stops at the first
character that no text can have there.

* `Cut` — the characters after a position are blanks and the lexemes of tokens, in this order.
* `Scanner.cut_of_scanFrom` — **a scan without an error** is such a cut.
* `Segments` — the same told by the places of the tokens: they lie in the text, one after the other,
  each holds its lexeme, and outside of them there are only blanks.
* `Scanner.scanFrom_error` — **a scan with an error** stops at a character that starts no token,
  however the text goes on; what is before it is scanned without an error.
-/

namespace EquationNetwork

/-! ## Places -/

/-- The position is one of the place. -/
def Span.Covers (span : Span) (position : Nat) : Prop :=
  span.first ≤ position ∧ position ≤ span.last

/-- The characters at a place of a text. -/
def Span.chars (span : Span) (text : List Char) : List Char :=
  (text.drop (span.first - 1)).take (span.last + 1 - span.first)

/-- The tokens are what stands in the text after a position, apart from blanks. -/
structure Segments (position : Nat) (text : List Char) (tokens : List Token) : Prop where
  /-- Every token has a place of at least one character, inside the text. -/
  inside : ∀ t ∈ tokens,
    position < t.span.first ∧ t.span.first ≤ t.span.last ∧ t.span.last ≤ text.length
  /-- The places follow one another and do not overlap. -/
  ordered : tokens.Pairwise fun t t' => t.span.last < t'.span.first
  lexemes : ∀ t ∈ tokens, t.lexeme.toList = t.span.chars text
  /-- What no token covers is blank. -/
  blanks : ∀ i c, position ≤ i → text[i]? = some c →
    (∀ t ∈ tokens, ¬ t.span.Covers (i + 1)) → Text.isBlank c = true

/-! ## Cuts -/

/-- The characters, which come after a position, are blanks and the lexemes of the tokens. -/
inductive Cut : Nat → List Char → List Token → Prop where
  | nil (position : Nat) : Cut position [] []
  | blank {position : Nat} {c : Char} {cs : List Char} {tokens : List Token}
      (hc : Text.isBlank c = true) (h : Cut (position + 1) cs tokens) :
      Cut position (c :: cs) tokens
  | token {position : Nat} {t : Token} {cs : List Char} {tokens : List Token}
      (hne : t.lexeme.toList ≠ [])
      (hspan : t.span = ⟨position + 1, position + t.lexeme.toList.length⟩)
      (h : Cut (position + t.lexeme.toList.length) cs tokens) :
      Cut position (t.lexeme.toList ++ cs) (t :: tokens)

/-- The places of the tokens of a cut. -/
theorem Cut.segments {position : Nat} {cs : List Char} {tokens : List Token}
    (h : Cut position cs tokens) :
    ∀ before : List Char, before.length = position → Segments position (before ++ cs) tokens := by
  induction h with
  | nil position =>
    rintro before rfl
    refine ⟨by simp, .nil, by simp, fun i c hi hc => ?_⟩
    have hlength : i < (before ++ []).length := (List.getElem?_eq_some_iff.1 hc).1
    simp only [List.append_nil] at hlength
    omega
  | @blank position c cs tokens hc _ ih =>
    intro before hbefore
    have hrest := ih (before ++ [c]) (by simp [hbefore])
    rw [List.append_assoc, List.singleton_append] at hrest
    refine ⟨fun t ht => ?_, hrest.ordered, hrest.lexemes, fun i d hi hd hout => ?_⟩
    · obtain ⟨hfirst, hinside⟩ := hrest.inside t ht
      exact ⟨by omega, hinside⟩
    · rcases Nat.eq_or_lt_of_le hi with rfl | hi
      · obtain rfl : c = d := by simpa [← hbefore] using hd
        exact hc
      · exact hrest.blanks i d hi hd hout
  | @token position t cs tokens hne hspan _ ih =>
    intro before hbefore
    have hrest := ih (before ++ t.lexeme.toList) (by simp [hbefore])
    rw [List.append_assoc] at hrest
    have hpos : 0 < t.lexeme.toList.length := List.length_pos_iff.2 hne
    have hfirst : t.span.first = position + 1 := by rw [hspan]
    have hlast : t.span.last = position + t.lexeme.toList.length := by rw [hspan]
    refine ⟨List.forall_mem_cons.2 ⟨?_, fun t' ht' => ?_⟩,
      List.pairwise_cons.2 ⟨fun t' ht' => ?_, hrest.ordered⟩,
      List.forall_mem_cons.2 ⟨?_, hrest.lexemes⟩, fun i c hi hc hout => ?_⟩
    · simp only [List.length_append]
      omega
    · obtain ⟨hfirst', hinside⟩ := hrest.inside t' ht'
      exact ⟨by omega, hinside⟩
    · have := (hrest.inside t' ht').1
      omega
    · have hstart : t.span.first - 1 = before.length := by omega
      have hwidth : t.span.last + 1 - t.span.first = t.lexeme.toList.length := by omega
      rw [Span.chars, hstart, hwidth, List.drop_left, List.take_left]
    · obtain ⟨houtside, hout⟩ := List.forall_mem_cons.1 hout
      have hafter : position + t.lexeme.toList.length ≤ i := by
        simp only [Span.Covers] at houtside
        omega
      exact hrest.blanks i c hafter hc hout

/-! ## A scan without an error -/

namespace Scanner

/-- Only a blank leads back to the start, and only from there. -/
theorem State.next_eq_start {s : State} {c : Char} (h : s.next c = some .start) :
    s = .start ∧ Text.isBlank c = true := by
  obtain ⟨e, he, hsource, haccepts, htarget⟩ := exists_edge_of_next h
  subst hsource
  simp only [edges, List.mem_cons, List.not_mem_nil, or_false] at he
  rcases he with rfl | rfl | rfl | rfl | rfl | rfl | rfl | rfl | rfl | rfl | rfl | rfl | rfl | rfl |
    rfl
  · exact ⟨rfl, haccepts⟩
  all_goals exact absurd htarget (by decide)

/-- Only at the start is nothing read yet. -/
theorem State.Reads.ne_nil {s : State} {cs : List Char} (h : s.Reads cs) (hs : s ≠ .start) :
    cs ≠ [] := by
  cases s with
  | start => exact absurd rfl hs
  | name =>
    obtain ⟨c, rest, rfl, -⟩ := h
    simp
  | operator | bracket =>
    obtain ⟨c, rfl, -⟩ := h
    simp
  | equals =>
    obtain rfl : cs = ['='] := h
    simp
  | whole => exact h.1
  | point =>
    obtain ⟨whole, rfl, -⟩ := h
    simp
  | fraction =>
    obtain ⟨whole, fraction, rfl, -⟩ := h
    simp
  | malformed =>
    rintro rfl
    exact absurd h.2 (by simp)

/-- What a cursor takes on stays part of the cut. -/
theorem cut_of_feed {cursor longer : Cursor} {c : Char} {cs : List Char} {tokens : List Token}
    {position : Nat} (hreads : cursor.state.Reads cursor.lexeme.toList)
    (hfeed : cursor.feed c = some longer)
    (hposition : cursor.position = position + cursor.lexeme.toList.length)
    (h : ∀ position, longer.position = position + longer.lexeme.toList.length →
      Cut position (longer.lexeme.toList ++ cs) tokens) :
    Cut position (cursor.lexeme.toList ++ c :: cs) tokens := by
  obtain ⟨s, hnext, rfl⟩ := Option.map_eq_some_iff.1 hfeed
  by_cases hs : s = .start
  · subst hs
    obtain ⟨hstart, hblank⟩ := State.next_eq_start hnext
    have hnil : cursor.lexeme.toList = [] := by rwa [hstart] at hreads
    rw [hnil, List.length_nil, Nat.add_zero] at hposition
    rw [hnil]
    exact .blank hblank (by simpa [hposition] using h (position + 1))
  · have hcut := h position (by simp [hs, hposition]; omega)
    simpa [hs] using hcut

/-- The token that ends where a cursor stands comes first in the cut. -/
theorem cut_of_token? {cursor : Cursor} {cs : List Char} {tokens : List Token} {position : Nat}
    (hreads : cursor.state.Reads cursor.lexeme.toList)
    (hposition : cursor.position = position + cursor.lexeme.toList.length)
    (h : Cut cursor.position cs tokens) :
    Cut position (cursor.lexeme.toList ++ cs) (cursor.token?.toList ++ tokens) := by
  cases hkind : cursor.state.kind? with
  | none =>
    have hstart : cursor.state = .start := by
      revert hkind
      cases cursor.state <;> decide
    have hnil : cursor.lexeme.toList = [] := by rwa [hstart] at hreads
    rw [hnil, List.length_nil, Nat.add_zero] at hposition
    rw [hnil, Cursor.token?, hkind, ← hposition]
    exact h
  | some kind =>
    have hs : cursor.state ≠ .start := by
      intro hs
      rw [hs] at hkind
      exact absurd hkind (by simp [State.kind?])
    rw [Cursor.token?, hkind, cursor.span_eq hposition]
    rw [hposition] at h
    exact Cut.token (t := ⟨kind, cursor.lexeme, _⟩) (hreads.ne_nil hs) rfl h

/-- **A scan without an error cuts the characters into its tokens.** -/
theorem cut_of_scanFrom {cs : List Char} :
    ∀ {cursor : Cursor} {position : Nat}, cursor.state.Reads cursor.lexeme.toList →
      cursor.position = position + cursor.lexeme.toList.length →
      (scanFrom cursor cs).error? = none →
      Cut position (cursor.lexeme.toList ++ cs) (scanFrom cursor cs).tokens := by
  induction cs with
  | nil =>
    intro cursor position hreads hposition _
    simpa [scanFrom] using cut_of_token? hreads hposition (.nil _)
  | cons c cs ih =>
    intro cursor position hreads hposition hnone
    unfold scanFrom at hnone ⊢
    split at hnone
    · rename_i longer hfeed
      exact cut_of_feed hreads hfeed hposition
        fun p hp => ih (Cursor.reads_feed hreads hfeed) hp hnone
    · split at hnone
      · rename_i fresh hfeed
        -- The token before `c` is complete, and `c` starts the next one.
        have hstart : State.start.Reads [] := rfl
        have hrest : Cut cursor.position (c :: cs) (scanFrom fresh cs).tokens :=
          cut_of_feed hstart hfeed rfl fun p hp => ih (Cursor.reads_feed hstart hfeed) hp hnone
        exact cut_of_token? hreads hposition hrest
      · exact absurd hnone (by simp)

/-! ## A scan with an error -/

/-- **A scan with an error stops at a character that starts no token.**  What is before it is
scanned without an error, and what is after it does not matter. -/
theorem scanFrom_error {cs : List Char} {c : Char} {position : Nat} :
    ∀ {cursor : Cursor}, (scanFrom cursor cs).error? = some (.unexpectedCharacter c position) →
      ∃ before after, cs = before ++ c :: after ∧ position = cursor.position + before.length + 1 ∧
        State.start.next c = none ∧ (scanFrom cursor before).error? = none ∧
        ∀ rest, (scanFrom cursor (before ++ c :: rest)).error? =
          some (.unexpectedCharacter c position) := by
  induction cs with
  | nil =>
    intro cursor h
    exact absurd h (by simp [scanFrom])
  | cons d ds ih =>
    intro cursor h
    unfold scanFrom at h
    split at h
    · rename_i longer hfeed
      obtain ⟨before, after, rfl, rfl, hnext, hbefore, hrest⟩ := ih h
      refine ⟨d :: before, after, rfl, ?_, hnext, ?_, fun rest => ?_⟩
      · rw [Cursor.position_feed hfeed, List.length_cons]
        omega
      · simpa [scanFrom, hfeed] using hbefore
      · simpa [scanFrom, hfeed] using hrest rest
    · rename_i hstop
      split at h
      · rename_i fresh hfeed
        obtain ⟨before, after, rfl, rfl, hnext, hbefore, hrest⟩ := ih h
        refine ⟨d :: before, after, rfl, ?_, hnext, ?_, fun rest => ?_⟩
        · rw [Cursor.position_feed hfeed, List.length_cons]
          simp only [Cursor.atRest]
          omega
        · simpa [scanFrom, hstop, hfeed, Scan.before] using hbefore
        · simpa [scanFrom, hstop, hfeed, Scan.before] using hrest rest
      · rename_i hrefused
        obtain ⟨rfl, rfl⟩ : d = c ∧ cursor.position + 1 = position := by simpa using h
        refine ⟨[], ds, rfl, rfl, Option.map_eq_none_iff.1 hrefused, rfl, fun rest => ?_⟩
        simp [scanFrom, hstop, hrefused]

end Scanner

/-! ## Texts -/

theorem tokenize_eq_ok_iff {text : String} {tokens : List Token} :
    tokenize text = .ok tokens ↔
      (Scanner.scan text).error? = none ∧ (Scanner.scan text).tokens = tokens := by
  rw [tokenize]
  cases (Scanner.scan text).error? <;> simp

theorem tokenize_eq_error_iff {text : String} {error : ScanError} :
    tokenize text = .error error ↔ (Scanner.scan text).error? = some error := by
  rw [tokenize]
  cases (Scanner.scan text).error? <;> simp

/-- The tokens of a text are cut out of it. -/
theorem segments_of_tokenize {text : String} {tokens : List Token}
    (h : tokenize text = .ok tokens) : Segments 0 text.toList tokens := by
  obtain ⟨hnone, rfl⟩ := tokenize_eq_ok_iff.1 h
  have hcut : Cut 0 text.toList (Scanner.scan text).tokens :=
    Scanner.cut_of_scanFrom (by rfl) rfl hnone
  exact hcut.segments [] rfl

/-- **Scanning is a segmentation that loses nothing, and its error is the first illegal
character.**  The tokens of a text lie in it one after the other, each holds its lexeme, and all
other characters are blanks.  If there is an error, then at a character that no edge takes from the
start; the text before it has tokens, and no text that agrees with this one up to and with that
character has any. -/
theorem tokenize_segmentation (text : String) :
    (∀ tokens, tokenize text = .ok tokens → Segments 0 text.toList tokens) ∧
      ∀ c position, tokenize text = .error (.unexpectedCharacter c position) →
        0 < position ∧ text.toList[position - 1]? = some c ∧ Scanner.State.start.next c = none ∧
          (∃ tokens, tokenize (String.ofList (text.toList.take (position - 1))) = .ok tokens) ∧
          ∀ text' : String, text.toList.take position <+: text'.toList →
            ∀ tokens, tokenize text' ≠ .ok tokens := by
  refine ⟨fun tokens => segments_of_tokenize, fun c position h => ?_⟩
  obtain ⟨before, after, htext, rfl, hnext, hbefore, hrest⟩ :=
    Scanner.scanFrom_error (tokenize_eq_error_iff.1 h)
  simp only [Scanner.Cursor.atRest, Nat.zero_add] at hrest ⊢
  rw [htext]
  refine ⟨Nat.succ_pos _, by simp, hnext, ⟨_, tokenize_eq_ok_iff.2 ⟨?_, rfl⟩⟩, ?_⟩
  · simpa [Scanner.scan] using hbefore
  · rintro text' ⟨rest, htext'⟩ tokens htokens
    have herror := hrest rest
    rw [List.take_length_add_append, List.take_succ_cons, List.take_zero, List.append_assoc,
      List.singleton_append] at htext'
    rw [tokenize_eq_ok_iff, Scanner.scan, ← htext'] at htokens
    exact absurd (htokens.1.symm.trans herror) (by simp)

/-- A blank that is none of ASCII is left out; the underscore is an error only where a name cannot
take it. -/
theorem tokenize_segmentation_underscore :
    Segments 0 ("a_1\u3000+ .5".toList)
        [⟨.name, "a_1", ⟨1, 3⟩⟩, ⟨.operator, "+", ⟨5, 5⟩⟩, ⟨.number, ".5", ⟨7, 8⟩⟩] ∧
      Scanner.State.start.next '_' = none ∧
      ∃ tokens, tokenize (String.ofList ("a_1 2_".toList.take 5)) = .ok tokens := by
  refine ⟨(tokenize_segmentation "a_1\u3000+ .5").1 _ (by decide +kernel), ?_⟩
  obtain ⟨-, -, hnext, hbefore, -⟩ :=
    (tokenize_segmentation "a_1 2_").2 '_' 6 (by decide +kernel)
  exact ⟨hnext, hbefore⟩

end EquationNetwork
