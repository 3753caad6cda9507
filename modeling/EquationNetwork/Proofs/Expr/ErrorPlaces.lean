import EquationNetwork.Proofs.Expr.Nesting
import EquationNetwork.Proofs.Expr.Printable
import EquationNetwork.Proofs.Token.Brackets

/-!
# Where parse errors point

The parser reads from left to right and never back, so it should find a mistake as soon as the
tokens read can no longer be the beginning of an expression.

* `openAfter_of_foldlM` — **the open frames know the open brackets**.
* `Viable` — the tokens can be continued to an expression.  `viable_of_foldlM` says that **what has
  been read can always be completed**: by an operand, if one is due, and the brackets that close
  what is open.
* `not_viable_of_step` — a token that is unexpected after some others is so whatever comes next.
* `parse_error_places` — what each error of the parser says about the tokens.
-/

namespace EquationNetwork

namespace Parser

/-! ## Open brackets and open frames -/

/-- The bracket of a frame. -/
def Frame.opener? : Frame → Option Token
  | group opener => some opener
  | minus _ => none
  | infixed .. => none

/-- The open brackets of a stack, the innermost first. -/
def openers (stack : List Frame) : List Token := stack.filterMap Frame.opener?

def State.openers : State → List Token
  | operand stack => Parser.openers stack
  | operator stack _ => Parser.openers stack

theorem head?_openers (stack : List Frame) : (openers stack).head? = innermost? stack := by
  induction stack with
  | nil => rfl
  | cons f stack ih =>
    cases f with
    | group opener => rfl
    | minus t => exact ih
    | infixed left op t => exact ih

theorem Closes.openers_eq {limit : Nat} {s s' : State} (h : Closes limit s s') :
    s'.openers = s.openers := by
  cases h <;> rfl

theorem ClosesAll.openers_eq {limit : Nat} {s s' : State} (h : ClosesAll limit s s') :
    s'.openers = s.openers := by
  induction h with
  | refl => rfl
  | tail _ hlast ih => exact hlast.openers_eq.trans ih

/-- A step opens and closes the same brackets as its token. -/
theorem openAfter_of_step {limit : Nat} {ts : List Token} {t : Token} {s s' : State}
    (ht : t.Lexical) (hs : openAfter ts = some s.openers) (h : step limit s t = .ok s') :
    openAfter (ts ++ [t]) = some s'.openers := by
  obtain ⟨mid, hcloses, htakes⟩ := takes_of_step h
  rw [← ClosesAll.openers_eq hcloses] at hs
  cases htakes with
  | leaf hk =>
    refine openAfter_concat_other hs ?_
    rcases hk with hk | hk <;> simp [hk]
  | opener ho =>
    rw [openAfter_concat_bracket hs (Token.kind_of_isOpening ho), nest_opener ho]
    rfl
  | sign hk _ => exact openAfter_concat_other hs (by simp [hk])
  | infixed hop => exact openAfter_concat_other hs (Token.kind_of_op? hop)
  | closer hc =>
    rw [openAfter_concat_bracket hs (ht.kind_of_closes hc)]
    exact nest_closer hc

/-- **The open frames know the open brackets.** -/
theorem openAfter_of_foldlM {limit : Nat} {ts : List Token} {s : State}
    (hts : ∀ t ∈ ts, t.Lexical) (h : ts.foldlM (step limit) (.operand []) = .ok s) :
    openAfter ts = some s.openers := by
  refine foldlM_invariant
    (P := fun ts s => (∀ t ∈ ts, t.Lexical) → openAfter ts = some s.openers)
    (fun ts t s s' hs hstep hlexical => ?_) ts [] (fun _ => rfl) h hts
  obtain ⟨hbefore, ht⟩ := List.forall_mem_append.1 hlexical
  exact openAfter_of_step (ht t (List.mem_singleton_self t)) (hs hbefore) hstep

/-- The open brackets of the frames are among the tokens read. -/
theorem Opened.openers {ts : List Token} {stack : List Frame} (h : Opened ts stack) :
    ∀ o ∈ Parser.openers stack, o ∈ ts ∧ o.isOpening = true := by
  induction h with
  | nil => exact fun o ho => absurd ho (by simp [Parser.openers])
  | group _ hopening ih =>
    refine List.forall_mem_cons.2 ⟨⟨by simp, hopening⟩, fun o ho => ?_⟩
    exact ⟨List.mem_append_left _ (ih o ho).1, (ih o ho).2⟩
  | minus _ _ _ ih =>
    exact fun o ho => ⟨List.mem_append_left _ (ih o ho).1, (ih o ho).2⟩
  | infixed _ _ _ _ ih =>
    exact fun o ho => ⟨List.mem_append_left _ (ih o ho).1, (ih o ho).2⟩

theorem openers_of_foldlM {limit : Nat} {ts : List Token} {s : State}
    (h : ts.foldlM (step limit) (.operand []) = .ok s) :
    ∀ o ∈ s.openers, o ∈ ts ∧ o.isOpening = true := by
  have hreads := Reads.foldlM (.operand .nil) h
  rw [List.nil_append] at hreads
  cases hreads with
  | operand hopened => exact hopened.openers
  | operator hopened _ =>
    exact fun o ho => ⟨List.mem_append_left _ (hopened.openers o ho).1, (hopened.openers o ho).2⟩

/-! ## Completing what was read -/

/-- A bracket that closes another one. -/
def closerOf (opener : Token) : Token :=
  ⟨.bracket, if opener.lexeme = "(" then ")" else "]", ⟨1, 1⟩⟩

theorem closes_closerOf {opener : Token} (h : opener.isOpening = true) :
    (closerOf opener).closes opener = true := by
  simp only [Token.isOpening, Bool.and_eq_true, Bool.or_eq_true, beq_iff_eq] at h
  rcases h.2 with h | h <;> simp [closerOf, Token.closes, h]

/-- An operand, if one is due, and the brackets that close what is open. -/
def State.completion : State → List Token
  | operand stack => ⟨.name, "x", ⟨1, 1⟩⟩ :: (Parser.openers stack).map closerOf
  | operator stack _ => (Parser.openers stack).map closerOf

/-- Tokens that are no operators do not see whether a frame has closed before them. -/
theorem finish_of_closes {limit : Nat} {s s' : State} {us : List Token} (last : Span)
    (h : Closes limit s s') (hus : ∀ t ∈ us, t.op? = none) :
    us.foldlM (step limit) s >>= finish limit last =
      us.foldlM (step limit) s' >>= finish limit last := by
  cases us with
  | nil =>
    cases h with
    | @minus sign stack held new h =>
      show closeAll limit (.minus sign :: stack) held = closeAll limit stack new
      rw [closeAll_minus, h]
      rfl
    | @infixed left op t stack held new h =>
      show closeAll limit (.infixed left op t :: stack) held = closeAll limit stack new
      rw [closeAll_infixed, h]
      rfl
  | cons t us =>
    have hnone : ∀ power, opAbove? power t = none := by
      intro power
      rw [opAbove?, hus t (List.mem_cons_self ..)]
      rfl
    have hstep : step limit s t = step limit s' t := by
      cases h with
      | minus h => simp only [step, takeOperator, hnone, h]
      | infixed h => simp only [step, takeOperator, hnone, h]
    rw [List.foldlM_cons, List.foldlM_cons, hstep]

/-- The brackets that close what is open complete an operand. -/
theorem exists_finish_closers {limit : Nat} (last : Span) (stack : List Frame) :
    ∀ held : Operand, (∀ o ∈ openers stack, o.isOpening = true) →
      (State.operator stack held).burden ≤ limit →
      ∃ e, ((openers stack).map closerOf).foldlM (step limit) (.operator stack held) >>=
        finish limit last = .ok e := by
  induction stack with
  | nil => exact fun held _ _ => ⟨held.tree, rfl⟩
  | cons f stack ih =>
    intro held hopeners hlimit
    have hclosers : ∀ t ∈ (openers (f :: stack)).map closerOf, t.op? = none := by
      intro t ht
      obtain ⟨o, ho, rfl⟩ := List.mem_map.1 ht
      exact op?_of_closes (closes_closerOf (hopeners o ho))
    cases f with
    | group opener =>
      obtain ⟨hopener, hopeners⟩ := List.forall_mem_cons.1 hopeners
      have hcloses := closes_closerOf hopener
      have hnone : opAbove? 0 (closerOf opener) = none := by
        rw [opAbove?, op?_of_closes hcloses]
        rfl
      have hstep : step limit (.operator (.group opener :: stack) held) (closerOf opener) =
          .ok (.operator stack held) := by
        simp only [step, takeOperator, floor, Frame.floor, hnone, if_pos hcloses]
      obtain ⟨e, he⟩ := ih held hopeners (by
        simp only [State.burden, burden] at hlimit ⊢
        omega)
      refine ⟨e, ?_⟩
      show (closerOf opener :: (openers stack).map closerOf).foldlM (step limit) _ >>= _ = _
      rw [foldlM_step_cons _ hstep, he]
    | minus sign =>
      have hfits : ¬ limit < held.levels + 1 := by
        simp only [State.burden, burden] at hlimit
        omega
      have hcloses : Closes limit (.operator (.minus sign :: stack) held)
          (.operator stack _) := .minus (if_neg hfits)
      rw [finish_of_closes last hcloses hclosers]
      exact ih _ hopeners (hcloses.burden_le.trans hlimit)
    | infixed left op t =>
      have hfits : ¬ limit < 1 + max left.levels held.levels := by
        simp only [State.burden, burden] at hlimit
        omega
      have hcloses : Closes limit (.operator (.infixed left op t :: stack) held)
          (.operator stack _) := .infixed (if_neg hfits)
      rw [finish_of_closes last hcloses hclosers]
      exact ih _ hopeners (hcloses.burden_le.trans hlimit)

/-- **What has been read can be completed.** -/
theorem exists_finish_completion {limit : Nat} {s : State} (last : Span)
    (hopeners : ∀ o ∈ s.openers, o.isOpening = true) (hlimit : s.burden ≤ limit) :
    ∃ e, s.completion.foldlM (step limit) s >>= finish limit last = .ok e := by
  cases s with
  | operand stack =>
    have hfits : ¬ limit < stack.length := not_lt_length hlimit
    have hstep : step limit (.operand stack) ⟨.name, "x", ⟨1, 1⟩⟩ =
        .ok (.operator stack ⟨.leaf ⟨.name, "x", ⟨1, 1⟩⟩, 0⟩) := by
      simp only [step, takeOperand, if_neg hfits]
    rw [State.completion, foldlM_step_cons _ hstep]
    exact exists_finish_closers last stack _ hopeners hlimit
  | operator stack held => exact exists_finish_closers last stack held hopeners hlimit

end Parser

/-! ## Viable tokens -/

/-- The token is one of some text. -/
def Token.Scanned (t : Token) : Prop := ∃ text tokens, tokenize text = .ok tokens ∧ t ∈ tokens

namespace Parser

/-- The parser takes the tokens as a whole, be it with a misplaced `=`. -/
def Accepted (limit : Nat) (tokens : List Token) : Prop :=
  (∃ e, Expr.parse limit tokens = .ok e) ∨
    ∃ span, Expr.parse limit tokens = .error (.unexpectedEquals span)

/-- The tokens can be continued by tokens of texts to what the parser takes as a whole, under a
limit that is no less than their number. -/
def Viable (tokens : List Token) : Prop :=
  ∃ more limit, (∀ t ∈ more, t.Scanned) ∧ (tokens ++ more).length ≤ limit ∧
    Accepted limit (tokens ++ more)

theorem scanned_closerOf (opener : Token) : (closerOf opener).Scanned := by
  unfold closerOf
  split
  · exact ⟨")", [⟨.bracket, ")", ⟨1, 1⟩⟩], by decide +kernel, List.mem_singleton_self _⟩
  · exact ⟨"]", [⟨.bracket, "]", ⟨1, 1⟩⟩], by decide +kernel, List.mem_singleton_self _⟩

theorem scanned_completion (s : State) : ∀ t ∈ s.completion, t.Scanned := by
  have hclosers : ∀ stack, ∀ t ∈ (openers stack).map closerOf, t.Scanned := by
    intro stack t ht
    obtain ⟨o, -, rfl⟩ := List.mem_map.1 ht
    exact scanned_closerOf o
  cases s with
  | operand stack =>
    refine List.forall_mem_cons.2 ⟨?_, hclosers stack⟩
    exact ⟨"x", [⟨.name, "x", ⟨1, 1⟩⟩], by decide +kernel, List.mem_singleton_self _⟩
  | operator stack held => exact hclosers stack

theorem accepted_of_run {limit : Nat} {tokens : List Token} {e : Expr}
    (h : run limit tokens = .ok e) : Accepted limit tokens := by
  rcases parse_of_run h with ⟨-, hparse⟩ | ⟨-, hparse⟩
  · exact .inl ⟨e, hparse⟩
  · exact .inr hparse

/-- **What was read without an error is viable.** -/
theorem viable_of_foldlM {limit : Nat} {ts : List Token} {s : State}
    (h : ts.foldlM (step limit) (.operand []) = .ok s) : Viable ts := by
  let larger := max limit (ts ++ s.completion).length
  have hlarger : ts.foldlM (step larger) (.operand []) = .ok s :=
    (foldlM_agrees (Nat.le_max_left limit _) ts (.operand [])).eq_ok h
  have hlength : (ts ++ s.completion).length ≤ larger := Nat.le_max_right limit _
  have hburden : s.burden ≤ larger := by
    have := burden_le_of_foldlM h
    rw [List.length_append] at hlength
    omega
  obtain ⟨e, he⟩ := exists_finish_completion (lastSpan (ts ++ s.completion))
    (fun o ho => (openers_of_foldlM h o ho).2) hburden
  refine ⟨s.completion, larger, scanned_completion s, hlength, accepted_of_run (e := e) ?_⟩
  rw [run, foldlM_step_append _ hlarger]
  exact he

/-- **A token that is unexpected after others is so whatever comes next**, under every limit. -/
theorem not_viable_of_step {limit : Nat} {ts : List Token} {t : Token} {s : State}
    (hs : ts.foldlM (step limit) (.operand []) = .ok s)
    (ht : step limit s t = .error (unexpected t)) : ¬ Viable (ts ++ [t]) := by
  rintro ⟨more, limit', -, -, haccepted⟩
  let larger := max limit limit'
  have hle : limit ≤ larger := Nat.le_max_left limit limit'
  have hlarger : ts.foldlM (step larger) (.operand []) = .ok s :=
    (foldlM_agrees hle ts (.operand [])).eq_ok hs
  have hstep : step larger s t = .error (unexpected t) :=
    (step_agrees hle s t).eq_error ht (by simp [unexpected])
  have hparse : Expr.parse larger (ts ++ [t] ++ more) = .error (unexpected t) := by
    refine parse_of_run_error ?_
    rw [run, List.append_assoc, foldlM_step_append _ hlarger, List.singleton_append,
      List.foldlM_cons, hstep]
    rfl
  have hagrees := parse_agrees (Nat.le_max_right limit limit') (ts ++ [t] ++ more)
  rcases haccepted with ⟨e, h⟩ | ⟨span, h⟩
  · exact absurd (hparse.symm.trans (hagrees.eq_ok h)) (by simp)
  · exact absurd (hparse.symm.trans (hagrees.eq_error h (by simp))) (by simp [unexpected])

/-! ## The errors -/

/-- An error of the parser is one of its run, unless it is about `=`. -/
theorem run_of_parse_error {limit : Nat} {ts : List Token} {error : ParseError}
    (h : Expr.parse limit ts = .error error) (hne : ∀ span, error ≠ .unexpectedEquals span) :
    run limit ts = .error error := by
  cases hrun : run limit ts with
  | error error' => rw [← h, parse_of_run_error hrun]
  | ok e =>
    rcases parse_of_run hrun with ⟨-, hparse⟩ | ⟨-, span, hparse⟩
    · exact absurd (h.symm.trans hparse) (by simp)
    · have heq := h.symm.trans hparse
      exact absurd (Except.error.inj heq) (hne span)

/-- A token is reported as unexpected where it is refused. -/
theorem unexpectedToken_of_step {limit : Nat} {s : State} {t : Token} {lexeme : String}
    {span : Span} (h : step limit s t = .error (.unexpectedToken lexeme span)) :
    t.lexeme = lexeme ∧ t.span = span := by
  obtain ⟨mid, -, htakes⟩ := takes_of_step h
  cases htakes with
  | unexpected => exact ⟨rfl, rfl⟩

/-- The end reports no token as unexpected. -/
theorem finish_ne_unexpectedToken (limit : Nat) (last : Span) (s : State) (lexeme : String)
    (span : Span) : finish limit last s ≠ .error (.unexpectedToken lexeme span) := by
  intro h
  obtain ⟨mid, -, hends⟩ := ends_of_finish h
  cases hends

theorem step_ne_unexpectedEnd (limit : Nat) (s : State) (t : Token) :
    step limit s t ≠ .error .unexpectedEnd := by
  intro h
  obtain ⟨mid, -, htakes⟩ := takes_of_step h
  cases htakes

/-- A bracket is reported as unmatched by a closing one that does not belong to the innermost open
one: it is one of these two. -/
theorem unmatchedBracket_of_step {limit : Nat} {ts : List Token} {s : State} {t : Token}
    {span : Span} (hs : openAfter ts = some s.openers)
    (h : step limit s t = .error (.unmatchedBracket span)) :
    openAfter (ts ++ [t]) = none ∧
      ((t.kind = .bracket ∧ t.span = span) ∨ ∃ o ∈ s.openers, o.span = span) := by
  obtain ⟨mid, hcloses, htakes⟩ := takes_of_step h
  rw [← ClosesAll.openers_eq hcloses] at hs ⊢
  cases htakes with
  | stray hc hstack =>
    have hk := Token.kind_of_isClosing hc
    rw [← head?_openers] at hstack
    rw [openAfter_concat_bracket hs hk]
    exact ⟨nest_mismatch hc hstack, .inl ⟨hk, rfl⟩⟩
  | unopened hc =>
    have hk := Token.kind_of_isClosing hc
    rw [openAfter_concat_bracket hs hk]
    exact ⟨nest_mismatch hc rfl, .inl ⟨hk, rfl⟩⟩
  | @mismatched opener stack held hc ho =>
    rw [openAfter_concat_bracket hs (Token.kind_of_isClosing hc)]
    exact ⟨nest_mismatch hc ho, .inr ⟨opener, List.mem_cons_self .., rfl⟩⟩

/-- At the end a bracket is reported as unmatched that is still open. -/
theorem unmatchedBracket_of_finish {limit : Nat} {last span : Span} {s : State}
    (h : finish limit last s = .error (.unmatchedBracket span)) : ∃ o ∈ s.openers, o.span = span := by
  obtain ⟨mid, hcloses, hends⟩ := ends_of_finish h
  rw [← ClosesAll.openers_eq hcloses]
  cases hends with
  | @unclosed opener stack held => exact ⟨opener, List.mem_cons_self .., rfl⟩

/-- An unmatched bracket is one of the tokens, and the brackets are not balanced. -/
theorem unbalanced_of_run {limit : Nat} {tokens : List Token} {span : Span}
    (hlexical : ∀ t ∈ tokens, t.Lexical)
    (h : run limit tokens = .error (.unmatchedBracket span)) :
    (∃ t ∈ tokens, t.kind = .bracket ∧ t.span = span) ∧ ¬ Balanced (brackets tokens) := by
  rcases run_error_cases h with ⟨before, t, after, s, rfl, hs, hstep⟩ | ⟨s, hs, hfinish⟩
  · have hopen : openAfter before = some s.openers :=
      openAfter_of_foldlM (fun u hu => hlexical u (List.mem_append_left _ hu)) hs
    obtain ⟨hnone, hplace⟩ := unmatchedBracket_of_step hopen hstep
    constructor
    · rcases hplace with ⟨hk, hspan⟩ | ⟨o, ho, hspan⟩
      · exact ⟨t, by simp, hk, hspan⟩
      · obtain ⟨hmem, hopening⟩ := openers_of_foldlM hs o ho
        exact ⟨o, List.mem_append_left _ hmem, Token.kind_of_isOpening hopening, hspan⟩
    · intro hbalanced
      have hall := openAfter_of_balanced hbalanced
      rw [List.append_cons, openAfter_append_of_none hnone] at hall
      exact absurd hall (by simp)
  · have hopen := openAfter_of_foldlM hlexical hs
    obtain ⟨o, ho, hspan⟩ := unmatchedBracket_of_finish hfinish
    obtain ⟨hmem, hopening⟩ := openers_of_foldlM hs o ho
    refine ⟨⟨o, hmem, Token.kind_of_isOpening hopening, hspan⟩, fun hbalanced => ?_⟩
    rw [openAfter_of_balanced hbalanced] at hopen
    rw [← Option.some.inj hopen] at ho
    exact absurd ho (by simp)

/-- The tokens of the operators of a tree are among those that it was derived from. -/
theorem Derives.mem_of_at? {a : Level} {ts : List Token} {e : Expr} (h : Derives a ts e) :
    ∀ path node, e.at? path = some node → ∀ op t l r, node = .binary op t l r →
      t ∈ ts ∧ t.op? = some op := by
  induction h with
  | number _ | name _ =>
    rw [Expr.forall_at?_leaf (P := fun _ node => ∀ op t l r, node = .binary op t l r → _)]
    exact fun op t l r h => absurd h (by simp)
  | group _ _ _ ih =>
    intro path node hat op t l r hnode
    obtain ⟨hmem, hop⟩ := ih path node hat op t l r hnode
    exact ⟨List.mem_cons_of_mem _ (List.mem_append_left _ hmem), hop⟩
  | @negation sign ts e _ hsub _ ih =>
    rw [Expr.forall_at?_binary (P := fun _ node => ∀ op t l r, node = .binary op t l r → _)]
    refine ⟨?_, ?_, fun path node hat op t l r hnode => ?_⟩
    · rintro op t l r h
      cases h
      exact ⟨List.mem_cons_self .., hsub⟩
    · rw [Expr.ofNumber,
        Expr.forall_at?_leaf (P := fun _ node => ∀ op t l r, node = .binary op t l r → _)]
      exact fun op t l r h => absurd h (by simp)
    · obtain ⟨hmem, hop⟩ := ih path node hat op t l r hnode
      exact ⟨List.mem_cons_of_mem _ hmem, hop⟩
  | @infixed op t ls rs left right _ ht _ ihl ihr =>
    rw [Expr.forall_at?_binary (P := fun _ node => ∀ op t l r, node = .binary op t l r → _)]
    refine ⟨?_, fun path node hat op t l r hnode => ?_, fun path node hat op t l r hnode => ?_⟩
    · rintro op t l r h
      cases h
      exact ⟨by simp, ht⟩
    · obtain ⟨hmem, hop⟩ := ihl path node hat op t l r hnode
      exact ⟨List.mem_append_left _ hmem, hop⟩
    · obtain ⟨hmem, hop⟩ := ihr path node hat op t l r hnode
      exact ⟨List.mem_append_right _ (List.mem_cons_of_mem _ hmem), hop⟩
  | looser _ _ ih => exact ih

/-- A misplaced `=` is a token below the root of the tree that the tokens derive. -/
theorem misplaced_of_parse {limit : Nat} {tokens : List Token} {span : Span}
    (h : Expr.parse limit tokens = .error (.unexpectedEquals span)) :
    ∃ e path t l r, Derives .equation tokens e ∧ path ≠ [] ∧
      e.at? path = some (.binary .equals t l r) ∧ t ∈ tokens ∧ t.op? = some .equals ∧
      t.span = span := by
  cases hrun : run limit tokens with
  | error error =>
    obtain rfl : error = .unexpectedEquals span := by simpa [parse_of_run_error hrun] using h
    exact absurd hrun (run_ne_unexpectedEquals limit tokens span)
  | ok e =>
    rw [Expr.parse, hrun] at h
    cases hmisplaced : e.misplacedEquals? with
    | none => exact absurd h (by simp [bind, Except.bind, hmisplaced, pure, Except.pure])
    | some t =>
      obtain rfl : t.span = span := by
        simpa [bind, Except.bind, hmisplaced, throw, throwThe, MonadExceptOf.throw] using h
      obtain ⟨path, l, r, hpath, hat⟩ := Expr.exists_at?_of_misplacedEquals? hmisplaced
      have hderives := derives_of_run hrun
      obtain ⟨hmem, hop⟩ := hderives.mem_of_at? path _ hat _ t l r rfl
      exact ⟨e, path, t, l, r, hderives, hpath, hat, hmem, hop, rfl⟩

/-- **Parse errors point at the right place**, under every limit.  An unexpected token is the first
one that no continuation can make good; where the end is unexpected, all tokens can be continued; an
unmatched bracket is one of the tokens, and the brackets among them are not balanced; and an
unexpected `=` is one of the tokens, below the root of the tree that they stand for. -/
theorem parse_error_places {text : String} {tokens : List Token}
    (htokens : tokenize text = .ok tokens) (limit : Nat) :
    (∀ lexeme span, Expr.parse limit tokens = .error (.unexpectedToken lexeme span) →
      ∃ k t, tokens[k]? = some t ∧ t.lexeme = lexeme ∧ t.span = span ∧
        Viable (tokens.take k) ∧ ¬ Viable (tokens.take (k + 1))) ∧
      (Expr.parse limit tokens = .error .unexpectedEnd → Viable tokens) ∧
      (∀ span, Expr.parse limit tokens = .error (.unmatchedBracket span) →
        (∃ t ∈ tokens, t.kind = .bracket ∧ t.span = span) ∧ ¬ Balanced (brackets tokens)) ∧
      ∀ span, Expr.parse limit tokens = .error (.unexpectedEquals span) →
        ∃ e path t l r, Derives .equation tokens e ∧ path ≠ [] ∧
          e.at? path = some (.binary .equals t l r) ∧ t ∈ tokens ∧ t.kind = .equals ∧
          t.span = span := by
  have hlexical := lexical_of_tokenize htokens
  refine ⟨fun lexeme span h => ?_, fun h => ?_, fun span h => ?_, fun span h => ?_⟩
  · rcases run_error_cases (run_of_parse_error h (by simp)) with
      ⟨before, t, after, s, rfl, hs, hstep⟩ | ⟨s, hs, hfinish⟩
    · obtain ⟨rfl, rfl⟩ := unexpectedToken_of_step hstep
      refine ⟨before.length, t, by simp, rfl, rfl, ?_, ?_⟩
      · rw [List.take_left]
        exact viable_of_foldlM hs
      · rw [List.take_length_add_append, List.take_succ_cons, List.take_zero]
        exact not_viable_of_step hs hstep
    · exact absurd hfinish (finish_ne_unexpectedToken limit _ s lexeme span)
  · rcases run_error_cases (run_of_parse_error h (by simp)) with
      ⟨before, t, after, s, rfl, hs, hstep⟩ | ⟨s, hs, hfinish⟩
    · exact absurd hstep (step_ne_unexpectedEnd limit s t)
    · exact viable_of_foldlM hs
  · exact unbalanced_of_run hlexical (run_of_parse_error h (by simp))
  · obtain ⟨e, path, t, l, r, hderives, hpath, hat, hmem, hop, hspan⟩ := misplaced_of_parse h
    have ht := (hlexical t hmem).eq_ofOp hop
    exact ⟨e, path, t, l, r, hderives, hpath, hat, hmem, by rw [ht]; rfl, hspan⟩

/-- A second operand in a row is unexpected, and a square bracket does not close a round one. -/
theorem parse_error_places_stray_operand_and_bracket :
    ∃ tokens k t mixed, tokenize "(1 + 2 3)" = .ok tokens ∧
      Expr.parse 7 tokens = .error (.unexpectedToken "3" ⟨8, 8⟩) ∧ tokens[k]? = some t ∧
      t.lexeme = "3" ∧ t.span = ⟨8, 8⟩ ∧ Viable (tokens.take k) ∧ ¬ Viable (tokens.take (k + 1)) ∧
      tokenize "(a]" = .ok mixed ∧
      Expr.parse 3 mixed = .error (.unmatchedBracket ⟨1, 1⟩) ∧ ¬ Balanced (brackets mixed) := by
  let tokens : List Token := [⟨.bracket, "(", ⟨1, 1⟩⟩, ⟨.number, "1", ⟨2, 2⟩⟩,
    ⟨.operator, "+", ⟨4, 4⟩⟩, ⟨.number, "2", ⟨6, 6⟩⟩, ⟨.number, "3", ⟨8, 8⟩⟩,
    ⟨.bracket, ")", ⟨9, 9⟩⟩]
  let mixed : List Token := [⟨.bracket, "(", ⟨1, 1⟩⟩, ⟨.name, "a", ⟨2, 2⟩⟩,
    ⟨.bracket, "]", ⟨3, 3⟩⟩]
  have htokens : tokenize "(1 + 2 3)" = .ok tokens := by decide +kernel
  have hmixed : tokenize "(a]" = .ok mixed := by decide +kernel
  have hstray : Expr.parse 7 tokens = .error (.unexpectedToken "3" ⟨8, 8⟩) := by decide +kernel
  have hunmatched : Expr.parse 3 mixed = .error (.unmatchedBracket ⟨1, 1⟩) := by decide +kernel
  obtain ⟨k, t, hplace⟩ := (parse_error_places htokens 7).1 "3" ⟨8, 8⟩ hstray
  obtain ⟨-, hunbalanced⟩ := (parse_error_places hmixed 3).2.2.1 ⟨1, 1⟩ hunmatched
  exact ⟨tokens, k, t, mixed, htokens, hstray, hplace.1, hplace.2.1, hplace.2.2.1,
    hplace.2.2.2.1, hplace.2.2.2.2, hmixed, hunmatched, hunbalanced⟩

end Parser

end EquationNetwork
