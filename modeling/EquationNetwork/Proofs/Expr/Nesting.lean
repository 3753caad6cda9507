import EquationNetwork.Proofs.Expr.Parsing

/-!
# The nesting limit

The parser bounds two numbers by its limit, the frames that are open and the operator levels of an
operand, and checks them at three places.  Whatever the tokens are, this bounds the tree, and
nothing else comes of it.

* `Closes`, `Takes`, `Ends` — what the parser does in closing a frame, with a token, and at the end.
  `takes_of_step` and `ends_of_finish` say that it does nothing else; the later lemmas about a step
  or the end are read off them.
* `Operand.Fits` — the levels counted are those of the tree, and within the limit.  **Every step**
  keeps this of all operands (`fits_of_step`).
* `State.burden` — the levels that a state can still bring, at most one for each token read
  (`burden_le_of_foldlM`); the limit is exceeded only by a state with a larger burden.
* `Agrees` — a result is that of a larger limit, or it reports the limit (`parse_agrees`).
* `parse_limit` — **the limit** bounds the tree and only rejects.
-/

namespace EquationNetwork.Parser

/-! ## Operands -/

/-- The operand in a frame. -/
def Frame.operand? : Frame → Option Operand
  | group _ => none
  | minus _ => none
  | infixed left _ _ => some left

/-- The operands that a state has: the one held, and the left ones of the operators that are open. -/
def State.operands : State → List Operand
  | operand stack => stack.filterMap Frame.operand?
  | operator stack held => held :: stack.filterMap Frame.operand?

/-- The levels counted are those of the tree, and within the limit. -/
structure Operand.Fits (limit : Nat) (o : Operand) : Prop where
  levels_eq : o.levels + 1 = o.tree.depth
  levels_le : o.levels ≤ limit

theorem Operand.Fits.leaf (limit : Nat) (t : Token) : Operand.Fits limit ⟨.leaf t, 0⟩ :=
  ⟨rfl, Nat.zero_le limit⟩

theorem Operand.Fits.negate {limit : Nat} {t : Token} {held new : Operand} (hheld : held.Fits limit)
    (h : Parser.negate limit t held = .ok new) : new.Fits limit := by
  have heq := hheld.levels_eq
  rw [Parser.negate] at h
  split at h
  · exact absurd h (by simp)
  · cases h
    refine ⟨?_, by simp only; omega⟩
    simp only [Expr.depth, Expr.ofNumber]
    omega

theorem Operand.Fits.join {limit : Nat} {op : Op} {t : Token} {left right new : Operand}
    (hl : left.Fits limit) (hr : right.Fits limit)
    (h : Parser.join limit left op t right = .ok new) : new.Fits limit := by
  have hleq := hl.levels_eq
  have hreq := hr.levels_eq
  rw [Parser.join] at h
  split at h
  · exact absurd h (by simp)
  · cases h
    refine ⟨?_, by simp only; omega⟩
    simp only [Expr.depth]
    omega

/-! ## What the parser does -/

/-- The innermost frame closes over the operand held, without a token of its own. -/
inductive Closes (limit : Nat) : State → State → Prop where
  | minus {sign : Token} {stack : List Frame} {held new : Operand}
      (h : negate limit sign held = .ok new) :
      Closes limit (.operator (.minus sign :: stack) held) (.operator stack new)
  | infixed {left : Operand} {op : Op} {t : Token} {stack : List Frame} {held new : Operand}
      (h : join limit left op t held = .ok new) :
      Closes limit (.operator (.infixed left op t :: stack) held) (.operator stack new)

/-- One frame closes after the other. -/
abbrev ClosesAll (limit : Nat) : State → State → Prop := Relation.ReflTransGen (Closes limit)

/-- The levels that a state can still bring. -/
def State.burden : State → Nat
  | operand stack => Parser.burden stack
  | operator stack held => Parser.burden stack + held.levels

/-- What a token makes of a state whose frames, if it completes any, are closed. -/
inductive Takes (limit : Nat) (t : Token) : State → Except ParseError State → Prop where
  | leaf {stack : List Frame} (hk : t.kind = .number ∨ t.kind = .name) :
      Takes limit t (.operand stack) (.ok (.operator stack ⟨.leaf t, 0⟩))
  | opener {stack : List Frame} (ho : t.isOpening = true) :
      Takes limit t (.operand stack) (.ok (.operand (.group t :: stack)))
  | sign {stack : List Frame} (hk : t.kind = .operator) (ht : t.op? = some .sub) :
      Takes limit t (.operand stack) (.ok (.operand (.minus t :: stack)))
  | infixed {stack : List Frame} {held : Operand} {op : Op} (ht : t.op? = some op) :
      Takes limit t (.operator stack held) (.ok (.operand (.infixed held op t :: stack)))
  | closer {opener : Token} {stack : List Frame} {held : Operand} (hc : t.closes opener = true) :
      Takes limit t (.operator (.group opener :: stack) held) (.ok (.operator stack held))
  | stray {stack : List Frame} (hc : t.isClosing = true)
      (hstack : (innermost? stack).any t.closes = false) :
      Takes limit t (.operand stack) (.error (.unmatchedBracket t.span))
  | unopened {held : Operand} (hc : t.isClosing = true) :
      Takes limit t (.operator [] held) (.error (.unmatchedBracket t.span))
  | mismatched {opener : Token} {stack : List Frame} {held : Operand} (hc : t.isClosing = true)
      (ho : t.closes opener = false) :
      Takes limit t (.operator (.group opener :: stack) held)
        (.error (.unmatchedBracket opener.span))
  | unexpected {s : State} : Takes limit t s (.error (unexpected t))
  | tooDeep {s : State} {span : Span} (h : limit < s.burden) :
      Takes limit t s (.error (.nestingTooDeep limit span))

/-- What the end makes of a state none of whose frames closes before it. -/
inductive Ends (limit : Nat) : State → Except ParseError Expr → Prop where
  | done {held : Operand} : Ends limit (.operator [] held) (.ok held.tree)
  | due {stack : List Frame} : Ends limit (.operand stack) (.error .unexpectedEnd)
  | unclosed {opener : Token} {stack : List Frame} {held : Operand} :
      Ends limit (.operator (.group opener :: stack) held) (.error (.unmatchedBracket opener.span))
  | tooDeep {s : State} {span : Span} (h : limit < s.burden) :
      Ends limit s (.error (.nestingTooDeep limit span))

/-- A minus sign fails to close only if the limit is exceeded. -/
theorem error_of_negate {limit : Nat} {sign : Token} {held : Operand} {error : ParseError}
    (stack : List Frame) (h : negate limit sign held = .error error) :
    error = .nestingTooDeep limit sign.span ∧
      limit < (State.operator (.minus sign :: stack) held).burden := by
  rw [negate] at h
  split at h
  · cases h
    refine ⟨rfl, ?_⟩
    simp only [State.burden, burden]
    omega
  · exact absurd h (by simp)

/-- An operator fails to close only if the limit is exceeded. -/
theorem error_of_join {limit : Nat} {left : Operand} {op : Op} {t : Token} {held : Operand}
    {error : ParseError} (stack : List Frame) (h : join limit left op t held = .error error) :
    error = .nestingTooDeep limit t.span ∧
      limit < (State.operator (.infixed left op t :: stack) held).burden := by
  rw [join] at h
  split at h
  · cases h
    refine ⟨rfl, ?_⟩
    simp only [State.burden, burden]
    omega
  · exact absurd h (by simp)

theorem takeOperand_takes (limit : Nat) (t : Token) (stack : List Frame) :
    Takes limit t (.operand stack) (takeOperand limit stack t) := by
  unfold takeOperand
  split
  · rename_i hdeep
    exact .tooDeep (hdeep.trans_le (length_le_burden stack))
  · split
    · rename_i hk
      exact .leaf (.inl hk)
    · rename_i hk
      exact .leaf (.inr hk)
    · split_ifs with ho hstack hc
      · exact .opener ho
      · exact .unexpected
      · exact .stray hc (Bool.eq_false_iff.2 hstack)
      · exact .unexpected
    · rename_i hk
      split_ifs with ht
      · exact .sign hk ht
      · exact .unexpected
    · exact .unexpected
    · exact .unexpected

theorem takeOperator_takes (limit : Nat) (t : Token) (stack : List Frame) (held : Operand) :
    ∃ mid, ClosesAll limit (.operator stack held) mid ∧
      Takes limit t mid (takeOperator limit t stack held) := by
  fun_induction takeOperator limit t stack held with
  | case1 stack held op habove =>
    exact ⟨_, .refl, .infixed (opAbove?_eq_some_iff.1 habove).1⟩
  | case2 held hnone =>
    refine ⟨_, .refl, ?_⟩
    split
    · rename_i hc
      exact .unopened hc
    · exact .unexpected
  | case3 held opener stack hc hnone => exact ⟨_, .refl, .closer hc⟩
  | case4 held opener stack hc hnone =>
    refine ⟨_, .refl, ?_⟩
    split
    · rename_i hclosing
      exact .mismatched hclosing (Bool.eq_false_iff.2 hc)
    · exact .unexpected
  | case5 held sign stack new hnew hnone ih =>
    obtain ⟨mid, hcloses, htakes⟩ := ih
    exact ⟨mid, .head (.minus hnew) hcloses, htakes⟩
  | case6 held sign stack error hnew hnone =>
    obtain ⟨rfl, hdeep⟩ := error_of_negate stack hnew
    exact ⟨_, .refl, .tooDeep hdeep⟩
  | case7 held left op token stack new hnew hnone ih =>
    obtain ⟨mid, hcloses, htakes⟩ := ih
    exact ⟨mid, .head (.infixed hnew) hcloses, htakes⟩
  | case8 held left op token stack error hnew hnone =>
    obtain ⟨rfl, hdeep⟩ := error_of_join stack hnew
    exact ⟨_, .refl, .tooDeep hdeep⟩

theorem closeAll_ends (limit : Nat) (stack : List Frame) (held : Operand) :
    ∃ mid, ClosesAll limit (.operator stack held) mid ∧
      Ends limit mid (closeAll limit stack held) := by
  fun_induction closeAll limit stack held with
  | case1 held => exact ⟨_, .refl, .done⟩
  | case2 opener stack held => exact ⟨_, .refl, .unclosed⟩
  | case3 sign stack held new hnew ih =>
    obtain ⟨mid, hcloses, hends⟩ := ih
    exact ⟨mid, .head (.minus hnew) hcloses, hends⟩
  | case4 sign stack held error hnew =>
    obtain ⟨rfl, hdeep⟩ := error_of_negate stack hnew
    exact ⟨_, .refl, .tooDeep hdeep⟩
  | case5 left op token stack held new hnew ih =>
    obtain ⟨mid, hcloses, hends⟩ := ih
    exact ⟨mid, .head (.infixed hnew) hcloses, hends⟩
  | case6 left op token stack held error hnew =>
    obtain ⟨rfl, hdeep⟩ := error_of_join stack hnew
    exact ⟨_, .refl, .tooDeep hdeep⟩

/-- **What a step does:** some frames close, and then the token is taken or refused. -/
theorem takes_of_step {limit : Nat} {s : State} {t : Token} {result : Except ParseError State}
    (h : step limit s t = result) : ∃ mid, ClosesAll limit s mid ∧ Takes limit t mid result := by
  subst h
  cases s with
  | operand stack => exact ⟨_, .refl, takeOperand_takes limit t stack⟩
  | operator stack held => exact takeOperator_takes limit t stack held

/-- **What the end does:** some frames close, and then all are closed or one cannot. -/
theorem ends_of_finish {limit : Nat} {last : Span} {s : State} {result : Except ParseError Expr}
    (h : finish limit last s = result) : ∃ mid, ClosesAll limit s mid ∧ Ends limit mid result := by
  subst h
  cases s with
  | operand stack =>
    refine ⟨_, .refl, ?_⟩
    rw [finish]
    split_ifs with hdeep
    · exact .tooDeep (hdeep.trans_le (length_le_burden stack))
    · exact .due
  | operator stack held => exact closeAll_ends limit stack held

/-! ## What a run keeps -/

/-- What every step keeps of the tokens read and the state, a run keeps. -/
theorem foldlM_invariant {limit : Nat} {P : List Token → State → Prop}
    (hstep : ∀ ts t s s', P ts s → step limit s t = .ok s' → P (ts ++ [t]) s') (us : List Token) :
    ∀ (ts : List Token) {s s' : State}, P ts s → us.foldlM (step limit) s = .ok s' →
      P (ts ++ us) s' := by
  induction us with
  | nil =>
    intro ts s s' hs h
    cases h
    simpa using hs
  | cons t us ih =>
    intro ts s s' hs h
    cases ht : step limit s t with
    | error error =>
      rw [List.foldlM_cons, ht] at h
      exact absurd h (by simp [bind, Except.bind])
    | ok mid =>
      rw [foldlM_step_cons us ht] at h
      simpa using ih (ts ++ [t]) (hstep ts t s mid hs ht) h

/-! ### The levels counted -/

theorem Closes.fits {limit : Nat} {s s' : State} (h : Closes limit s s')
    (hs : ∀ o ∈ s.operands, o.Fits limit) : ∀ o ∈ s'.operands, o.Fits limit := by
  cases h with
  | minus h =>
    obtain ⟨hheld, hstack⟩ := List.forall_mem_cons.1 hs
    exact List.forall_mem_cons.2 ⟨hheld.negate h, hstack⟩
  | infixed h =>
    obtain ⟨hheld, hstack⟩ := List.forall_mem_cons.1 hs
    obtain ⟨hleft, hstack⟩ := List.forall_mem_cons.1 hstack
    exact List.forall_mem_cons.2 ⟨hleft.join hheld h, hstack⟩

theorem ClosesAll.fits {limit : Nat} {s s' : State} (h : ClosesAll limit s s')
    (hs : ∀ o ∈ s.operands, o.Fits limit) : ∀ o ∈ s'.operands, o.Fits limit := by
  induction h with
  | refl => exact hs
  | tail _ hlast ih => exact hlast.fits ih

/-- **A step** keeps count of the levels of all operands. -/
theorem fits_of_step {limit : Nat} {s s' : State} {t : Token}
    (hs : ∀ o ∈ s.operands, o.Fits limit) (h : step limit s t = .ok s') :
    ∀ o ∈ s'.operands, o.Fits limit := by
  obtain ⟨mid, hcloses, htakes⟩ := takes_of_step h
  have hmid := ClosesAll.fits hcloses hs
  cases htakes with
  | leaf _ => exact List.forall_mem_cons.2 ⟨.leaf limit t, hmid⟩
  | opener _ | sign _ _ => exact hmid
  | infixed _ | closer _ => exact hmid

theorem fits_of_foldlM {limit : Nat} {ts : List Token} {s : State}
    (h : ts.foldlM (step limit) (.operand []) = .ok s) : ∀ o ∈ s.operands, o.Fits limit :=
  foldlM_invariant (P := fun _ s => ∀ o ∈ s.operands, o.Fits limit)
    (fun _ _ _ _ hs hstep => fits_of_step hs hstep) ts [] (by simp [State.operands]) h

/-- The tree of a run is no deeper than the limit allows. -/
theorem depth_of_run {limit : Nat} {ts : List Token} {e : Expr} (h : run limit ts = .ok e) :
    e.depth ≤ limit + 1 := by
  unfold run at h
  cases hfold : ts.foldlM (step limit) (.operand []) with
  | error error => exact absurd (hfold ▸ h) (by simp [bind, Except.bind])
  | ok s =>
    rw [hfold] at h
    obtain ⟨mid, hcloses, hends⟩ := ends_of_finish h
    have hfits := ClosesAll.fits hcloses (fits_of_foldlM hfold)
    cases hends with
    | @done held =>
      have hheld := hfits held (List.mem_singleton_self held)
      have heq := hheld.levels_eq
      have hle := hheld.levels_le
      omega

/-! ### The levels still to come -/

theorem Closes.burden_le {limit : Nat} {s s' : State} (h : Closes limit s s') :
    s'.burden ≤ s.burden := by
  cases h with
  | minus h =>
    rw [negate] at h
    split at h
    · exact absurd h (by simp)
    · cases h
      simp only [State.burden, burden]
      omega
  | infixed h =>
    rw [join] at h
    split at h
    · exact absurd h (by simp)
    · cases h
      simp only [State.burden, burden]
      omega

theorem ClosesAll.burden_le {limit : Nat} {s s' : State} (h : ClosesAll limit s s') :
    s'.burden ≤ s.burden := by
  induction h with
  | refl => exact Nat.le_refl _
  | tail _ hlast ih => exact hlast.burden_le.trans ih

/-- A token adds at most one level to those that can still come. -/
theorem burden_of_step {limit : Nat} {s s' : State} {t : Token} (h : step limit s t = .ok s') :
    s'.burden ≤ s.burden + 1 := by
  obtain ⟨mid, hcloses, htakes⟩ := takes_of_step h
  have hle := ClosesAll.burden_le hcloses
  cases htakes <;> simp only [State.burden, burden] at hle ⊢ <;> omega

/-- The levels that can still come are no more than the tokens read. -/
theorem burden_le_of_foldlM {limit : Nat} {ts : List Token} {s : State}
    (h : ts.foldlM (step limit) (.operand []) = .ok s) : s.burden ≤ ts.length :=
  foldlM_invariant (P := fun ts s => s.burden ≤ ts.length)
    (fun ts t s s' hs hstep => by
      have := burden_of_step hstep
      rw [List.length_append, List.length_singleton]
      omega) ts [] (by simp [State.burden, burden]) h

/-- A step exceeds the limit only in a state with a larger burden. -/
theorem lt_burden_of_step {limit bound : Nat} {s : State} {t : Token} {span : Span}
    (h : step limit s t = .error (.nestingTooDeep bound span)) : limit < s.burden := by
  obtain ⟨mid, hcloses, htakes⟩ := takes_of_step h
  cases htakes with
  | tooDeep hdeep => exact hdeep.trans_le (ClosesAll.burden_le hcloses)

/-- The end exceeds the limit only in a state with a larger burden. -/
theorem lt_burden_of_finish {limit bound : Nat} {s : State} {last span : Span}
    (h : finish limit last s = .error (.nestingTooDeep bound span)) : limit < s.burden := by
  obtain ⟨mid, hcloses, hends⟩ := ends_of_finish h
  cases hends with
  | tooDeep hdeep => exact hdeep.trans_le (ClosesAll.burden_le hcloses)

/-! ## A larger limit -/

/-- The second result is the first one, unless the first one reports that the limit is exceeded. -/
def Agrees {α : Type} (limit : Nat) (r r' : Except ParseError α) : Prop :=
  r' = r ∨ ∃ span, r = .error (.nestingTooDeep limit span)

theorem Agrees.bind {α β : Type} {limit : Nat} {r r' : Except ParseError α}
    {f f' : α → Except ParseError β} (hr : Agrees limit r r')
    (hf : ∀ a, Agrees limit (f a) (f' a)) : Agrees limit (r >>= f) (r' >>= f') := by
  rcases hr with rfl | ⟨span, rfl⟩
  · cases r' with
    | error error => exact .inl rfl
    | ok a => exact hf a
  · exact .inr ⟨span, rfl⟩

theorem Agrees.eq_ok {α : Type} {limit : Nat} {r r' : Except ParseError α} {a : α}
    (h : Agrees limit r r') (hr : r = .ok a) : r' = .ok a := by
  rcases h with rfl | ⟨span, rfl⟩
  · exact hr
  · exact absurd hr (by simp)

theorem Agrees.eq_error {α : Type} {limit : Nat} {r r' : Except ParseError α} {error : ParseError}
    (h : Agrees limit r r') (hr : r = .error error)
    (hne : ∀ span, error ≠ .nestingTooDeep limit span) : r' = .error error := by
  rcases h with rfl | ⟨span, rfl⟩
  · exact hr
  · exact absurd (Except.error.inj hr).symm (hne span)

theorem closeAll_minus (limit : Nat) (sign : Token) (stack : List Frame) (held : Operand) :
    closeAll limit (.minus sign :: stack) held =
      negate limit sign held >>= closeAll limit stack := by
  rw [closeAll]
  cases negate limit sign held <;> rfl

theorem closeAll_infixed (limit : Nat) (left : Operand) (op : Op) (t : Token)
    (stack : List Frame) (held : Operand) :
    closeAll limit (.infixed left op t :: stack) held =
      join limit left op t held >>= closeAll limit stack := by
  rw [closeAll]
  cases join limit left op t held <;> rfl

section LargerLimit

variable {limit limit' : Nat} (h : limit ≤ limit')
include h

theorem negate_agrees (t : Token) (held : Operand) :
    Agrees limit (negate limit t held) (negate limit' t held) := by
  by_cases hdeep : limit < held.levels + 1
  · exact .inr ⟨t.span, by rw [negate, if_pos hdeep]⟩
  · have hdeep' : ¬ limit' < held.levels + 1 := by omega
    exact .inl (by rw [negate, negate, if_neg hdeep, if_neg hdeep'])

theorem join_agrees (left : Operand) (op : Op) (t : Token) (right : Operand) :
    Agrees limit (join limit left op t right) (join limit' left op t right) := by
  by_cases hdeep : limit < 1 + max left.levels right.levels
  · exact .inr ⟨t.span, by simp only [join, if_pos hdeep]⟩
  · have hdeep' : ¬ limit' < 1 + max left.levels right.levels := by omega
    exact .inl (by simp only [join, if_neg hdeep, if_neg hdeep'])

theorem takeOperand_agrees (stack : List Frame) (t : Token) :
    Agrees limit (takeOperand limit stack t) (takeOperand limit' stack t) := by
  by_cases hdeep : limit < stack.length
  · exact .inr ⟨t.span, by rw [takeOperand, if_pos hdeep]⟩
  · have hdeep' : ¬ limit' < stack.length := by omega
    exact .inl (by rw [takeOperand, takeOperand, if_neg hdeep, if_neg hdeep'])

theorem takeOperator_agrees (t : Token) (stack : List Frame) (held : Operand) :
    Agrees limit (takeOperator limit t stack held) (takeOperator limit' t stack held) := by
  fun_induction takeOperator limit t stack held with
  | case1 stack held op habove => exact .inl (takeOperator_of_opAbove? habove)
  | case2 held hnone => exact .inl (by simp only [takeOperator, hnone])
  | case3 held opener stack hc hnone => exact .inl (by simp only [takeOperator, hnone, if_pos hc])
  | case4 held opener stack hc hnone => exact .inl (by simp only [takeOperator, hnone, if_neg hc])
  | case5 held sign stack new hnew hnone ih =>
    have hnew' : negate limit' sign held = .ok new := (negate_agrees h sign held).eq_ok hnew
    simpa only [takeOperator, hnone, hnew'] using ih
  | case6 held sign stack error hnew hnone =>
    obtain ⟨rfl, -⟩ := error_of_negate stack hnew
    exact .inr ⟨sign.span, rfl⟩
  | case7 held left op token stack new hnew hnone ih =>
    have hnew' : join limit' left op token held = .ok new :=
      (join_agrees h left op token held).eq_ok hnew
    simpa only [takeOperator, hnone, hnew'] using ih
  | case8 held left op token stack error hnew hnone =>
    obtain ⟨rfl, -⟩ := error_of_join stack hnew
    exact .inr ⟨token.span, rfl⟩

theorem closeAll_agrees (stack : List Frame) (held : Operand) :
    Agrees limit (closeAll limit stack held) (closeAll limit' stack held) := by
  induction stack generalizing held with
  | nil => exact .inl rfl
  | cons f stack ih =>
    cases f with
    | group opener => exact .inl rfl
    | minus sign =>
      rw [closeAll_minus, closeAll_minus]
      exact (negate_agrees h sign held).bind ih
    | infixed left op t =>
      rw [closeAll_infixed, closeAll_infixed]
      exact (join_agrees h left op t held).bind ih

theorem step_agrees (s : State) (t : Token) : Agrees limit (step limit s t) (step limit' s t) := by
  cases s with
  | operand stack => exact takeOperand_agrees h stack t
  | operator stack held => exact takeOperator_agrees h t stack held

theorem finish_agrees (last : Span) (s : State) :
    Agrees limit (finish limit last s) (finish limit' last s) := by
  cases s with
  | operand stack =>
    by_cases hdeep : limit < stack.length
    · exact .inr ⟨last, by rw [finish, if_pos hdeep]⟩
    · have hdeep' : ¬ limit' < stack.length := by omega
      exact .inl (by rw [finish, finish, if_neg hdeep, if_neg hdeep'])
  | operator stack held => exact closeAll_agrees h stack held

theorem foldlM_agrees (ts : List Token) (s : State) :
    Agrees limit (ts.foldlM (step limit) s) (ts.foldlM (step limit') s) := by
  induction ts generalizing s with
  | nil => exact .inl rfl
  | cons t ts ih =>
    rw [List.foldlM_cons, List.foldlM_cons]
    exact (step_agrees h s t).bind ih

theorem run_agrees (ts : List Token) : Agrees limit (run limit ts) (run limit' ts) :=
  (foldlM_agrees h ts (.operand [])).bind fun s => finish_agrees h (lastSpan ts) s

/-- **The parser under a larger limit** gives the same result, unless the limit was exceeded. -/
theorem parse_agrees (ts : List Token) : Agrees limit (Expr.parse limit ts) (Expr.parse limit' ts) :=
  (run_agrees h ts).bind fun _ => .inl rfl

end LargerLimit

/-! ## The limit -/

/-- The parser passes through a state in reading tokens: after some of them, and in the middle of
the next one or of the end, when some frames are closed already. -/
def Passes (limit : Nat) (tokens : List Token) (s : State) : Prop :=
  ∃ read between, read <+: tokens ∧ read.foldlM (step limit) (.operand []) = .ok between ∧
    ClosesAll limit between s

theorem Passes.fits {limit : Nat} {tokens : List Token} {s : State} (h : Passes limit tokens s) :
    ∀ o ∈ s.operands, o.Fits limit := by
  obtain ⟨read, between, -, hread, hcloses⟩ := h
  exact ClosesAll.fits hcloses (fits_of_foldlM hread)

/-- Reading tokens fails in one step, after some of them were read. -/
theorem foldlM_error_cases {limit : Nat} {error : ParseError} {tokens : List Token} :
    ∀ {s : State}, tokens.foldlM (step limit) s = .error error →
      ∃ before t after s', tokens = before ++ t :: after ∧
        before.foldlM (step limit) s = .ok s' ∧ step limit s' t = .error error := by
  induction tokens with
  | nil =>
    intro s h
    exact absurd h (by simp [pure, Except.pure])
  | cons t tokens ih =>
    intro s h
    cases ht : step limit s t with
    | error error' =>
      rw [List.foldlM_cons, ht] at h
      cases h
      exact ⟨[], t, tokens, s, rfl, rfl, ht⟩
    | ok mid =>
      rw [foldlM_step_cons tokens ht] at h
      obtain ⟨before, u, after, s', rfl, hbefore, hu⟩ := ih h
      exact ⟨t :: before, u, after, s', rfl, (foldlM_step_cons before ht).trans hbefore, hu⟩

/-- A run fails in one step, after some of the tokens were read, or at the end. -/
theorem run_error_cases {limit : Nat} {tokens : List Token} {error : ParseError}
    (h : run limit tokens = .error error) :
    (∃ before t after s, tokens = before ++ t :: after ∧
        before.foldlM (step limit) (.operand []) = .ok s ∧ step limit s t = .error error) ∨
      ∃ s, tokens.foldlM (step limit) (.operand []) = .ok s ∧
        finish limit (lastSpan tokens) s = .error error := by
  unfold run at h
  cases hfold : tokens.foldlM (step limit) (.operand []) with
  | error error' =>
    rw [hfold] at h
    cases h
    exact .inl (foldlM_error_cases hfold)
  | ok s =>
    rw [hfold] at h
    exact .inr ⟨s, rfl, h⟩

/-- No limit is exceeded that is at least the number of tokens. -/
theorem run_ne_nestingTooDeep {limit : Nat} {tokens : List Token} (h : tokens.length ≤ limit)
    (bound : Nat) (span : Span) : run limit tokens ≠ .error (.nestingTooDeep bound span) := by
  intro hrun
  rcases run_error_cases hrun with ⟨before, t, after, s, rfl, hs, hstep⟩ | ⟨s, hs, hfinish⟩
  · have hdeep := lt_burden_of_step hstep
    have hle := burden_le_of_foldlM hs
    simp only [List.length_append, List.length_cons] at h
    omega
  · have hdeep := lt_burden_of_finish hfinish
    have hle := burden_le_of_foldlM hs
    omega

theorem parse_ne_nestingTooDeep {limit : Nat} {tokens : List Token} (h : tokens.length ≤ limit)
    (bound : Nat) (span : Span) :
    Expr.parse limit tokens ≠ .error (.nestingTooDeep bound span) := by
  cases hrun : run limit tokens with
  | error error =>
    rw [parse_of_run_error hrun, ← hrun]
    exact run_ne_nestingTooDeep h bound span
  | ok e =>
    rcases parse_of_run hrun with ⟨-, hparse⟩ | ⟨-, span', hparse⟩
    · simp [hparse]
    · simp [hparse]

/-- **The nesting limit bounds the tree and only rejects.**  A tree has at most one level more than
the limit.  A larger limit gives the same result, tree or error, unless the result is that the limit
is exceeded; then that limit is reported, and it is less than the number of tokens.  The levels that
the parser counts are those of the trees that it counts them for, wherever it is. -/
theorem parse_limit (limit : Nat) (tokens : List Token) :
    (∀ e, Expr.parse limit tokens = .ok e → e.depth ≤ limit + 1) ∧
      (∀ limit', limit ≤ limit' →
        (∀ bound span, Expr.parse limit tokens ≠ .error (.nestingTooDeep bound span)) →
          Expr.parse limit' tokens = Expr.parse limit tokens) ∧
      (∀ bound span, Expr.parse limit tokens = .error (.nestingTooDeep bound span) →
        bound = limit) ∧
      (tokens.length ≤ limit →
        ∀ bound span, Expr.parse limit tokens ≠ .error (.nestingTooDeep bound span)) ∧
      ∀ s, Passes limit tokens s → ∀ o ∈ s.operands, o.levels + 1 = o.tree.depth := by
  refine ⟨fun e h => ?_, fun limit' hle hfits => ?_, fun bound span h => ?_,
    parse_ne_nestingTooDeep, fun s hs o ho => (hs.fits o ho).levels_eq⟩
  · cases hrun : run limit tokens with
    | error error => exact absurd (parse_of_run_error hrun ▸ h) (by simp)
    | ok e' =>
      rcases parse_of_run hrun with ⟨-, hparse⟩ | ⟨-, span, hparse⟩
      · obtain rfl : e' = e := by simpa [hparse] using h
        exact depth_of_run hrun
      · exact absurd (hparse ▸ h) (by simp)
  · rcases parse_agrees hle tokens with hsame | ⟨span, hdeep⟩
    · exact hsame
    · exact absurd hdeep (hfits limit span)
  · -- A limit that refuses nothing tells which limit is reported.
    rcases parse_agrees (Nat.le_max_left limit tokens.length) tokens with hsame | ⟨span', hdeep⟩
    · exact absurd (hsame.trans h)
        (parse_ne_nestingTooDeep (Nat.le_max_right limit tokens.length) bound span)
    · have hreported := h.symm.trans hdeep
      simp only [Except.error.injEq, ParseError.nestingTooDeep.injEq] at hreported
      exact hreported.1

/-- Three levels of brackets are within a limit of 3 and leave no level in the tree; the minus signs
of the second text are one too many, and a limit of 4 takes them. -/
theorem parse_limit_brackets_and_signs :
    ∃ tokens e, tokenize "(((x)))+y" = .ok tokens ∧ Expr.parse 3 tokens = .ok e ∧ e.depth ≤ 3 + 1 ∧
      Expr.parse 9 tokens = Expr.parse 3 tokens ∧
      ∃ signs bound span, tokenize "----x" = .ok signs ∧
        Expr.parse 3 signs = .error (.nestingTooDeep bound span) ∧ bound = 3 ∧
        Expr.parse 5 signs = Expr.parse 4 signs := by
  let tokens : List Token := [⟨.bracket, "(", ⟨1, 1⟩⟩, ⟨.bracket, "(", ⟨2, 2⟩⟩,
    ⟨.bracket, "(", ⟨3, 3⟩⟩, ⟨.name, "x", ⟨4, 4⟩⟩, ⟨.bracket, ")", ⟨5, 5⟩⟩,
    ⟨.bracket, ")", ⟨6, 6⟩⟩, ⟨.bracket, ")", ⟨7, 7⟩⟩, ⟨.operator, "+", ⟨8, 8⟩⟩,
    ⟨.name, "y", ⟨9, 9⟩⟩]
  let signs : List Token := [⟨.operator, "-", ⟨1, 1⟩⟩, ⟨.operator, "-", ⟨2, 2⟩⟩,
    ⟨.operator, "-", ⟨3, 3⟩⟩, ⟨.operator, "-", ⟨4, 4⟩⟩, ⟨.name, "x", ⟨5, 5⟩⟩]
  let e : Expr := .binary .add ⟨.operator, "+", ⟨8, 8⟩⟩ (.leaf ⟨.name, "x", ⟨4, 4⟩⟩)
    (.leaf ⟨.name, "y", ⟨9, 9⟩⟩)
  have hparse : Expr.parse 3 tokens = .ok e := by decide +kernel
  have hdeep : Expr.parse 3 signs = .error (.nestingTooDeep 3 ⟨5, 5⟩) := by decide +kernel
  refine ⟨tokens, e, by decide +kernel, hparse, (parse_limit 3 tokens).1 e hparse,
    (parse_limit 3 tokens).2.1 9 (by decide) (by simp [hparse]), signs, 3, ⟨5, 5⟩,
    by decide +kernel, hdeep, (parse_limit 3 signs).2.2.1 3 ⟨5, 5⟩ hdeep, ?_⟩
  have htree : (Expr.parse 4 signs).isOk = true := by decide +kernel
  refine (parse_limit 4 signs).2.1 5 (by decide) fun bound span h => ?_
  rw [h] at htree
  exact Bool.noConfusion htree

end EquationNetwork.Parser
