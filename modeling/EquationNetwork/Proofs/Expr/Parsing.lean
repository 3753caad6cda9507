import Mathlib.Tactic
import EquationNetwork.Expr.Printer
import EquationNetwork.Proofs.Expr.Grammar
import EquationNetwork.Proofs.Expr.Paths

/-!
# The parser accepts exactly its grammar

The parser is a machine with a stack of open frames that close as late as they can.  Both halves of
its correctness are about one account of that stack.

* `Derives.run` — **completeness**: reading what a level derives leaves a pile of frames that close
  to the derived tree (`Piled`), on top of whatever was open before.
* `Reads.step`, `Reads.foldlM` — **soundness**: what has been read so far is always what the open
  frames and the operand held say (`Reads`).
* `burden` — the operator levels that the open frames can still bring, which never exceed the number
  of tokens read; so a limit of that size refuses nothing.
* `Derives.unique` — the grammar is unambiguous, since the machine is a function.
* `parse_grammar` — the parser accepts exactly the grammar, with `=` nowhere but at the root.
-/

namespace EquationNetwork.Parser

/-! ## Closing a pile of frames -/

/-- What an operand becomes when the frames of a pile close over it, the first frame first. -/
def closed : List Frame → Operand → Operand
  | [], held => held
  | .group _ :: pile, held => closed pile held
  | .minus t :: pile, held =>
      closed pile ⟨.binary .sub t (.ofNumber 0 t.span) held.tree, held.levels + 1⟩
  | .infixed left op t :: pile, held =>
      closed pile ⟨.binary op t left.tree held.tree, 1 + max left.levels held.levels⟩

theorem closed_append (pile stack : List Frame) (held : Operand) :
    closed (pile ++ stack) held = closed stack (closed pile held) := by
  induction pile generalizing held with
  | nil => rfl
  | cons f pile ih => cases f <;> exact ih _

/-- The operator levels that the open frames can still bring, one for each frame and those of the
operands in them. -/
def burden : List Frame → Nat
  | [] => 0
  | .group _ :: stack => 1 + burden stack
  | .minus _ :: stack => 1 + burden stack
  | .infixed left _ _ :: stack => 1 + left.levels + burden stack

theorem burden_append (pile stack : List Frame) :
    burden (pile ++ stack) = burden pile + burden stack := by
  induction pile with
  | nil => simp [burden]
  | cons f pile ih => cases f <;> simp only [List.cons_append, burden, ih] <;> omega

theorem length_le_burden (stack : List Frame) : stack.length ≤ burden stack := by
  induction stack with
  | nil => exact Nat.le_refl 0
  | cons f stack ih => cases f <;> simp only [List.length_cons, burden] <;> omega

/-- The levels of a closed operand are paid for by the frames that closed. -/
theorem levels_closed_le (pile : List Frame) (held : Operand) :
    (closed pile held).levels ≤ burden pile + held.levels := by
  induction pile generalizing held with
  | nil => simp [closed, burden]
  | cons f pile ih =>
    cases f with
    | group t => exact (ih held).trans (by simp only [burden]; omega)
    | minus t => exact (ih _).trans (by simp only [burden]; omega)
    | infixed left op t => exact (ih _).trans (by simp only [burden]; omega)

/-- An operator that the innermost frame admits takes the operand before it as its left one. -/
theorem takeOperator_of_opAbove? {limit : Nat} {t : Token} {stack : List Frame} {held : Operand}
    {op : Op} (h : opAbove? (floor stack) t = some op) :
    takeOperator limit t stack held = .ok (.operand (.infixed held op t :: stack)) := by
  rw [takeOperator.eq_def]
  simp only [h]

/-- A token that goes into no frame of a pile closes the whole pile first. -/
theorem takeOperator_pile {limit : Nat} {t : Token} (pile stack : List Frame) (held : Operand)
    (hpile : ∀ f ∈ pile, f.Open ∧ opAbove? f.floor t = none)
    (hlimit : burden pile + held.levels ≤ limit) :
    takeOperator limit t (pile ++ stack) held = takeOperator limit t stack (closed pile held) := by
  induction pile generalizing held with
  | nil => rfl
  | cons f pile ih =>
    obtain ⟨hopen, hnone⟩ := hpile f (List.mem_cons_self ..)
    have hrest : ∀ g ∈ pile, g.Open ∧ opAbove? g.floor t = none :=
      fun g hg => hpile g (List.mem_cons_of_mem _ hg)
    cases f with
    | group opener => exact hopen.elim
    | minus sign =>
      simp only [burden] at hlimit
      have hfits : ¬ limit < held.levels + 1 := by omega
      rw [List.cons_append, takeOperator]
      simp only [floor, hnone, negate, if_neg hfits]
      exact ih _ hrest (by simp only; omega)
    | infixed left op token =>
      simp only [burden] at hlimit
      have hfits : ¬ limit < 1 + max left.levels held.levels := by omega
      rw [List.cons_append, takeOperator]
      simp only [floor, hnone, join, if_neg hfits]
      exact ih _ hrest (by simp only; omega)

/-- The end of the tokens closes a pile that no bracket interrupts. -/
theorem closeAll_pile {limit : Nat} (pile : List Frame) (held : Operand)
    (hpile : ∀ f ∈ pile, f.Open) (hlimit : burden pile + held.levels ≤ limit) :
    closeAll limit pile held = .ok (closed pile held).tree := by
  induction pile generalizing held with
  | nil => rfl
  | cons f pile ih =>
    have hrest : ∀ g ∈ pile, g.Open := fun g hg => hpile g (List.mem_cons_of_mem _ hg)
    cases f with
    | group opener => exact (hpile _ (List.mem_cons_self ..)).elim
    | minus sign =>
      simp only [burden] at hlimit
      have hfits : ¬ limit < held.levels + 1 := by omega
      simp only [closeAll, negate, if_neg hfits]
      exact ih _ hrest (by simp only; omega)
    | infixed left op token =>
      simp only [burden] at hlimit
      have hfits : ¬ limit < 1 + max left.levels held.levels := by omega
      simp only [closeAll, join, if_neg hfits]
      exact ih _ hrest (by simp only; omega)

/-! ## Completeness: what derives is read -/

/-- What reading the tokens of a level leaves on top of the frames that were open before: a pile of
frames that close to the tree, all of them within the level. -/
structure Piled (a : Level) (ts : List Token) (e : Expr) (pile : List Frame) (held : Operand) :
    Prop where
  tree : (closed pile held).tree = e
  frames : ∀ f ∈ pile, f.Open ∧ f.level ≤ a
  burden_le : burden pile + held.levels ≤ ts.length

/-- An operator closes all of a pile that may be its left operand. -/
theorem Piled.takeOperator {limit : Nat} {a : Level} {ts : List Token} {e : Expr}
    {pile stack : List Frame} {held : Operand} {op : Op} {t : Token} (h : Piled a ts e pile held)
    (ht : t.op? = some op) (ha : a ≤ op.leftLevel) (hstack : op.level ≤ operandLevel stack)
    (hlimit : ts.length ≤ limit) :
    Parser.takeOperator limit t (pile ++ stack) held =
      .ok (.operand (.infixed (closed pile held) op t :: stack)) := by
  have hclose : ∀ f ∈ pile, f.Open ∧ opAbove? f.floor t = none := by
    intro f hf
    obtain ⟨hopen, hlevel⟩ := h.frames f hf
    refine ⟨hopen, opAbove?_eq_none_iff.2 fun op' hop' => ?_⟩
    obtain rfl : op = op' := by simpa [ht] using hop'
    exact (power_le_floor_iff hopen op).2 (Level.le_trans hlevel ha)
  have habove : opAbove? (floor stack) t = some op :=
    opAbove?_eq_some_iff.2 ⟨ht, (floor_lt_power_iff stack op).2 hstack⟩
  rw [takeOperator_pile pile stack held hclose (h.burden_le.trans hlimit),
    takeOperator_of_opAbove? habove]

/-- A closing bracket closes all of a pile and then the bracket that it belongs to. -/
theorem Piled.takeCloser {limit : Nat} {a : Level} {ts : List Token} {e : Expr}
    {pile stack : List Frame} {held : Operand} {opener t : Token} (h : Piled a ts e pile held)
    (hc : t.closes opener = true) (hlimit : ts.length ≤ limit) :
    Parser.takeOperator limit t (pile ++ .group opener :: stack) held =
      .ok (.operator stack (closed pile held)) := by
  have hnone : ∀ power, opAbove? power t = none := by
    intro power
    simp [opAbove?, op?_of_closes hc]
  rw [takeOperator_pile pile _ held (fun f hf => ⟨(h.frames f hf).1, hnone f.floor⟩)
    (h.burden_le.trans hlimit), Parser.takeOperator, hnone]
  simp only [hc, if_true]

/-- Reading one more token first. -/
theorem foldlM_step_cons {limit : Nat} {s s' : State} {t : Token} (ts : List Token)
    (h : step limit s t = .ok s') :
    (t :: ts).foldlM (step limit) s = ts.foldlM (step limit) s' := by
  rw [List.foldlM_cons, h]
  rfl

/-- Reading two lists of tokens one after the other. -/
theorem foldlM_step_append {limit : Nat} {s s' : State} {ts : List Token} (us : List Token)
    (h : ts.foldlM (step limit) s = .ok s') :
    (ts ++ us).foldlM (step limit) s = us.foldlM (step limit) s' := by
  rw [List.foldlM_append, h]
  rfl

theorem not_lt_length {limit : Nat} {stack : List Frame} (hlimit : burden stack ≤ limit) :
    ¬ limit < stack.length :=
  Nat.not_lt.2 ((length_le_burden stack).trans hlimit)

/-- **Completeness of the machine.**  Reading the tokens of a level where an operand of that level
is due leaves a pile that closes to the derived tree. -/
theorem Derives.run {limit : Nat} {a : Level} {ts : List Token} {e : Expr} (h : Derives a ts e) :
    ∀ stack : List Frame, a ≤ operandLevel stack → burden stack + ts.length ≤ limit →
      ∃ pile held, ts.foldlM (step limit) (.operand stack) = .ok (.operator (pile ++ stack) held) ∧
        Piled a ts e pile held := by
  induction h with
  | @number t h =>
    intro stack _ hlimit
    refine ⟨[], ⟨.leaf t, 0⟩, foldlM_step_cons [] ?_, rfl, by simp, by simp [burden]⟩
    have hfits : ¬ limit < stack.length := not_lt_length (by omega)
    simp [step, takeOperand, hfits, h]
  | @name t h =>
    intro stack _ hlimit
    refine ⟨[], ⟨.leaf t, 0⟩, foldlM_step_cons [] ?_, rfl, by simp, by simp [burden]⟩
    have hfits : ¬ limit < stack.length := not_lt_length (by omega)
    simp [step, takeOperand, hfits, h]
  | @group opener closer ts e ho hc _ ih =>
    intro stack _ hlimit
    simp only [List.length_cons, List.length_append, List.length_nil] at hlimit
    have hfits : ¬ limit < stack.length := not_lt_length (by omega)
    have hk : opener.kind = .bracket := by
      simp only [Token.isOpening, Bool.and_eq_true, beq_iff_eq] at ho
      exact ho.1
    obtain ⟨pile, held, hrun, hp⟩ := ih (.group opener :: stack) (Level.le_refl _)
      (by simp only [burden]; omega)
    have hopen : step limit (.operand stack) opener = .ok (.operand (.group opener :: stack)) := by
      simp only [step, takeOperand, if_neg hfits, hk, ho, if_true]
    refine ⟨[], closed pile held, ?_, hp.tree, by simp, ?_⟩
    · rw [foldlM_step_cons _ hopen, foldlM_step_append _ hrun]
      exact foldlM_step_cons [] (hp.takeCloser hc (by omega))
    · have := levels_closed_le pile held
      have := hp.burden_le
      simp only [burden, List.length_cons, List.length_append, List.length_nil]
      omega
  | @negation t ts e hk ht _ ih =>
    intro stack _ hlimit
    simp only [List.length_cons] at hlimit
    have hfits : ¬ limit < stack.length := not_lt_length (by omega)
    obtain ⟨pile, held, hrun, hp⟩ := ih (.minus t :: stack) (Level.le_refl _)
      (by simp only [burden]; omega)
    have hsign : step limit (.operand stack) t = .ok (.operand (.minus t :: stack)) := by
      simp only [step, takeOperand, if_neg hfits, hk, ht, if_true]
    refine ⟨pile ++ [.minus t], held, ?_, ?_, ?_, ?_⟩
    · rw [foldlM_step_cons _ hsign, hrun, List.append_assoc]
      rfl
    · rw [closed_append]
      simp only [closed, hp.tree]
    · intro f hf
      rcases List.mem_append.1 hf with hf | hf
      · exact hp.frames f hf
      · obtain rfl := List.mem_singleton.1 hf
        exact ⟨trivial, Level.le_refl _⟩
    · have := hp.burden_le
      simp only [burden_append, burden, List.length_cons]
      omega
  | @infixed op t ls rs l r _ ht _ ihl ihr =>
    intro stack hstack hlimit
    simp only [List.length_append, List.length_cons] at hlimit
    obtain ⟨lpile, lheld, hlrun, hlp⟩ := ihl stack (Level.le_trans op.leftLevel_le hstack)
      (by omega)
    have hlevels := (levels_closed_le lpile lheld).trans hlp.burden_le
    obtain ⟨pile, held, hrun, hp⟩ := ihr (.infixed (closed lpile lheld) op t :: stack)
      (Level.le_refl _) (by simp only [burden]; omega)
    refine ⟨pile ++ [.infixed (closed lpile lheld) op t], held, ?_, ?_, ?_, ?_⟩
    · have hpush : step limit (.operator (lpile ++ stack) lheld) t =
          .ok (.operand (.infixed (closed lpile lheld) op t :: stack)) :=
        hlp.takeOperator ht (Level.le_refl _) hstack (by omega)
      rw [foldlM_step_append _ hlrun, foldlM_step_cons _ hpush, hrun, List.append_assoc]
      rfl
    · rw [closed_append]
      simp only [closed, hp.tree, hlp.tree]
    · intro f hf
      rcases List.mem_append.1 hf with hf | hf
      · exact ⟨(hp.frames f hf).1, Level.le_trans (hp.frames f hf).2 op.rightLevel_le⟩
      · obtain rfl := List.mem_singleton.1 hf
        exact ⟨trivial, Level.le_refl _⟩
    · have := hp.burden_le
      simp only [burden_append, burden, List.length_append, List.length_cons]
      omega
  | looser _ hab ih =>
    intro stack hstack hlimit
    obtain ⟨pile, held, hrun, hp⟩ := ih stack (Level.le_trans hab hstack) hlimit
    exact ⟨pile, held, hrun, hp.tree,
      fun f hf => ⟨(hp.frames f hf).1, Level.le_trans (hp.frames f hf).2 hab⟩, hp.burden_le⟩

/-- What derives as a whole is read as a whole. -/
theorem run_of_derives {limit : Nat} {ts : List Token} {e : Expr} (h : Derives .equation ts e)
    (hlimit : ts.length ≤ limit) : Parser.run limit ts = .ok e := by
  obtain ⟨pile, held, hrun, hp⟩ := h.run [] (Level.le_refl _) (by simpa [burden] using hlimit)
  rw [List.append_nil] at hrun
  rw [Parser.run, hrun]
  show closeAll limit pile held = .ok e
  rw [closeAll_pile pile held (fun f hf => (hp.frames f hf).1) (hp.burden_le.trans hlimit), hp.tree]

/-! ## Soundness: what is read derives -/

/-- The tokens read so far, told by the frames that are open. -/
inductive Opened : List Token → List Frame → Prop where
  | nil : Opened [] []
  | group {ts : List Token} {stack : List Frame} {opener : Token} (h : Opened ts stack)
      (ho : opener.isOpening = true) : Opened (ts ++ [opener]) (.group opener :: stack)
  | minus {ts : List Token} {stack : List Frame} {t : Token} (h : Opened ts stack)
      (hk : t.kind = .operator) (ht : t.op? = some .sub) : Opened (ts ++ [t]) (.minus t :: stack)
  | infixed {ts ls : List Token} {stack : List Frame} {left : Operand} {op : Op} {t : Token}
      (h : Opened ts stack) (hl : Derives op.leftLevel ls left.tree) (ht : t.op? = some op)
      (hstack : op.level ≤ operandLevel stack) :
      Opened (ts ++ (ls ++ [t])) (.infixed left op t :: stack)

/-- The tokens read so far, told by the state.  Between two tokens the operand held is always an
atom: what the operators before it make of it is left to the frames. -/
inductive Reads : List Token → State → Prop where
  | operand {ts : List Token} {stack : List Frame} (h : Opened ts stack) :
      Reads ts (.operand stack)
  | operator {ts hs : List Token} {stack : List Frame} {held : Operand} (h : Opened ts stack)
      (hh : Derives .atom hs held.tree) : Reads (ts ++ hs) (.operator stack held)

theorem Derives.of_negate {limit : Nat} {t : Token} {hs : List Token} {held new : Operand}
    (hk : t.kind = .operator) (ht : t.op? = some .sub) (hh : Derives .power hs held.tree)
    (h : negate limit t held = .ok new) : Derives .power (t :: hs) new.tree := by
  rw [negate] at h
  split at h
  · exact absurd h (by simp)
  · cases h
    exact .negation hk ht hh

theorem Derives.of_join {limit : Nat} {op : Op} {t : Token} {ls hs : List Token}
    {left held new : Operand} (hl : Derives op.leftLevel ls left.tree) (ht : t.op? = some op)
    (hh : Derives op.rightLevel hs held.tree) (h : join limit left op t held = .ok new) :
    Derives op.level (ls ++ t :: hs) new.tree := by
  rw [join] at h
  split at h
  · exact absurd h (by simp)
  · cases h
    exact .infixed hl ht hh

/-- A token that closes a frame leaves an operand that it may have on its left. -/
theorem level_le_leftLevel {f : Frame} {t : Token} (hf : f.Open)
    (hnone : opAbove? f.floor t = none) : ∀ op, t.op? = some op → f.level ≤ op.leftLevel :=
  fun op ht => (power_le_floor_iff hf op).1 (opAbove?_eq_none_iff.1 hnone op ht)

/-- Taking a token where an operator is due keeps the account of what was read.  The level of the
operand grows from frame to frame, but never past what the next frame or the token can take. -/
theorem Reads.takeOperator {limit : Nat} {t : Token} {stack : List Frame} {held : Operand}
    {state : State} (h : Parser.takeOperator limit t stack held = .ok state) :
    ∀ {a : Level} {ts hs : List Token}, Opened ts stack → Derives a hs held.tree →
      a ≤ operandLevel stack → (∀ op, t.op? = some op → a ≤ op.leftLevel) →
      Reads (ts ++ hs ++ [t]) state := by
  fun_induction Parser.takeOperator limit t stack held with
  | case1 stack held op habove =>
    intro a ts hs hopened hheld _ hleft
    cases h
    obtain ⟨ht, hpower⟩ := opAbove?_eq_some_iff.1 habove
    rw [List.append_assoc]
    exact .operand (.infixed hopened (.looser hheld (hleft op ht)) ht
      ((floor_lt_power_iff stack op).1 hpower))
  | case2 held hnone => exact absurd h (by simp)
  | case3 held opener stack hc hnone =>
    intro a ts hs hopened hheld _ _
    cases h
    cases hopened with
    | @group ts _ _ hopened ho =>
      have hassoc : ts ++ [opener] ++ hs ++ [t] = ts ++ opener :: (hs ++ [t]) := by simp
      rw [hassoc]
      exact .operator hopened (.group ho hc (.looser hheld (Level.le_equation a)))
  | case4 held opener stack hc hnone => exact absurd h (by simp)
  | case5 held sign stack new hnew hnone ih =>
    intro a ts hs hopened hheld ha _
    cases hopened with
    | @minus ts _ _ hopened hk ht =>
      have hnegated := Derives.of_negate hk ht (.looser hheld ha) hnew
      have hassoc : ts ++ [sign] ++ hs ++ [t] = ts ++ sign :: hs ++ [t] := by simp
      rw [hassoc]
      exact ih h hopened hnegated (power_le_operandLevel stack)
        (level_le_leftLevel (f := .minus sign) trivial hnone)
  | case6 held sign stack error hnew hnone => exact absurd h (by simp)
  | case7 held left op token stack new hnew hnone ih =>
    intro a ts hs hopened hheld ha _
    cases hopened with
    | @infixed ts ls _ _ _ _ hopened hl ht hstack =>
      have hjoined := Derives.of_join hl ht (.looser hheld ha) hnew
      have hassoc : ts ++ (ls ++ [token]) ++ hs ++ [t] = ts ++ (ls ++ token :: hs) ++ [t] := by
        simp
      rw [hassoc]
      exact ih h hopened hjoined hstack
        (level_le_leftLevel (f := .infixed left op token) trivial hnone)
  | case8 held left op token stack error hnew hnone => exact absurd h (by simp)

/-- Taking a token where an operand is due keeps the account of what was read. -/
theorem Reads.takeOperand {limit : Nat} {t : Token} {stack : List Frame} {ts : List Token}
    {state : State} (hopened : Opened ts stack)
    (h : Parser.takeOperand limit stack t = .ok state) : Reads (ts ++ [t]) state := by
  unfold Parser.takeOperand at h
  split at h
  · exact absurd h (by simp)
  · split at h
    · rename_i hk
      cases h
      exact .operator hopened (.number hk)
    · rename_i hk
      cases h
      exact .operator hopened (.name hk)
    · split_ifs at h with ho
      cases h
      exact .operand (.group hopened ho)
    · rename_i hk
      split_ifs at h with ht
      cases h
      exact .operand (.minus hopened hk ht)
    · exact absurd h (by simp)
    · exact absurd h (by simp)

/-- **Soundness of one step.**  The account of what was read is kept. -/
theorem Reads.step {limit : Nat} {ts : List Token} {t : Token} {s s' : State} (hs : Reads ts s)
    (h : Parser.step limit s t = .ok s') : Reads (ts ++ [t]) s' := by
  cases hs with
  | operand hopened => exact Reads.takeOperand hopened h
  | operator hopened hheld =>
    exact Reads.takeOperator h hopened hheld (Level.atom_le _) (fun op _ => Level.atom_le _)

/-- **Soundness of a run.** -/
theorem Reads.foldlM {limit : Nat} {us : List Token} :
    ∀ {ts : List Token} {s s' : State}, Reads ts s → us.foldlM (Parser.step limit) s = .ok s' →
      Reads (ts ++ us) s' := by
  induction us with
  | nil =>
    intro ts s s' hs h
    cases h
    simpa using hs
  | cons t us ih =>
    intro ts s s' hs h
    rw [List.foldlM_cons] at h
    cases hstep : Parser.step limit s t with
    | error error => exact absurd (hstep ▸ h) (by simp [bind, Except.bind])
    | ok mid =>
      rw [hstep] at h
      have hrest := ih (hs.step hstep) h
      rwa [List.append_assoc, List.singleton_append] at hrest

/-- Closing all frames makes of the operand held a tree for all tokens that were read. -/
theorem derives_of_closeAll {limit : Nat} {stack : List Frame} {held : Operand} {e : Expr}
    (h : closeAll limit stack held = .ok e) :
    ∀ {a : Level} {ts hs : List Token}, Opened ts stack → Derives a hs held.tree →
      a ≤ operandLevel stack → Derives .equation (ts ++ hs) e := by
  fun_induction closeAll limit stack held with
  | case1 held =>
    intro a ts hs hopened hheld ha
    cases h
    cases hopened
    exact .looser hheld ha
  | case2 opener stack held => exact absurd h (by simp)
  | case3 sign stack held new hnew ih =>
    intro a ts hs hopened hheld ha
    cases hopened with
    | @minus ts _ _ hopened hk ht =>
      have hnegated := Derives.of_negate hk ht (.looser hheld ha) hnew
      rw [List.append_assoc, List.singleton_append]
      exact ih h hopened hnegated (power_le_operandLevel stack)
  | case4 sign stack held error hnew => exact absurd h (by simp)
  | case5 left op token stack held new hnew ih =>
    intro a ts hs hopened hheld ha
    cases hopened with
    | @infixed ts ls _ _ _ _ hopened hl ht hstack =>
      have hjoined := Derives.of_join hl ht (.looser hheld ha) hnew
      have hassoc : ts ++ (ls ++ [token]) ++ hs = ts ++ (ls ++ token :: hs) := by simp
      rw [hassoc]
      exact ih h hopened hjoined hstack
  | case6 left op token stack held error hnew => exact absurd h (by simp)

/-- What is read as a whole derives as a whole, whatever the limit. -/
theorem derives_of_run {limit : Nat} {ts : List Token} {e : Expr}
    (h : Parser.run limit ts = .ok e) : Derives .equation ts e := by
  unfold Parser.run at h
  cases hrun : ts.foldlM (Parser.step limit) (.operand []) with
  | error error => exact absurd (hrun ▸ h) (by simp [bind, Except.bind])
  | ok s =>
    rw [hrun] at h
    have hreads := Reads.foldlM (.operand .nil) hrun
    rw [List.nil_append] at hreads
    cases hreads with
    | operand hopened => exact absurd h (by simp [bind, Except.bind, finish])
    | operator hopened hheld => exact derives_of_closeAll h hopened hheld (Level.atom_le _)

/-- **The grammar is unambiguous.** -/
theorem Derives.unique {ts : List Token} {e e' : Expr} (h : Derives .equation ts e)
    (h' : Derives .equation ts e') : e = e' := by
  have hrun := run_of_derives h (Nat.le_refl _)
  rw [run_of_derives h' (Nat.le_refl _)] at hrun
  exact (Except.ok.inj hrun).symm

/-! ## The parser and the grammar -/

theorem takeOperand_ne_unexpectedEquals (limit : Nat) (stack : List Frame) (t : Token)
    (span : Span) : takeOperand limit stack t ≠ .error (.unexpectedEquals span) := by
  unfold takeOperand
  repeat' split
  all_goals simp [unexpected]

theorem negate_ne_unexpectedEquals (limit : Nat) (t : Token) (held : Operand) (span : Span) :
    negate limit t held ≠ .error (.unexpectedEquals span) := by
  rw [negate]
  split <;> simp

theorem join_ne_unexpectedEquals (limit : Nat) (left : Operand) (op : Op) (t : Token)
    (right : Operand) (span : Span) :
    join limit left op t right ≠ .error (.unexpectedEquals span) := by
  rw [join]
  split <;> simp

theorem takeOperator_ne_unexpectedEquals (limit : Nat) (t : Token) (stack : List Frame)
    (held : Operand) (span : Span) :
    takeOperator limit t stack held ≠ .error (.unexpectedEquals span) := by
  fun_induction takeOperator limit t stack held with
  | case1 stack held op habove => simp
  | case2 held hnone => split <;> simp [unexpected]
  | case3 held opener stack hc hnone => simp
  | case4 held opener stack hc hnone => split <;> simp [unexpected]
  | case5 held sign stack new hnew hnone ih => exact ih
  | case6 held sign stack error hnew hnone =>
    exact fun h => negate_ne_unexpectedEquals limit sign held span (by simpa [hnew] using h)
  | case7 held left op token stack new hnew hnone ih => exact ih
  | case8 held left op token stack error hnew hnone =>
    exact fun h => join_ne_unexpectedEquals limit left op token held span (by simpa [hnew] using h)

theorem closeAll_ne_unexpectedEquals (limit : Nat) (stack : List Frame) (held : Operand)
    (span : Span) : closeAll limit stack held ≠ .error (.unexpectedEquals span) := by
  fun_induction closeAll limit stack held with
  | case1 held => simp
  | case2 opener stack held => simp
  | case3 sign stack held new hnew ih => exact ih
  | case4 sign stack held error hnew =>
    exact fun h => negate_ne_unexpectedEquals limit sign held span (by simpa [hnew] using h)
  | case5 left op token stack held new hnew ih => exact ih
  | case6 left op token stack held error hnew =>
    exact fun h => join_ne_unexpectedEquals limit left op token held span (by simpa [hnew] using h)

theorem finish_ne_unexpectedEquals (limit : Nat) (last : Span) (s : State) (span : Span) :
    finish limit last s ≠ .error (.unexpectedEquals span) := by
  cases s with
  | operand stack =>
    rw [finish]
    split <;> simp
  | operator stack held => exact closeAll_ne_unexpectedEquals limit stack held span

/-- A run does not care where `=` stands. -/
theorem run_ne_unexpectedEquals (limit : Nat) (ts : List Token) (span : Span) :
    Parser.run limit ts ≠ .error (.unexpectedEquals span) := by
  have hfold : ∀ s, ts.foldlM (step limit) s ≠ .error (.unexpectedEquals span) := by
    induction ts with
    | nil => intro s; simp [pure, Except.pure]
    | cons t ts ih =>
      intro s
      rw [List.foldlM_cons]
      cases hstep : step limit s t with
      | ok next => exact ih next
      | error error =>
        intro h
        obtain rfl : error = .unexpectedEquals span := by simpa [bind, Except.bind] using h
        cases s with
        | operand stack => exact takeOperand_ne_unexpectedEquals limit stack t span hstep
        | operator stack held =>
          exact takeOperator_ne_unexpectedEquals limit t stack held span hstep
  unfold Parser.run
  cases hs : ts.foldlM (step limit) (.operand []) with
  | ok s => exact finish_ne_unexpectedEquals limit (lastSpan ts) s span
  | error error =>
    intro h
    obtain rfl : error = .unexpectedEquals span := by simpa [bind, Except.bind] using h
    exact hfold _ hs

/-- The parser gives the tree of a run if no `=` of it is misplaced. -/
theorem parse_of_run {limit : Nat} {ts : List Token} {e : Expr}
    (h : Parser.run limit ts = .ok e) :
    (e.EqualsOnlyAtRoot ∧ Expr.parse limit ts = .ok e) ∨
      (¬ e.EqualsOnlyAtRoot ∧ ∃ span, Expr.parse limit ts = .error (.unexpectedEquals span)) := by
  rw [← Expr.misplacedEquals?_eq_none_iff, Expr.parse, h]
  cases he : e.misplacedEquals? with
  | none => exact .inl ⟨rfl, by simp [bind, Except.bind, he, pure, Except.pure]⟩
  | some t => exact .inr ⟨by simp, t.span, by simp [bind, Except.bind, he, throw, throwThe,
      MonadExceptOf.throw]⟩

/-- The parser fails as the run does. -/
theorem parse_of_run_error {limit : Nat} {ts : List Token} {error : ParseError}
    (h : Parser.run limit ts = .error error) : Expr.parse limit ts = .error error := by
  rw [Expr.parse, h]
  rfl

/-- What the parser gives is left by a run, and no node below its root is an equation. -/
theorem run_of_parse {limit : Nat} {ts : List Token} {e : Expr}
    (h : Expr.parse limit ts = .ok e) : run limit ts = .ok e ∧ e.EqualsOnlyAtRoot := by
  cases hrun : Parser.run limit ts with
  | error error => exact absurd (parse_of_run_error hrun ▸ h) (by simp)
  | ok e' =>
    rcases parse_of_run hrun with ⟨hroot, hparse⟩ | ⟨-, span, hparse⟩
    · obtain rfl : e' = e := by simpa [hparse] using h
      exact ⟨rfl, hroot⟩
    · exact absurd (hparse ▸ h) (by simp)

/-- What the parser gives is derived by the tokens, whatever the limit. -/
theorem derives_of_parse {limit : Nat} {ts : List Token} {e : Expr}
    (h : Expr.parse limit ts = .ok e) : Derives .equation ts e ∧ e.EqualsOnlyAtRoot := by
  obtain ⟨hrun, hroot⟩ := run_of_parse h
  exact ⟨derives_of_run hrun, hroot⟩

/-- **The parser accepts exactly its grammar.**  Where the limit is no less than the number of
tokens, the parser gives a tree exactly if the tokens derive it and no node below its root is an
equation; it reports a misplaced `=` exactly if the tokens derive a tree with one; and what the
tokens derive is unique. -/
theorem parse_grammar {limit : Nat} {tokens : List Token} (hlimit : tokens.length ≤ limit) :
    (∀ e, Expr.parse limit tokens = .ok e ↔ Derives .equation tokens e ∧ e.EqualsOnlyAtRoot) ∧
      ((∃ span, Expr.parse limit tokens = .error (.unexpectedEquals span)) ↔
        ∃ e, Derives .equation tokens e ∧ ¬ e.EqualsOnlyAtRoot) ∧
      ∀ e e', Derives .equation tokens e → Derives .equation tokens e' → e = e' := by
  refine ⟨fun e => ⟨derives_of_parse, ?_⟩, ⟨?_, ?_⟩, fun e e' => Derives.unique⟩
  · rintro ⟨hderives, hroot⟩
    rcases parse_of_run (run_of_derives hderives hlimit) with ⟨-, hparse⟩ | ⟨hnot, -⟩
    · exact hparse
    · exact absurd hroot hnot
  · rintro ⟨span, h⟩
    cases hrun : Parser.run limit tokens with
    | error error =>
      obtain rfl : error = .unexpectedEquals span := by
        simpa [parse_of_run_error hrun] using h
      exact absurd hrun (run_ne_unexpectedEquals limit tokens span)
    | ok e =>
      rcases parse_of_run hrun with ⟨-, hparse⟩ | ⟨hnot, -⟩
      · exact absurd (hparse ▸ h) (by simp)
      · exact ⟨e, derives_of_run hrun, hnot⟩
  · rintro ⟨e, hderives, hnot⟩
    rcases parse_of_run (run_of_derives hderives hlimit) with ⟨hroot, -⟩ | ⟨-, hparse⟩
    · exact absurd hroot hnot
    · exact hparse

/-- A minus sign takes a power in, and `=` the rest. -/
theorem parse_grammar_negated_power :
    ∃ tokens e, tokenize "-x^2=y" = .ok tokens ∧ tokens.length ≤ 6 ∧
      Derives .equation tokens e ∧ e.EqualsOnlyAtRoot ∧ e.text = "(0 - (x ^ 2)) = y" := by
  have htokens : tokenize "-x^2=y" = .ok [⟨.operator, "-", ⟨1, 1⟩⟩, ⟨.name, "x", ⟨2, 2⟩⟩,
      ⟨.operator, "^", ⟨3, 3⟩⟩, ⟨.number, "2", ⟨4, 4⟩⟩, ⟨.equals, "=", ⟨5, 5⟩⟩,
      ⟨.name, "y", ⟨6, 6⟩⟩] := by decide +kernel
  refine ⟨_, .binary .equals ⟨.equals, "=", ⟨5, 5⟩⟩
    (.binary .sub ⟨.operator, "-", ⟨1, 1⟩⟩ (.leaf ⟨.number, "0", ⟨1, 1⟩⟩)
      (.binary .pow ⟨.operator, "^", ⟨3, 3⟩⟩ (.leaf ⟨.name, "x", ⟨2, 2⟩⟩)
        (.leaf ⟨.number, "2", ⟨4, 4⟩⟩)))
    (.leaf ⟨.name, "y", ⟨6, 6⟩⟩), htokens, by decide, ?_⟩
  rw [← and_assoc]
  exact ⟨((@parse_grammar 6 _ (by decide)).1 _).1 (by decide +kernel), by decide +kernel⟩

end EquationNetwork.Parser
