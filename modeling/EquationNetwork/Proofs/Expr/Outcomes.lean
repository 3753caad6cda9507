import EquationNetwork.Proofs.Expr.Isolation
import EquationNetwork.Proofs.Expr.WellFormed

/-!
# How an isolation ends

Isolating a variable can fail in four ways: there is no equation, the variable is not in it, an
operator on the way cannot be undone, or there are too many of them.  Which of these it is can be
told from the operators between `=` and the first occurrence of the variable.

* `obstacle?` — the first move that has no inverse.
* `Unwinding.run_outcome` — **how a run ends**, by the operators on its way.
* `Unwinding.run_mono` — more moves than are needed change nothing.
* `Expr.solve_outcome` — **how solving and isolating end**, for every equation that is read.
-/

namespace EquationNetwork

/-! ## One move -/

/-- A move that is not into an exponent has an inverse. -/
theorem Op.exists_undo {op : Op} {side : Side} (hop : op ≠ .equals)
    (hturn : (op, side) ≠ (.pow, .right)) (opposite moved : Expr) (span : Span) :
    ∃ after, op.undo side opposite moved span = .ok after := by
  cases op with
  | add | mul => exact ⟨_, rfl⟩
  | sub | div => cases side <;> exact ⟨_, rfl⟩
  | pow =>
    cases side with
    | left => exact ⟨_, rfl⟩
    | right => exact absurd rfl hturn
  | equals => exact absurd rfl hop

/-- The move to an operand of such an operator is made. -/
theorem Unwinding.exists_step (name : String) {op : Op} {side : Side} (hop : op ≠ .equals)
    (hturn : (op, side) ≠ (.pow, .right)) (t : Token) {l r kept : Expr}
    (hkept : (Expr.binary op t l r).child? side = some kept) (opposite : Expr) :
    ∃ after, step name ⟨.binary op t l r, opposite⟩ side = .ok ⟨kept, after⟩ := by
  cases side with
  | left =>
    cases hkept
    obtain ⟨after, hafter⟩ := Op.exists_undo hop hturn opposite r t.span
    exact ⟨after, by simp [step, hafter, Except.map]⟩
  | right =>
    cases hkept
    obtain ⟨after, hafter⟩ := Op.exists_undo hop hturn opposite l t.span
    exact ⟨after, by simp [step, hafter, Except.map]⟩

/-- The number, counted from 1, of the first move that has no inverse: the one into an exponent. -/
def obstacle? (turns : List (Op × Side)) : Option Nat :=
  (turns.findIdx? (· == (.pow, .right))).map (· + 1)

theorem obstacle?_cons (turn : Op × Side) (turns : List (Op × Side)) :
    obstacle? (turn :: turns) =
      if turn = (.pow, .right) then some 1 else (obstacle? turns).map (· + 1) := by
  rw [obstacle?, obstacle?, List.findIdx?_cons]
  by_cases hturn : turn = (.pow, .right) <;> simp [hturn]

theorem obstacle?_pos {turns : List (Op × Side)} {k : Nat} (h : obstacle? turns = some k) :
    0 < k := by
  obtain ⟨i, -, rfl⟩ := Option.map_eq_some_iff.1 h
  exact i.succ_pos

namespace Unwinding

/-! ## How a run ends -/

/-- How the moves of a run end, by the operators on its way, when some are made already. -/
inductive Ends (limit done : Nat) (turns : List (Op × Side)) : Except SolveError Unwinding → Prop
  /-- A move within the limit has no inverse. -/
  | noInverse {k : Nat} (hk : obstacle? turns = some k) (hlimit : done + k ≤ limit) :
      Ends limit done turns (.error (.noInverse .pow))
  /-- The limit is used up, and up to there every move had an inverse. -/
  | limitExceeded (hobstacle : ∀ k, obstacle? turns = some k → limit < done + k)
      (hlength : limit < done + turns.length) : Ends limit done turns (.error (.limitExceeded limit))
  /-- All moves are made. -/
  | ok (hobstacle : obstacle? turns = none) (hlength : done + turns.length ≤ limit)
      (last : Unwinding) : Ends limit done turns (.ok last)

/-- One more move before the others, if it has an inverse. -/
theorem Ends.cons {limit done : Nat} {turn : Op × Side} {turns : List (Op × Side)}
    {result : Except SolveError Unwinding} (hturn : turn ≠ (.pow, .right))
    (h : Ends limit (done + 1) turns result) : Ends limit done (turn :: turns) result := by
  have hobstacle : obstacle? (turn :: turns) = (obstacle? turns).map (· + 1) := by
    rw [obstacle?_cons, if_neg hturn]
  cases h with
  | noInverse hk hlimit =>
    exact .noInverse (k := _ + 1) (by rw [hobstacle, hk]; rfl) (by omega)
  | limitExceeded hlater hlength =>
    refine .limitExceeded (fun k hk => ?_) (by rw [List.length_cons]; omega)
    rw [hobstacle] at hk
    obtain ⟨i, hi, rfl⟩ := Option.map_eq_some_iff.1 hk
    have hlt := hlater i hi
    omega
  | ok hnone hlength last =>
    exact .ok (by rw [hobstacle, hnone]; rfl) (by rw [List.length_cons]; omega) last

section

variable {limit done : Nat} {turns : List (Op × Side)} {result : Except SolveError Unwinding}

theorem Ends.noInverse_iff (h : Ends limit done turns result) :
    result = .error (.noInverse .pow) ↔ ∃ k, obstacle? turns = some k ∧ done + k ≤ limit := by
  cases h with
  | noInverse hk hlimit => exact iff_of_true rfl ⟨_, hk, hlimit⟩
  | limitExceeded hobstacle hlength =>
    refine iff_of_false nofun ?_
    rintro ⟨k, hk, hle⟩
    exact absurd (hobstacle k hk) (Nat.not_lt.2 hle)
  | ok hobstacle hlength last => exact iff_of_false nofun (by simp [hobstacle])

theorem Ends.limitExceeded_iff (h : Ends limit done turns result) :
    result = .error (.limitExceeded limit) ↔
      (∀ k, obstacle? turns = some k → limit < done + k) ∧ limit < done + turns.length := by
  cases h with
  | noInverse hk hlimit =>
    exact iff_of_false nofun fun hnot => absurd (hnot.1 _ hk) (Nat.not_lt.2 hlimit)
  | limitExceeded hobstacle hlength => exact iff_of_true rfl ⟨hobstacle, hlength⟩
  | ok hobstacle hlength last =>
    exact iff_of_false nofun fun hnot => absurd hnot.2 (Nat.not_lt.2 hlength)

theorem Ends.exists_ok_iff (h : Ends limit done turns result) :
    (∃ last, result = .ok last) ↔ obstacle? turns = none ∧ done + turns.length ≤ limit := by
  cases h with
  | noInverse hk hlimit => exact iff_of_false nofun (by simp [hk])
  | limitExceeded hobstacle hlength =>
    exact iff_of_false nofun fun hall => absurd hall.2 (Nat.not_le.2 hlength)
  | ok hobstacle hlength last => exact iff_of_true ⟨last, rfl⟩ ⟨hobstacle, hlength⟩

end

/-- **How a run ends.**  On a path that stays within an expression without `=`, this is told by the
operators on the way. -/
theorem run_outcome {name : String} {limit : Nat} {path : Path} :
    ∀ {done : Nat} {u : Unwinding} {node : Expr}, done ≤ limit →
      u.current.at? path = some node → u.current.firstEquals? = none →
      Ends limit done (u.current.turns path) (u.run name limit done path) := by
  induction path with
  | nil => exact fun hdone _ _ => .ok rfl hdone _
  | cons side path ih =>
    intro done u node hdone hat hequals
    obtain ⟨current, opposite⟩ := u
    cases current with
    | leaf t => exact absurd hat (by simp)
    | binary op t l r =>
      obtain ⟨hop, hl, hr⟩ := Expr.firstEquals?_binary_eq_none_iff.1 hequals
      obtain ⟨kept, hkept, hat⟩ := Option.bind_eq_some_iff.1 hat
      have hkept_equals : kept.firstEquals? = none := by
        cases side with
        | left => cases hkept; exact hl
        | right => cases hkept; exact hr
      show Ends limit done ((Expr.binary op t l r).turns (side :: path)) _
      rw [Expr.turns_binary hkept, run]
      by_cases hlimit : limit ≤ done
      · rw [if_pos hlimit]
        refine .limitExceeded (fun k hk => ?_) (by rw [List.length_cons]; omega)
        have hpos := obstacle?_pos hk
        omega
      · rw [if_neg hlimit]
        by_cases hturn : (op, side) = (.pow, .right)
        · cases hturn
          exact .noInverse (k := 1) (by rw [obstacle?_cons, if_pos rfl]) (by omega)
        · obtain ⟨after, hstep⟩ := exists_step name hop hturn t hkept opposite
          rw [hstep]
          exact (ih (u := ⟨kept, after⟩) (by omega) hat hkept_equals).cons hturn

/-! ## Larger limits -/

/-- **A run that ends well needs no larger limit.** -/
theorem run_mono {name : String} {limit limit' : Nat} (hlimit : limit ≤ limit') {path : Path} :
    ∀ {done : Nat} {u last : Unwinding}, u.run name limit done path = .ok last →
      u.run name limit' done path = .ok last := by
  induction path with
  | nil => exact fun h => h
  | cons side path ih =>
    intro done u last h
    obtain ⟨next, hnext, hrest⟩ := run_cons h
    have hdone := lt_of_run_cons h
    rw [run, if_neg (by omega), hnext]
    exact ih hrest

end Unwinding

/-! ## How solving ends -/

namespace Expr

variable {e : Expr} {name : String} {limit : Nat}

theorem approach_of_not_isEquation (h : e.isEquation = false) (name : String) :
    e.approach name = .error .notAnEquation := by
  cases hsides : e.sides? with
  | none => simp [approach, hsides]
  | some sides =>
    obtain ⟨t, rfl⟩ := sides?_eq_some hsides
    exact absurd h (by simp)

/-- A variable of an equation can be approached, and nothing else can. -/
theorem approach_of_isEquation (h : e.isEquation = true) (name : String) :
    (name ∉ e.variableNames ∧ e.approach name = .error (.variableNotFound name)) ∨
      ∃ a, name ∈ e.variableNames ∧ e.approach name = .ok a := by
  rw [mem_variableNames_iff]
  cases hpath : e.pathOf? name with
  | none =>
    left
    obtain ⟨t, lhs, rhs, rfl⟩ := isEquation_iff.1 h
    simp [approach, sides?, hpath]
  | some path =>
    right
    have hfirst := pathOf?_eq_some_iff.1 hpath
    obtain ⟨side, rest, rfl⟩ := hfirst.exists_cons h
    obtain ⟨t, lhs, rhs, rfl⟩ := isEquation_iff.1 h
    cases side with
    | left => exact ⟨⟨.left, ⟨lhs, rhs⟩, rest⟩, rfl, approach_eq_ok_iff.2 ⟨h, hfirst, rfl, rfl⟩⟩
    | right => exact ⟨⟨.right, ⟨rhs, lhs⟩, rest⟩, rfl, approach_eq_ok_iff.2 ⟨h, hfirst, rfl, rfl⟩⟩

theorem solve_of_approach_error {error : SolveError} (h : e.approach name = .error error) :
    e.solve limit name = .error error := by
  rw [solve, unwind, h]
  rfl

theorem solve_of_approach_ok {a : Approach} (h : e.approach name = .ok a) :
    e.solve limit name = (a.start.run name limit 0 a.path).map Unwinding.opposite := by
  rw [solve, unwind, h]
  show ((a.start.run name limit 0 a.path).map _).map _ = _
  cases a.start.run name limit 0 a.path <;> rfl

/-- The moves to a variable of a well-formed equation end as the operators on the way tell. -/
theorem WellFormed.ends (he : e.WellFormed) {a : Approach} (ha : e.approach name = .ok a)
    (limit : Nat) : Unwinding.Ends limit 0 (e.turns (a.side :: a.path)).tail
      (a.start.run name limit 0 a.path) := by
  obtain ⟨t, lhs, rhs, rfl, hstart, v, hat, -⟩ := approach_ok ha
  obtain ⟨-, -, hcurrent, -⟩ := approach_eq_ok_iff.1 ha
  obtain ⟨hl, hr⟩ := equalsOnlyAtRoot_binary_iff.1 he.equalsOnlyAtRoot
  have hequals : a.start.current.firstEquals? = none := by
    rcases hstart with ⟨-, hstart⟩ | ⟨-, hstart⟩
    · rw [hstart]
      exact hl
    · rw [hstart]
      exact hr
  rw [turns_binary hcurrent]
  exact Unwinding.run_outcome limit.zero_le hat hequals

/-- Only two errors come up in the moves: the others are found before. -/
theorem WellFormed.error_of_run (he : e.WellFormed) {a : Approach} (ha : e.approach name = .ok a)
    {error : SolveError} (h : a.start.run name limit 0 a.path = .error error) :
    error = .noInverse .pow ∨ error = .limitExceeded limit := by
  have hends := he.ends ha limit
  rw [h] at hends
  cases hends with
  | noInverse => exact .inl rfl
  | limitExceeded => exact .inr rfl

/-- The errors that are found before any move. -/
theorem WellFormed.solve_eq_error_iff (he : e.WellFormed) {error : SolveError}
    (hpow : error ≠ .noInverse .pow) (hlimit : error ≠ .limitExceeded limit) :
    e.solve limit name = .error error ↔ (e.isEquation = false ∧ error = .notAnEquation) ∨
      (e.isEquation = true ∧ name ∉ e.variableNames ∧ error = .variableNotFound name) := by
  cases hequation : e.isEquation with
  | false =>
    rw [solve_of_approach_error (approach_of_not_isEquation hequation name)]
    simp [eq_comm]
  | true =>
    rcases approach_of_isEquation hequation name with ⟨hname, happroach⟩ | ⟨a, hname, ha⟩
    · rw [solve_of_approach_error happroach]
      simp [hname, eq_comm]
    · rw [solve_of_approach_ok ha, map_eq_error_iff]
      refine iff_of_false (fun hrun => ?_) (by simp [hname])
      rcases he.error_of_run ha hrun with h | h
      · exact hpow h
      · exact hlimit h

/-- Solving and isolating fail together. -/
theorem isolate_eq_error_iff {error : SolveError} :
    e.isolate limit name = .error error ↔ e.solve limit name = .error error := by
  rw [isolate, solve, map_eq_error_iff, map_eq_error_iff]

theorem unwind_mono {limit' : Nat} (hlimit : limit ≤ limit') {found : Side × Unwinding}
    (h : e.unwind limit name = .ok found) : e.unwind limit' name = .ok found := by
  unfold unwind at h ⊢
  cases ha : e.approach name with
  | error error => exact absurd h (by simp [ha])
  | ok a =>
    rw [ha] at h
    exact map_eq_ok_mono (fun _ => Unwinding.run_mono hlimit) h

/-- **A solution needs no larger limit.** -/
theorem solve_mono {limit' : Nat} (hlimit : limit ≤ limit') {s : Expr}
    (h : e.solve limit name = .ok s) : e.solve limit' name = .ok s :=
  map_eq_ok_mono (fun _ => unwind_mono hlimit) h

theorem isolate_mono {limit' : Nat} (hlimit : limit ≤ limit') {q : Expr}
    (h : e.isolate limit name = .ok q) : e.isolate limit' name = .ok q :=
  map_eq_ok_mono (fun _ => unwind_mono hlimit) h

/-- **How solving and isolating end.**  Let an equation be read.  What matters are the operators
between `=` and the first occurrence of the variable: which is the first that has it in an exponent,
and how many there are.  In the moves themselves only these two errors come up. -/
theorem solve_outcome {depth : Nat} {text : String} (hread : read depth text = .ok e)
    (name : String) (limit : Nat) :
    (e.solve limit name = .error .notAnEquation ↔ e.isEquation = false) ∧
      (e.solve limit name = .error (.variableNotFound name) ↔
        e.isEquation = true ∧ name ∉ e.variableNames) ∧
      (e.isEquation = true → name ∈ e.variableNames → ∃ path, e.FirstOccurrence name path ∧
        (e.solve limit name = .error (.noInverse .pow) ↔
          ∃ k, obstacle? (e.turns path).tail = some k ∧ k ≤ limit) ∧
        (e.solve limit name = .error (.limitExceeded limit) ↔
          (∀ k, obstacle? (e.turns path).tail = some k → limit < k) ∧
            limit < (e.turns path).tail.length) ∧
        ((∃ s, e.solve limit name = .ok s) ↔
          obstacle? (e.turns path).tail = none ∧ (e.turns path).tail.length ≤ limit)) ∧
      (∀ a error, e.approach name = .ok a → a.start.run name limit 0 a.path = .error error →
        error = .noInverse .pow ∨ error = .limitExceeded limit) ∧
      (∀ error, e.isolate limit name = .error error ↔ e.solve limit name = .error error) ∧
      ∀ limit' ≥ limit, (∀ s, e.solve limit name = .ok s → e.solve limit' name = .ok s) ∧
        ∀ q, e.isolate limit name = .ok q → e.isolate limit' name = .ok q := by
  have he := wellFormed_of_read hread
  refine ⟨?_, ?_, fun hequation hname => ?_, fun a error ha => he.error_of_run ha,
    fun error => isolate_eq_error_iff,
    fun limit' hlimit => ⟨fun s => solve_mono hlimit, fun q => isolate_mono hlimit⟩⟩
  · simp [he.solve_eq_error_iff]
  · simp [he.solve_eq_error_iff]
  · obtain ⟨hnot, -⟩ | ⟨a, -, ha⟩ := approach_of_isEquation hequation name
    · exact absurd hname hnot
    · obtain ⟨-, hfirst, -⟩ := approach_eq_ok_iff.1 ha
      have hends := he.ends ha limit
      refine ⟨a.side :: a.path, hfirst, ?_, ?_, ?_⟩
      · rw [solve_of_approach_ok ha, map_eq_error_iff, hends.noInverse_iff]
        simp only [Nat.zero_add]
      · rw [solve_of_approach_ok ha, map_eq_error_iff, hends.limitExceeded_iff]
        simp only [Nat.zero_add]
      · rw [solve_of_approach_ok ha, exists_map_eq_ok_iff, hends.exists_ok_iff, Nat.zero_add]

/-- The first `x` is in an exponent, which the second move would have to undo; the second `x` could be
isolated. -/
theorem solve_outcome_exponent :
    ∃ e, read 256 "2 * a ^ x = c + x" = .ok e ∧ e.FirstOccurrence "x" [.left, .right, .right] ∧
      (e.turns [.left, .right, .right]).tail = [(.mul, .right), (.pow, .right)] ∧
      e.solve 1 "x" = .error (.limitExceeded 1) ∧ e.solve 2 "x" = .error (.noInverse .pow) ∧
      (∃ s, e.solve 1 "c" = .ok s) ∧ e.solve 9 "z" = .error (.variableNotFound "z") := by
  let power : Expr := .binary .pow ⟨.operator, "^", ⟨7, 7⟩⟩ (.leaf ⟨.name, "a", ⟨5, 5⟩⟩)
    (.leaf ⟨.name, "x", ⟨9, 9⟩⟩)
  let product : Expr := .binary .mul ⟨.operator, "*", ⟨3, 3⟩⟩ (.leaf ⟨.number, "2", ⟨1, 1⟩⟩) power
  let sum : Expr := .binary .add ⟨.operator, "+", ⟨15, 15⟩⟩ (.leaf ⟨.name, "c", ⟨13, 13⟩⟩)
    (.leaf ⟨.name, "x", ⟨17, 17⟩⟩)
  let e : Expr := .binary .equals ⟨.equals, "=", ⟨11, 11⟩⟩ product sum
  have hread : read 256 "2 * a ^ x = c + x" = .ok e := by decide +kernel
  have hx : e.pathOf? "x" = some [.left, .right, .right] := by decide +kernel
  have hc : e.pathOf? "c" = some [.right, .left] := by decide +kernel
  have hturns : (e.turns [.left, .right, .right]).tail = [(.mul, .right), (.pow, .right)] := rfl
  have hobstacle : obstacle? (e.turns [.left, .right, .right]).tail = some 2 := by rw [hturns]; rfl
  have hisEquation : e.isEquation = true := rfl
  have hmember : ∀ name path, e.pathOf? name = some path → name ∈ e.variableNames := fun _ _ h =>
    mem_variableNames_iff.2 (by rw [h]; rfl)
  refine ⟨e, hread, pathOf?_eq_some_iff.1 hx, hturns, ?_, ?_, ?_, ?_⟩
  · obtain ⟨-, -, hends, -⟩ := solve_outcome hread "x" 1
    obtain ⟨path, hpath, -, hlimit, -⟩ := hends hisEquation (hmember _ _ hx)
    obtain rfl := Option.some.inj ((pathOf?_eq_some_iff.2 hpath).symm.trans hx)
    exact hlimit.2 ⟨by simp [hobstacle], by decide⟩
  · obtain ⟨-, -, hends, -⟩ := solve_outcome hread "x" 2
    obtain ⟨path, hpath, hnone, -⟩ := hends hisEquation (hmember _ _ hx)
    obtain rfl := Option.some.inj ((pathOf?_eq_some_iff.2 hpath).symm.trans hx)
    exact hnone.2 ⟨2, hobstacle, le_rfl⟩
  · obtain ⟨-, -, hends, -⟩ := solve_outcome hread "c" 1
    obtain ⟨path, hpath, -, -, hok⟩ := hends hisEquation (hmember _ _ hc)
    obtain rfl := Option.some.inj ((pathOf?_eq_some_iff.2 hpath).symm.trans hc)
    exact hok.2 ⟨rfl, by decide⟩
  · exact (solve_outcome hread "z" 9).2.1.2 ⟨hisEquation, by decide +kernel⟩

end Expr

end EquationNetwork
