import EquationNetwork.Proofs.Expr.Evaluation
import EquationNetwork.Proofs.Expr.Operands
import EquationNetwork.Proofs.Network.Search

/-!
# Numbers have derivations

Whatever number a request finds was derived step by step, each step from stored numbers and from
those of earlier steps.

* `Step`, `Network.Justified` — an equation gives the number of a quantity.
* `Network.Derivation` — steps, the latest first, each justified by those before it.
* `Network.Backed` — the numbers derived in a search are those of a derivation, and no step of it
  takes up a quantity or an equation that is still in hand.
* `Network.seek_backed` — **the invariant of the search.**
* `Network.resolve_sound` — **a number found** is stored or has a derivation.
-/

namespace EquationNetwork

/-! ## Derivations -/

/-- An equation gives the number of a quantity. -/
structure Step where
  quantity : Nat
  equation : Nat
  number : Float

/-- The quantity of a step with its number. -/
def Step.pair (step : Step) : Nat × Float := (step.quantity, step.number)

namespace Network

/-- The numbers that are stored or that earlier steps gave, by the names of the quantities. -/
def valuation (net : Network) (earlier : List Step) : Valuation := fun name =>
  (net.quantityId? name).bind fun id =>
    (net.numberOf? id).or ((earlier.map Step.pair).lookup id)

/-- A step that stored numbers and earlier steps justify. -/
structure Justified (net : Network) (earlier : List Step) (step : Step) : Prop where
  unknown : net.Unknown step.quantity
  linked : step.quantity ∈ net.linksOf step.equation
  /-- No earlier step is about the quantity or uses the equation. -/
  new : ∀ s ∈ earlier, s.quantity ≠ step.quantity ∧ s.equation ≠ step.equation
  /-- The other quantities of the equation have numbers. -/
  known : ∀ z ∈ net.linksOf step.equation, z ≠ step.quantity →
    (net.numberOf? z).isSome = true ∨ ∃ s ∈ earlier, s.quantity = z
  /-- The equation has the quantity as one leaf only, and its solution has the number of the
  step. -/
  solved : ∃ body solution, net.bodyOf? step.equation = some body ∧
    body.occurrences (net.nameOf step.quantity) = 1 ∧
    body.solve net.settings.maxRewriteSteps (net.nameOf step.quantity) = .ok solution ∧
    solution.evaluate (net.valuation earlier) = .ok step.number
  finite : step.number.isFinite = true

/-- Steps, the latest first, each of them justified by those before it. -/
inductive Derivation (net : Network) : List Step → Prop where
  | nil : Derivation net []
  | cons {step : Step} {earlier : List Step} (h : Derivation net earlier)
      (hstep : net.Justified earlier step) : Derivation net (step :: earlier)

/-! ## The invariant -/

/-- The numbers derived so far are those of the steps, and the steps leave alone the nodes that are
in hand. -/
structure Backed (net : Network) (inHand : List Nat) (s : Search) (steps : List Step) : Prop where
  derivation : net.Derivation steps
  derived : s.derived = steps.map Step.pair
  visited : ∀ step ∈ steps, step.quantity ∈ s.visited ∧ step.equation ∈ s.visited
  apart : ∀ step ∈ steps, step.quantity ∉ inHand ∧ step.equation ∉ inHand
  held : inHand ⊆ s.visited
  nodup : inHand.Nodup

/-- The numbers derived so far have a derivation that leaves alone the nodes in hand. -/
def Sound (net : Network) (inHand : List Nat) (s : Search) : Prop :=
  ∃ steps, net.Backed inHand s steps

variable {net : Network} {seek : Nat → Seek Float} {inHand : List Nat} {s s' : Search}

theorem sound_start : net.Sound [] .start :=
  ⟨[], .nil, rfl, by simp, by simp, by simp, by simp⟩

theorem Backed.tell {steps : List Step} (h : net.Backed inHand s steps) (event : Event) :
    net.Backed inHand (s.tell event) steps :=
  ⟨h.derivation, h.derived, h.visited, h.apart, h.held, h.nodup⟩

theorem Sound.tell (h : net.Sound inHand s) (event : Event) : net.Sound inHand (s.tell event) := by
  obtain ⟨steps, hsteps⟩ := h
  exact ⟨steps, hsteps.tell event⟩

/-- A node that is visited for the first time is taken in hand. -/
theorem Sound.take (h : net.Sound inHand s) {id : Nat} (hid : id ∉ s.visited)
    (hderived : s'.derived = s.derived) (hvisited : s'.visited = id :: s.visited) :
    net.Sound (id :: inHand) s' := by
  obtain ⟨steps, hsteps⟩ := h
  refine ⟨steps, hsteps.derivation, hderived.trans hsteps.derived, fun step hstep => ?_,
    fun step hstep => ?_, ?_, ?_⟩
  · rw [hvisited]
    obtain ⟨hquantity, hequation⟩ := hsteps.visited step hstep
    exact ⟨List.mem_cons_of_mem _ hquantity, List.mem_cons_of_mem _ hequation⟩
  · obtain ⟨hquantity, hequation⟩ := hsteps.visited step hstep
    obtain ⟨hquantity', hequation'⟩ := hsteps.apart step hstep
    exact ⟨List.not_mem_cons_of_ne_of_not_mem (fun heq => hid (heq ▸ hquantity)) hquantity',
      List.not_mem_cons_of_ne_of_not_mem (fun heq => hid (heq ▸ hequation)) hequation'⟩
  · rw [hvisited]
    exact List.cons_subset_cons id hsteps.held
  · exact List.nodup_cons.2 ⟨fun hmem => hid (hsteps.held hmem), hsteps.nodup⟩

/-- A node is put out of hand. -/
theorem Backed.drop {id : Nat} {steps : List Step} (h : net.Backed (id :: inHand) s steps) :
    net.Backed inHand s steps := by
  refine ⟨h.derivation, h.derived, h.visited, fun step hstep => ?_,
    fun other hmem => h.held (List.mem_cons_of_mem _ hmem), (List.nodup_cons.1 h.nodup).2⟩
  obtain ⟨hquantity, hequation⟩ := h.apart step hstep
  exact ⟨fun hmem => hquantity (List.mem_cons_of_mem _ hmem),
    fun hmem => hequation (List.mem_cons_of_mem _ hmem)⟩

theorem Sound.drop {id : Nat} (h : net.Sound (id :: inHand) s) : net.Sound inHand s := by
  obtain ⟨steps, hsteps⟩ := h
  exact ⟨steps, hsteps.drop⟩

/-- A justified step is added, and its quantity and its equation are put out of hand. -/
theorem Backed.derive {steps : List Step} {equation target : Nat} {x : Float}
    (h : net.Backed (equation :: target :: inHand) s steps)
    (hstep : net.Justified steps ⟨target, equation, x⟩) : net.Sound inHand (s.derive target x) := by
  have hdrop := h.drop.drop
  obtain ⟨hequation, hnodup⟩ := List.nodup_cons.1 h.nodup
  obtain ⟨htarget, -⟩ := List.nodup_cons.1 hnodup
  have hvisited : target ∈ s.visited ∧ equation ∈ s.visited :=
    ⟨h.held (List.mem_cons_of_mem _ (List.mem_cons_self ..)), h.held (List.mem_cons_self ..)⟩
  exact ⟨⟨target, equation, x⟩ :: steps, .cons h.derivation hstep,
    congrArg (List.cons (target, x)) h.derived, List.forall_mem_cons.2 ⟨hvisited, h.visited⟩,
    List.forall_mem_cons.2 ⟨⟨htarget, fun hmem => hequation (List.mem_cons_of_mem _ hmem)⟩,
      hdrop.apart⟩, hdrop.held, hdrop.nodup⟩

/-! ## The parts of a search -/

/-- What is asked of the search for a quantity. -/
structure SeeksSoundly (net : Network) (seek : Nat → Seek Float) : Prop
    extends net.Seeks seek where
  sound : ∀ {inHand : List Nat} {id : Nat} {s : Search}, net.IsQuantity id →
    net.Sound inHand s → net.Sound inHand (seek id s).2

theorem look_sound (hseek : net.SeeksSoundly seek) {id : Nat} (hid : net.IsQuantity id)
    (hs : net.Sound inHand s) : net.Sound inHand (net.look seek id s).2 := by
  cases hknown : net.known? s id with
  | some x =>
    rw [look_known hknown]
    exact hs
  | none =>
    by_cases hvisited : id ∈ s.visited
    · rw [look_visited hknown hvisited]
      exact hs
    · rw [look_seek hknown hvisited]
      exact hseek.sound hid hs

/-- The numbers gathered are those that are known in the end, for every quantity asked for. -/
theorem gather_sound (hseek : net.SeeksSoundly seek) (equation : String) {ids : List Nat} :
    ∀ {s : Search}, (∀ id ∈ ids, net.IsQuantity id) → net.Sound inHand s →
      net.Sound inHand (gather net seek equation ids s).2 ∧
        ∀ pairs, (gather net seek equation ids s).1 = some pairs →
          (∀ id ∈ ids, ∃ x, net.known? (gather net seek equation ids s).2 id = some x) ∧
          ∀ name x, (name, x) ∈ pairs → ∃ id ∈ ids, net.nameOf id = name ∧
            net.known? (gather net seek equation ids s).2 id = some x := by
  induction ids with
  | nil =>
    intro s _ hs
    rw [gather_nil]
    refine ⟨hs, fun pairs hpairs => ?_⟩
    cases hpairs
    exact ⟨fun id hid => absurd hid (by simp), fun name x hx => absurd hx (by simp)⟩
  | cons id ids ih =>
    intro s hids hs
    obtain ⟨hid, hids⟩ := List.forall_mem_cons.1 hids
    have hlook := look_sound hseek hid hs
    have hfound_known := @Seeks.look_known net seek hseek.toSeeks id s
    rcases hfound : net.look seek id s with ⟨_ | x, s'⟩
    · rw [hfound] at hlook
      rw [gather_cons_none hfound]
      exact ⟨hlook.tell _, fun pairs hpairs => absurd hpairs (by simp)⟩
    · rw [hfound] at hlook hfound_known
      rw [gather_cons_some hfound]
      obtain ⟨hrest, hgathered⟩ := ih hids hlook
      refine ⟨hrest, fun pairs hpairs => ?_⟩
      obtain ⟨tail, htail, rfl⟩ := Option.map_eq_some_iff.1 hpairs
      obtain ⟨hall, hknown⟩ := hgathered tail htail
      have hx : net.known? (gather net seek equation ids s').2 id = some x :=
        known?_extends (gather_extends hseek.forward equation s') (hfound_known rfl)
      refine ⟨List.forall_mem_cons.2 ⟨⟨x, hx⟩, hall⟩, fun name y hy => ?_⟩
      rcases List.mem_cons.1 hy with heq | hy
      · cases heq
        exact ⟨id, List.mem_cons_self .., rfl, hx⟩
      · obtain ⟨other, hother, hname, hknown⟩ := hknown name y hy
        exact ⟨other, List.mem_cons_of_mem _ hother, hname, hknown⟩

/-- What is known in a search is what the valuation of its steps says. -/
theorem Backed.valuation_eq {steps : List Step} (h : net.Backed inHand s steps) (name : String) :
    net.valuation steps name = (net.quantityId? name).bind (net.known? s) := by
  rw [valuation, ← h.derived]
  rfl

/-- A quantity with a number has it stored or got it from a step. -/
theorem Backed.stored_or_derived {steps : List Step} (h : net.Backed inHand s steps) {id : Nat}
    {x : Float} (hx : net.known? s id = some x) :
    (net.numberOf? id).isSome = true ∨ ∃ step ∈ steps, step.quantity = id := by
  rcases Option.or_eq_some_iff.1 hx with hx | ⟨-, hx⟩
  · exact .inl (by simp [hx])
  · rw [h.derived] at hx
    obtain ⟨l₁, l₂, heq, -⟩ := List.lookup_eq_some_iff.1 hx
    have hmem : (id, x) ∈ steps.map Step.pair := by
      rw [heq]
      simp
    obtain ⟨step, hstep, hpair⟩ := List.mem_map.1 hmem
    exact .inr ⟨step, hstep, congrArg Prod.fst hpair⟩

/-- The value of a solution under the numbers gathered is a justified step. -/
theorem Backed.justified (hnet : net.Wired) {steps : List Step} {equation target : Nat}
    {body solution : Expr} {pairs : List (String × Float)} {x : Float}
    (hsteps : net.Backed (equation :: inHand) s steps) (htarget : net.Unknown target)
    (hlink : equation ∈ net.linksOf target) (hinHand : target ∈ inHand)
    (hbody : net.bodyOf? equation = some body)
    (hsolve : body.solve net.settings.maxRewriteSteps (net.nameOf target) = .ok solution)
    (hall : ∀ id ∈ net.others equation target, ∃ y, net.known? s id = some y)
    (hpairs : ∀ name y, (name, y) ∈ pairs → ∃ id ∈ net.others equation target,
      net.nameOf id = name ∧ net.known? s id = some y)
    (hx : solution.evaluate (.ofList pairs) = .ok x) (hfinite : x.isFinite = true) :
    net.Justified steps ⟨target, equation, x⟩ := by
  have hlookup : ∀ name y, Valuation.ofList pairs name = some y →
      ∃ id ∈ net.others equation target, net.nameOf id = name ∧ net.known? s id = some y := by
    intro name y hy
    obtain ⟨l₁, l₂, heq, -⟩ := List.lookup_eq_some_iff.1 hy
    refine hpairs name y ?_
    rw [heq]
    simp
  have hquantity : ∀ id ∈ net.others equation target, net.IsQuantity id :=
    fun id hid => hnet.isQuantity_of_link hbody (mem_others.1 hid).1
  have hoccurrences : body.occurrences (net.nameOf target) = 1 := by
    rw [Expr.occurrences_solve hsolve]
    have hnone : Valuation.ofList pairs (net.nameOf target) = none := by
      cases hy : Valuation.ofList pairs (net.nameOf target) with
      | none => rfl
      | some y =>
        obtain ⟨id, hid, hname, -⟩ := hlookup _ y hy
        exact absurd (hnet.eq_of_nameOf_eq (hquantity id hid) htarget.1 hname) (mem_others.1 hid).2
    rw [Expr.occurrences_of_evaluate hx (Expr.numeral?_of_solve hsolve) hnone]
  have hvaluation : ∀ name y, Valuation.ofList pairs name = some y →
      net.valuation steps name = some y := by
    intro name y hy
    obtain ⟨id, hid, rfl, hknown⟩ := hlookup name y hy
    rw [hsteps.valuation_eq, hnet.quantityId?_nameOf (hquantity id hid)]
    exact hknown
  refine ⟨htarget, hnet.mem_linksOf_comm.1 hlink, fun step hstep => ?_, fun z hz hne => ?_,
    ⟨body, solution, hbody, hoccurrences, hsolve, Expr.evaluate_mono hvaluation hx⟩, hfinite⟩
  · obtain ⟨hq, he⟩ := hsteps.apart step hstep
    refine ⟨?_, fun heq => he (heq ▸ List.mem_cons_self ..)⟩
    rintro rfl
    exact hq (List.mem_cons_of_mem _ hinHand)
  · obtain ⟨y, hy⟩ := hall z (mem_others.2 ⟨hz, hne⟩)
    exact hsteps.stored_or_derived hy

/-- **An equation that gives a number makes a justified step.** -/
theorem tryEquation_sound (hnet : net.Wired) (hseek : net.SeeksSoundly seek)
    {equation target : Nat} (htarget : net.Unknown target)
    (hlink : equation ∈ net.linksOf target) (hinHand : target ∈ inHand)
    (hnew : equation ∉ s.visited) (hs : net.Sound inHand s) :
    net.Sound inHand (tryEquation net seek equation target s).2 ∧
      ∀ x, (tryEquation net seek equation target s).1 = some x →
        ∃ steps, net.Backed (equation :: inHand) (tryEquation net seek equation target s).2 steps ∧
          net.Justified steps ⟨target, equation, x⟩ := by
  obtain ⟨body, hbody⟩ := hnet.exists_body htarget.1 hlink
  have henter : net.Sound (equation :: inHand) (net.enter equation target body s) :=
    hs.take hnew rfl rfl
  cases hsolve : body.solve net.settings.maxRewriteSteps (net.nameOf target) with
  | error error =>
    rw [tryEquation_error s hbody hsolve]
    exact ⟨(henter.tell _).drop, fun x hx => absurd hx (by simp)⟩
  | ok solution =>
    have hquantities : ∀ id ∈ net.others equation target, net.IsQuantity id :=
      fun id hid => hnet.isQuantity_of_link hbody (mem_others.1 hid).1
    have hgather := gather_sound hseek (net.nameOf equation) hquantities henter
    rcases hgathered : net.gatherOthers seek equation target body s with ⟨_ | pairs, s'⟩
    · rw [tryEquation_stalled hbody hsolve hgathered]
      unfold gatherOthers at hgathered
      rw [hgathered] at hgather
      exact ⟨hgather.1.drop, fun x hx => absurd hx (by simp)⟩
    · rw [tryEquation_gathered hbody hsolve hgathered]
      unfold gatherOthers at hgathered
      rw [hgathered] at hgather
      have hs' : net.Sound (equation :: inHand) s' := hgather.1
      obtain ⟨hall, hpairs⟩ := hgather.2 pairs rfl
      rcases conclude_cases (net.nameOf equation) (net.nameOf target) solution pairs s' with
        ⟨error, -, h⟩ | ⟨x, hx, ⟨hfinite, h⟩ | h⟩
      · rw [h]
        exact ⟨hs'.drop.tell _, fun x hx => absurd hx (by simp)⟩
      · rw [h]
        refine ⟨hs'.drop, fun y hy => ?_⟩
        obtain rfl : x = y := Option.some.inj hy
        obtain ⟨steps, hsteps⟩ := hs'
        exact ⟨steps, hsteps,
          hsteps.justified hnet htarget hlink hinHand hbody hsolve hall hpairs hx hfinite⟩
      · rw [h]
        exact ⟨hs'.drop.tell _, fun x hx => absurd hx (by simp)⟩

/-- The first equation that gives a number makes a justified step. -/
theorem tryEquations_sound {attempt : Nat → Seek Float} {target : Nat}
    (hattempt : ∀ {equation : Nat} {s : Search}, equation ∈ net.linksOf target →
      equation ∉ s.visited → net.Sound inHand s →
      net.Sound inHand (attempt equation s).2 ∧ ∀ x, (attempt equation s).1 = some x →
        ∃ steps, net.Backed (equation :: inHand) (attempt equation s).2 steps ∧
          net.Justified steps ⟨target, equation, x⟩)
    {equations : List Nat} : ∀ {s : Search}, (∀ e ∈ equations, e ∈ net.linksOf target) →
      net.Sound inHand s → net.Sound inHand (tryEquations attempt equations s).2 ∧
        ∀ x equation, (tryEquations attempt equations s).1 = some (x, equation) →
          ∃ steps, net.Backed (equation :: inHand) (tryEquations attempt equations s).2 steps ∧
            net.Justified steps ⟨target, equation, x⟩ := by
  induction equations with
  | nil =>
    intro s _ hs
    exact ⟨hs, fun x equation h => absurd h (by simp [tryEquations])⟩
  | cons equation rest ih =>
    intro s hlinks hs
    obtain ⟨hlink, hlinks⟩ := List.forall_mem_cons.1 hlinks
    by_cases hvisited : equation ∈ s.visited
    · rw [tryEquations_visited hvisited]
      exact ih hlinks hs
    · have hfirst := hattempt hlink hvisited hs
      rcases htried : attempt equation s with ⟨_ | x, s'⟩
      · rw [htried] at hfirst
        rw [tryEquations_none hvisited htried]
        exact ih hlinks hfirst.1
      · rw [htried] at hfirst
        rw [tryEquations_some hvisited htried]
        refine ⟨hfirst.1, fun y other hy => ?_⟩
        cases hy
        exact hfirst.2 x rfl

/-- **The search for a quantity is sound.** -/
theorem seek_sound (hnet : net.Wired) {fuel : Nat} :
    ∀ depth, net.SeeksSoundly (net.seek fuel depth) := by
  induction fuel with
  | zero => exact fun depth => ⟨seeks_seek 0 depth, fun _ hs => hs⟩
  | succ fuel ih =>
    refine fun depth => ⟨seeks_seek (fuel + 1) depth, ?_⟩
    intro inHand id s hid hs
    cases hknown : net.known? s id with
    | some x =>
      rw [seek_known hknown]
      exact hs
    | none =>
      by_cases hvisited : id ∈ s.visited
      · rw [seek_visited hknown hvisited]
        exact hs
      · rcases Nat.lt_or_ge net.settings.maxRecursionDepth depth with hdepth | hdepth
        · rw [seek_tooDeep hknown hvisited hdepth]
          exact hs.tell _
        · obtain ⟨hstored, -⟩ := known?_eq_none_iff.1 hknown
          have hstart : net.Sound (id :: inHand) (s.visit id) := hs.take hvisited rfl rfl
          have hexpand := tryEquations_sound
            (fun hlink hnew hs => tryEquation_sound hnet (ih (depth + 2)) ⟨hid, hstored⟩ hlink
              (List.mem_cons_self ..) hnew hs) (fun _ he => he) hstart
          rcases hfound : net.expand fuel depth id s with ⟨_ | ⟨x, equation⟩, s'⟩
          · rw [seek_none hknown hvisited hdepth hfound]
            unfold expand at hfound
            rw [hfound] at hexpand
            exact hexpand.1.drop
          · rw [seek_some hknown hvisited hdepth hfound]
            unfold expand at hfound
            rw [hfound] at hexpand
            obtain ⟨steps, hsteps, hjustified⟩ := hexpand.2 x equation rfl
            exact (hsteps.tell _).derive hjustified

/-! ## Requests -/

/-- The number of a quantity in a derivation is that of a step, with all that comes before it. -/
theorem Derivation.exists_of_lookup {steps : List Step} (h : net.Derivation steps) {id : Nat}
    {x : Float} (hx : (steps.map Step.pair).lookup id = some x) :
    ∃ step earlier, net.Derivation (step :: earlier) ∧ step.pair = (id, x) := by
  induction h with
  | nil => exact absurd hx (by simp)
  | @cons step earlier h hstep ih =>
    rw [List.map_cons, Step.pair, List.lookup_cons] at hx
    split at hx
    · rename_i heq
      refine ⟨step, earlier, .cons h hstep, ?_⟩
      rw [Step.pair, beq_iff_eq.1 heq, Option.some.inj hx]
    · exact ih hx

/-- A request that finds a number ends in a state that has a derivation. -/
theorem exists_backed_of_resolve (hnet : net.Wired) {name : String} {x : Float}
    (h : net.resolve name = .resolved x) :
    ∃ id, net.quantityId? name = some id ∧ ∃ s steps, net.Backed [] s steps ∧
      net.known? s id = some x := by
  rw [resolve, request] at h
  cases hid : net.quantityId? name with
  | none => exact absurd h (by simp [hid])
  | some id =>
    have hseeks : net.SeeksSoundly (net.seek net.requestFuel 0) := seek_sound hnet 0
    have hseek := hseeks.sound (isQuantity_of_quantityId? hid).1 sound_start
    have hknown := @Seeks.known net _ hseeks.toSeeks id .start
    rcases hfound : net.seek net.requestFuel 0 id .start with ⟨_ | y, s⟩
    · exact absurd h (by simp [hid, hfound])
    · rw [hfound] at hseek hknown
      obtain rfl : y = x := by simpa [hid, hfound] using h
      obtain ⟨steps, hsteps⟩ := hseek
      exact ⟨id, rfl, s, steps, hsteps, hknown rfl⟩

/-- **A number found is stored or has a derivation.**  In every reachable network, a request that
finds a number finds the one stored with the quantity, or one that is derived step by step: every
step gives a new quantity by a new equation, in which that quantity is one leaf and the others have
numbers that are stored or come from earlier steps. -/
theorem resolve_sound {p : Expr → Prop} (hnet : net.Reachable p) {name : String} {x : Float}
    (h : net.resolve name = .resolved x) :
    net.value? name = some x ∨ ∃ step earlier, net.Derivation (step :: earlier) ∧
      net.quantityId? name = some step.quantity ∧ step.number = x := by
  obtain ⟨id, hid, s, steps, hsteps, hknown⟩ := exists_backed_of_resolve hnet.consistent.toWired h
  rcases Option.or_eq_some_iff.1 hknown with hstored | ⟨-, hderived⟩
  · left
    rw [value?, hid]
    exact hstored
  · right
    rw [hsteps.derived] at hderived
    obtain ⟨step, earlier, hderivation, hpair⟩ := hsteps.derivation.exists_of_lookup hderived
    cases hpair
    exact ⟨step, earlier, hderivation, hid, rfl⟩

/-- A number that takes two steps: `y` from the second equation and `x` from the first. -/
theorem resolve_sound_two_steps :
    ∃ net x, Network.Reachable Expr.IsRead net ∧ net.resolve "x" = .resolved x ∧
      Decimal.shortestText x = "4" ∧ ∃ step earlier, net.Derivation (step :: earlier) ∧
        net.quantityId? "x" = some step.quantity ∧ step.number = x := by
  let plan : Plan := ⟨.default, [("double", "x = 2 * y"), ("sum", "y + z = 5")], [("z", "3")], []⟩
  have hplan : (plan.network.toOption.any fun net =>
      (net.value? "x").isNone && (net.resolve "x").text == "4") = true := by decide +kernel
  cases hnet : plan.network with
  | error error => exact absurd hplan (by simp [hnet, Except.toOption])
  | ok net =>
    have hreachable := Plan.reachable_network hnet
    simp only [hnet, Except.toOption, Option.any_some, Bool.and_eq_true, beq_iff_eq,
      Option.isNone_iff_eq_none] at hplan
    obtain ⟨hnone, htext⟩ := hplan
    cases hresolve : net.resolve "x" with
    | unresolved => exact absurd htext (by rw [hresolve]; decide)
    | resolved x =>
      rw [hresolve] at htext
      refine ⟨net, x, hreachable, hresolve, htext, ?_⟩
      exact (resolve_sound hreachable hresolve).resolve_left (by simp [hnone])

end Network

end EquationNetwork
