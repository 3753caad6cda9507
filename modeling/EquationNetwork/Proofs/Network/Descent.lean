import EquationNetwork.Proofs.Network.Search

/-!
# The way down

A search goes down from a quantity to one of its equations and on to the other quantities of that
equation.  Every quantity on the way has no number and was tried before the ones below it, so the
way is not longer than the list of all quantities without a number.

* `Network.Descent` — the quantities on a way down.
* `Network.Attempts`, `Network.Asks` — the equations that a quantity tries and the quantities that
  an equation looks for, each with the state in which its turn comes.
* `Network.Call`, `Network.Calls` — the searches of a request, and which of them makes which.
* `Network.expand_congr` — **a search depends on nothing but the calls that it makes.**
* `Network.Call.Deep`, `Network.Calls.deep` — **one call** goes down by one quantity, two levels and
  one unit of fuel.
* `Network.deep_of_calls` — so do all calls of a request, and none of them runs out of fuel.
-/

namespace EquationNetwork.Network

variable {net : Network}

/-! ## Quantities in hand -/

/-- Quantities without a number are listed as such. -/
theorem Unknown.mem_unknowns {id : Nat} (h : net.Unknown id) : net.nameOf id ∈ net.unknowns := by
  obtain ⟨⟨a, ha, hquantity⟩, hnone⟩ := h
  rw [numberOf?, ha] at hnone
  refine List.mem_map.2 ⟨a, List.mem_filter.2 ⟨List.mem_of_getElem? ha, ?_⟩, (nameOf_eq ha).symm⟩
  have hnumber : a.number? = none := hnone
  simp [hquantity, hnumber]

/-- There are no more quantities in hand than quantities without a number. -/
theorem length_le_unknowns (hwired : net.Wired) {ids : List Nat} (hnodup : ids.Nodup)
    (hunknown : ∀ id ∈ ids, net.Unknown id) : ids.length ≤ net.unknowns.length := by
  have hnames : (ids.map net.nameOf).Nodup :=
    (List.nodup_map_iff_inj_on hnodup).2 fun i hi j hj hname =>
      hwired.eq_of_nameOf_eq (hunknown i hi).1 (hunknown j hj).1 hname
  have hsub : ids.map net.nameOf ⊆ net.unknowns := by
    intro name hname
    obtain ⟨id, hid, rfl⟩ := List.mem_map.1 hname
    exact (hunknown id hid).mem_unknowns
  rw [← List.length_map (f := net.nameOf)]
  exact (hnames.subperm hsub).length_le

theorem unknowns_length_le (net : Network) : net.unknowns.length ≤ net.size := by
  rw [unknowns, List.length_map]
  exact List.length_filter_le _ _

/-- The quantities on a way down: none of them has a number, and none of them comes twice. -/
structure Descent (net : Network) (inHand : List Nat) : Prop where
  nodup : inHand.Nodup
  unknown : ∀ id ∈ inHand, net.Unknown id

theorem descent_nil (net : Network) : net.Descent [] := ⟨List.nodup_nil, nofun⟩

theorem Descent.cons {inHand : List Nat} (h : net.Descent inHand) {id : Nat}
    (hid : net.Unknown id) (hnew : id ∉ inHand) : net.Descent (id :: inHand) :=
  ⟨List.nodup_cons.2 ⟨hnew, h.nodup⟩, List.forall_mem_cons.2 ⟨hid, h.unknown⟩⟩

theorem Descent.length_le (hnet : net.Wired) {inHand : List Nat} (h : net.Descent inHand) :
    inHand.length ≤ net.unknowns.length := length_le_unknowns hnet h.nodup h.unknown

/-! ## Calls -/

/-- The turn of an equation comes in a state: those before it gave no number, and it is new. -/
def Attempts (attempt : Nat → Seek Float) (equations : List Nat) (s : Search) (equation : Nat)
    (s' : Search) : Prop :=
  ∃ before after, equations = before ++ equation :: after ∧
    tryEquations attempt before s = (none, s') ∧ equation ∉ s'.visited

/-- The turn of a quantity comes in a state: those before it have a number, and it is new. -/
def Asks (net : Network) (seek : Nat → Seek Float) (equation : String) (ids : List Nat) (s : Search)
    (id : Nat) (s' : Search) : Prop :=
  ∃ before after pairs, ids = before ++ id :: after ∧
    gather net seek equation before s = (some pairs, s') ∧ net.known? s' id = none ∧
    id ∉ s'.visited

/-- A search for a quantity, as it is called: its fuel, its depth, the quantity and the state. -/
structure Call where
  fuel : Nat
  depth : Nat
  quantity : Nat
  state : Search

/-- The call that answers a request for a quantity. -/
def rootCall (net : Network) (id : Nat) : Call := ⟨net.requestFuel, 0, id, .start⟩

/-- The attempt of an equation for a quantity, at a depth of the search. -/
def attemptAt (net : Network) (fuel depth id : Nat) (equation : Nat) : Seek Float :=
  tryEquation net (net.seek fuel (depth + 2)) equation id

/-- One call makes another: the quantity is new and not too deep, the turn of one of its equations
comes, which can be solved for it, and the turn of another quantity of that equation comes. -/
inductive Calls (net : Network) : Call → Call → Prop where
  | call {fuel depth id equation other : Nat} {s s₁ s₂ : Search} {body solution : Expr}
      (hknown : net.known? s id = none) (hnew : id ∉ s.visited)
      (hdepth : depth ≤ net.settings.maxRecursionDepth)
      (hattempt : Attempts (net.attemptAt fuel depth id) (net.linksOf id) (s.visit id) equation s₁)
      (hbody : net.bodyOf? equation = some body)
      (hsolve : body.solve net.settings.maxRewriteSteps (net.nameOf id) = .ok solution)
      (hask : net.Asks (net.seek fuel (depth + 2)) (net.nameOf equation) (net.others equation id)
        (net.enter equation id body s₁) other s₂) :
      Calls net ⟨fuel + 1, depth, id, s⟩ ⟨fuel, depth + 2, other, s₂⟩

/-! ## Nothing but the calls -/

/-- Trying equations depends on nothing but the attempts whose turn comes. -/
theorem tryEquations_congr {attempt attempt' : Nat → Seek Float} {equations : List Nat} :
    ∀ {s : Search}, (∀ equation s', Attempts attempt equations s equation s' →
      attempt' equation s' = attempt equation s') →
      tryEquations attempt' equations s = tryEquations attempt equations s := by
  induction equations with
  | nil => exact fun _ => rfl
  | cons equation rest ih =>
    intro s h
    by_cases hvisited : equation ∈ s.visited
    · rw [tryEquations_visited hvisited, tryEquations_visited hvisited]
      refine ih fun e s' ⟨before, after, hsplit, hbefore, hnew⟩ => h e s' ?_
      exact ⟨equation :: before, after, by rw [hsplit]; rfl,
        by rw [tryEquations_visited hvisited, hbefore], hnew⟩
    · have hfirst := h equation s ⟨[], rest, rfl, rfl, hvisited⟩
      rcases htried : attempt equation s with ⟨_ | x, s'⟩
      · rw [tryEquations_none hvisited htried, tryEquations_none hvisited (hfirst.trans htried)]
        refine ih fun e s'' ⟨before, after, hsplit, hbefore, hnew⟩ => h e s'' ?_
        exact ⟨equation :: before, after, by rw [hsplit]; rfl,
          by rw [tryEquations_none hvisited htried, hbefore], hnew⟩
      · rw [tryEquations_some hvisited htried, tryEquations_some hvisited (hfirst.trans htried)]

/-- Gathering numbers depends on nothing but the searches whose turn comes. -/
theorem gather_congr {seek seek' : Nat → Seek Float} (equation : String) {ids : List Nat} :
    ∀ {s : Search}, (∀ id s', net.Asks seek equation ids s id s' → seek' id s' = seek id s') →
      gather net seek' equation ids s = gather net seek equation ids s := by
  induction ids with
  | nil => exact fun _ => rfl
  | cons id ids ih =>
    intro s h
    have hlook : net.look seek' id s = net.look seek id s := by
      cases hknown : net.known? s id with
      | some x => rw [look_known hknown, look_known hknown]
      | none =>
        by_cases hvisited : id ∈ s.visited
        · rw [look_visited hknown hvisited, look_visited hknown hvisited]
        · rw [look_seek hknown hvisited, look_seek hknown hvisited]
          exact h id s ⟨[], ids, [], rfl, rfl, hknown, hvisited⟩
    rcases hfound : net.look seek id s with ⟨_ | x, s'⟩
    · rw [gather_cons_none hfound, gather_cons_none (hlook.trans hfound)]
    · have hrest : gather net seek' equation ids s' = gather net seek equation ids s' := by
        refine ih fun other s'' ⟨before, after, pairs, hsplit, hbefore, hnew⟩ => h other s'' ?_
        refine ⟨id :: before, after, (net.nameOf id, x) :: pairs, by rw [hsplit]; rfl, ?_, hnew⟩
        rw [gather_cons_some hfound, hbefore]
        rfl
      rw [gather_cons_some hfound, gather_cons_some (hlook.trans hfound), hrest]

/-- **A search depends on nothing but the calls that it makes.** -/
theorem expand_congr {fuel depth id : Nat} {s : Search} {seek : Nat → Seek Float}
    (hknown : net.known? s id = none) (hnew : id ∉ s.visited)
    (hdepth : depth ≤ net.settings.maxRecursionDepth)
    (h : ∀ c, net.Calls ⟨fuel + 1, depth, id, s⟩ c →
      seek c.quantity c.state = net.seek c.fuel c.depth c.quantity c.state) :
    tryEquations (fun equation => tryEquation net seek equation id) (net.linksOf id) (s.visit id) =
      net.expand fuel depth id s := by
  refine tryEquations_congr fun equation s₁ hattempt => ?_
  cases hbody : net.bodyOf? equation with
  | none => simp only [tryEquation, hbody]
  | some body =>
    cases hsolve : body.solve net.settings.maxRewriteSteps (net.nameOf id) with
    | error error => rw [tryEquation_error s₁ hbody hsolve, tryEquation_error s₁ hbody hsolve]
    | ok solution =>
      rw [tryEquation_ok s₁ hbody hsolve, tryEquation_ok s₁ hbody hsolve, gatherOthers,
        gatherOthers, gather_congr]
      exact fun other s₂ hask =>
        h _ (.call hknown hnew hdepth hattempt hbody hsolve hask)

/-! ## How deep a call is -/

/-- The call is at the end of a way down: one unit of fuel and two levels for each quantity in
hand. -/
structure Call.Deep (net : Network) (c : Call) (inHand : List Nat) : Prop where
  descent : net.Descent inHand
  visited : inHand ⊆ c.state.visited
  fuel : net.unknowns.length < c.fuel + inHand.length
  depth : c.depth = 2 * inHand.length
  quantity : net.IsQuantity c.quantity
  new : c.quantity ∉ inHand

theorem deep_rootCall {id : Nat} (hid : net.IsQuantity id) : (net.rootCall id).Deep net [] := by
  refine ⟨descent_nil net, List.nil_subset _, ?_, rfl, hid, List.not_mem_nil⟩
  have hsize := net.unknowns_length_le
  simp only [rootCall, requestFuel, List.length_nil]
  omega

theorem Attempts.extends {fuel depth id equation : Nat} {equations : List Nat} {s s' : Search}
    (h : Attempts (net.attemptAt fuel depth id) equations s equation s') : s.Extends s' := by
  obtain ⟨before, after, -, hbefore, -⟩ := h
  have hforward : s.Extends (tryEquations (net.attemptAt fuel depth id) before s).2 :=
    tryEquations_extends (fun equation s =>
      tryEquation_extends (seek_extends (depth + 2)) equation id s) s
  rwa [hbefore] at hforward

theorem Asks.extends {fuel depth id : Nat} {equation : String} {ids : List Nat} {s s' : Search}
    (h : net.Asks (net.seek fuel depth) equation ids s id s') : s.Extends s' := by
  obtain ⟨before, after, pairs, -, hbefore, -⟩ := h
  have hforward : s.Extends (gather net (net.seek fuel depth) equation before s).2 :=
    gather_extends (seek_extends depth) equation s
  rwa [hbefore] at hforward

/-- **One call goes down by one quantity.** -/
theorem Calls.deep (hnet : net.Wired) {c c' : Call} (hcall : net.Calls c c') {inHand : List Nat}
    (h : c.Deep net inHand) : c'.Deep net (c.quantity :: inHand) := by
  cases hcall with
  | @call fuel depth id equation other s s₁ s₂ body solution hknown hnew hdepth hattempt hbody
      hsolve hask =>
    have hunknown : net.Unknown id := ⟨h.quantity, (known?_eq_none_iff.1 hknown).1⟩
    -- What was tried when the call began is still tried when the other quantity's turn comes.
    have hlater : (s.visit id).Extends s₂ :=
      hattempt.extends.trans ((Search.Extends.visit s₁ equation).trans
        ((net.enter_extends equation id body s₁).trans hask.extends))
    have htried : id :: inHand ⊆ s₂.visited :=
      List.Subset.trans (List.cons_subset_cons id h.visited) hlater.visited
    obtain ⟨before, after, -, hsplit, -, -, hother_new⟩ := hask
    have hother : other ∈ net.others equation id := by
      rw [hsplit]
      exact List.mem_append_right _ (List.mem_cons_self ..)
    refine ⟨h.descent.cons hunknown h.new, htried, ?_, ?_, ?_,
      fun hmem => hother_new (htried hmem)⟩
    · have hfuel := h.fuel
      simp only [List.length_cons] at hfuel ⊢
      omega
    · have hdepth := h.depth
      simp only [List.length_cons] at hdepth ⊢
      omega
    · exact hnet.isQuantity_of_link hbody (mem_others.1 hother).1

/-- **Every call of a request** is at the end of a way down. -/
theorem deep_of_calls (hnet : net.Wired) {id : Nat} (hid : net.IsQuantity id) {c : Call}
    (h : Relation.ReflTransGen net.Calls (net.rootCall id) c) : ∃ inHand, c.Deep net inHand := by
  induction h with
  | refl => exact ⟨[], deep_rootCall hid⟩
  | tail _ hcall ih =>
    obtain ⟨inHand, hdeep⟩ := ih
    exact ⟨_, hcall.deep hnet hdeep⟩

theorem Call.Deep.fuel_ne_zero (hnet : net.Wired) {c : Call} {inHand : List Nat}
    (h : c.Deep net inHand) : c.fuel ≠ 0 := by
  have hlength := h.descent.length_le hnet
  have hfuel := h.fuel
  omega

/-- A quantity that a call is about to try is not too deep. -/
theorem Call.Deep.depth_le (hnet : net.Wired) {c : Call} {inHand : List Nat}
    (h : c.Deep net inHand) (hunknown : net.Unknown c.quantity) :
    c.depth ≤ 2 * (net.unknowns.length - 1) := by
  have hlength := (h.descent.cons hunknown h.new).length_le hnet
  have hdepth := h.depth
  rw [List.length_cons] at hlength
  omega

/-- The network has more nodes than a way down has levels, two by two. -/
theorem Call.Deep.depth_lt_size {c : Call} {inHand : List Nat} (h : c.Deep net inHand) :
    c.depth + 2 ≤ 2 * net.size := by
  have hnodup : (c.quantity :: inHand).Nodup := List.nodup_cons.2 ⟨h.new, h.descent.nodup⟩
  have hinside : c.quantity :: inHand ⊆ List.range net.size := by
    refine List.forall_mem_cons.2 ⟨?_, fun id hid => ?_⟩
    · obtain ⟨a, ha, -⟩ := h.quantity
      exact List.mem_range.2 (nodes_lt ha)
    · obtain ⟨⟨a, ha, -⟩, -⟩ := h.descent.unknown id hid
      exact List.mem_range.2 (nodes_lt ha)
  have hlength := (hnodup.subperm hinside).length_le
  have hdepth := h.depth
  rw [List.length_cons, List.length_range] at hlength
  omega

end EquationNetwork.Network
