import EquationNetwork.Proofs.Network.Simulation

/-!
# Requests come to an end

A request takes up every node once at most, goes no deeper than there are quantities without a
number, and needs neither its fuel nor a limit to come to an end.

* `Network.Steady`, `Network.Steady.seek` — what every move of a search keeps, the search keeps.
* `Network.Tallied` — **the invariant**: no node was visited twice, and the equations visited are
  those that are told of as tried.
* `Network.Terminates` — what it means for a request to come to an end.
* `Network.request_terminates` — **every request does**, in every network that can be built.
-/

namespace EquationNetwork

/-! ## Equations that are tried -/

/-- The equation that an event tells of as tried. -/
def Event.tried? : Event → Option String
  | .trying equation _ => some equation
  | _ => none

theorem Expr.tried?_moveEvents (name : String) {moves : List (Op × Expr)} :
    ∀ number, (moveEvents name number moves).filterMap Event.tried? = [] := by
  induction moves with
  | nil => exact fun _ => rfl
  | cons move moves ih =>
    intro number
    rw [moveEvents, List.filterMap_cons, ih]
    rfl

theorem Expr.tried?_solveEvents (limit : Nat) (e : Expr) (name : String) :
    (e.solveEvents limit name).filterMap Event.tried? = [] := tried?_moveEvents name 1

namespace Network

variable {net : Network} {P : Search → Prop} {s : Search}

/-! ## What a search keeps -/

/-- What every move of a search keeps. -/
structure Steady (net : Network) (P : Search → Prop) : Prop where
  /-- A quantity is tried for the first time. -/
  visit : ∀ {s : Search} {id : Nat}, net.IsQuantity id → id ∉ s.visited → P s → P (s.visit id)
  /-- An equation is tried for the first time. -/
  enter : ∀ {s : Search} {equation target : Nat} {body : Expr},
    net.bodyOf? equation = some body → equation ∉ s.visited → P s →
    P (net.enter equation target body s)
  tell : ∀ {s : Search} {event : Event}, event.tried? = none → P s → P (s.tell event)
  derive : ∀ {s : Search} {id : Nat} {x : Float}, P s → P (s.derive id x)

namespace Steady

section Parts

variable {seek : Nat → Seek Float} (hP : net.Steady P)
  (hseek : ∀ {id : Nat} {s : Search}, net.IsQuantity id → P s → P (seek id s).2)
include hP hseek

omit hP in
theorem look {id : Nat} (hid : net.IsQuantity id) (hs : P s) : P (net.look seek id s).2 := by
  cases hknown : net.known? s id with
  | some x =>
    rw [look_known hknown]
    exact hs
  | none =>
    by_cases hvisited : id ∈ s.visited
    · rw [look_visited hknown hvisited]
      exact hs
    · rw [look_seek hknown hvisited]
      exact hseek hid hs

theorem gather (equation : String) {ids : List Nat} :
    ∀ {s : Search}, (∀ id ∈ ids, net.IsQuantity id) → P s →
      P (Network.gather net seek equation ids s).2 := by
  induction ids with
  | nil => exact fun _ hs => hs
  | cons id ids ih =>
    intro s hids hs
    obtain ⟨hid, hids⟩ := List.forall_mem_cons.1 hids
    have hlook := look hseek hid hs
    rcases hfound : net.look seek id s with ⟨_ | x, s'⟩
    · rw [gather_cons_none hfound]
      rw [hfound] at hlook
      exact hP.tell rfl hlook
    · rw [gather_cons_some hfound]
      rw [hfound] at hlook
      exact ih hids hlook

omit hseek in
theorem conclude (equation quantity : String) (solution : Expr) (pairs : List (String × Float))
    (hs : P s) : P (Network.conclude equation quantity solution pairs s).2 := by
  rcases conclude_cases equation quantity solution pairs s with
    ⟨error, -, h⟩ | ⟨x, -, ⟨-, h⟩ | h⟩
  · rw [h]
    exact hP.tell rfl hs
  · rw [h]
    exact hs
  · rw [h]
    exact hP.tell rfl hs

theorem tryEquation (hnet : net.Wired) {equation target : Nat} {body : Expr}
    (hbody : net.bodyOf? equation = some body) (hnew : equation ∉ s.visited) (hs : P s) :
    P (Network.tryEquation net seek equation target s).2 := by
  have henter : P (net.enter equation target body s) := hP.enter hbody hnew hs
  cases hsolve : body.solve net.settings.maxRewriteSteps (net.nameOf target) with
  | error error =>
    rw [tryEquation_error s hbody hsolve]
    exact hP.tell rfl henter
  | ok solution =>
    have hquantities : ∀ id ∈ net.others equation target, net.IsQuantity id :=
      fun id hid => hnet.isQuantity_of_link hbody (mem_others.1 hid).1
    have hgather : P (net.gatherOthers seek equation target body s).2 :=
      hP.gather hseek (net.nameOf equation) hquantities henter
    rcases hfound : net.gatherOthers seek equation target body s with ⟨_ | pairs, s'⟩
    · rw [tryEquation_stalled hbody hsolve hfound]
      rw [hfound] at hgather
      exact hgather
    · rw [tryEquation_gathered hbody hsolve hfound]
      rw [hfound] at hgather
      exact hP.conclude _ _ solution pairs hgather

end Parts

theorem tryEquations {attempt : Nat → Seek Float} {equations : List Nat} :
    (∀ {e : Nat} {s : Search}, e ∈ equations → e ∉ s.visited → P s → P (attempt e s).2) →
    ∀ {s : Search}, P s → P (Network.tryEquations attempt equations s).2 := by
  induction equations with
  | nil => exact fun _ _ hs => hs
  | cons e rest ih =>
    intro hattempt s hs
    have hrest := @ih fun hmem => hattempt (List.mem_cons_of_mem _ hmem)
    by_cases hvisited : e ∈ s.visited
    · rw [tryEquations_visited hvisited]
      exact hrest hs
    · have htry := hattempt (List.mem_cons_self ..) hvisited hs
      rcases hfound : attempt e s with ⟨_ | x, s'⟩
      · rw [tryEquations_none hvisited hfound]
        rw [hfound] at htry
        exact hrest htry
      · rw [tryEquations_some hvisited hfound]
        rw [hfound] at htry
        exact htry

/-- **What every move of a search keeps, the search keeps.** -/
theorem seek (hP : net.Steady P) (hnet : net.Wired) {fuel : Nat} :
    ∀ {depth id : Nat} {s : Search}, net.IsQuantity id → P s →
      P (net.seek fuel depth id s).2 := by
  induction fuel with
  | zero => exact fun _ hs => hs
  | succ fuel ih =>
    intro depth id s hid hs
    cases hknown : net.known? s id with
    | some x =>
      rw [seek_known hknown]
      exact hs
    | none =>
      by_cases hvisited : id ∈ s.visited
      · rw [seek_visited hknown hvisited]
        exact hs
      · rcases Nat.lt_or_ge net.settings.maxRecursionDepth depth with hdepth | hdepth
        · rw [seek_tooDeep hknown hvisited hdepth]
          exact hP.tell rfl hs
        · have hexpand : P (net.expand fuel depth id s).2 := by
            refine tryEquations (fun hlink hnew hs => ?_) (hP.visit hid hvisited hs)
            obtain ⟨body, hbody⟩ := hnet.exists_body hid hlink
            exact hP.tryEquation ih hnet hbody hnew hs
          rcases hfound : net.expand fuel depth id s with ⟨_ | ⟨x, equation⟩, s'⟩
          · rw [seek_none hknown hvisited hdepth hfound]
            rw [hfound] at hexpand
            exact hexpand
          · rw [seek_some hknown hvisited hdepth hfound]
            rw [hfound] at hexpand
            exact hP.derive (hP.tell rfl hexpand)

end Steady

/-! ## Every node once -/

/-- No node was visited twice, and the equations that were visited are those that are told of as
tried, in the same order. -/
structure Tallied (net : Network) (s : Search) : Prop where
  nodup : s.visited.Nodup
  tried : s.events.filterMap Event.tried? =
    ((s.visited.filter fun id => (net.bodyOf? id).isSome).map net.nameOf).reverse

theorem steady_tallied (net : Network) : net.Steady net.Tallied where
  visit {s id} hid hnew hs := by
    refine ⟨List.nodup_cons.2 ⟨hnew, hs.nodup⟩, ?_⟩
    have hnone : (net.bodyOf? id).isSome = false := by rw [bodyOf?_of_isQuantity hid]; rfl
    simp only [Search.visit, List.filter_cons, hnone, hs.tried]
    rfl
  enter {s equation target body} hbody hnew hs := by
    refine ⟨List.nodup_cons.2 ⟨hnew, hs.nodup⟩, ?_⟩
    have hsome : (net.bodyOf? equation).isSome = true := by rw [hbody]; rfl
    simp only [enter, Search.visit, Search.tell, Search.tellAll, List.filterMap_append, hs.tried,
      Expr.tried?_solveEvents, List.filter_cons, hsome, if_true, List.map_cons, List.reverse_cons,
      List.append_nil]
    rfl
  tell {s event} hevent hs := by
    refine ⟨hs.nodup, ?_⟩
    simp only [Search.tell, List.filterMap_append, hs.tried, List.filterMap_cons, hevent,
      List.filterMap_nil, List.append_nil]
  derive hs := ⟨hs.nodup, hs.tried⟩

/-- Equations have different names, so none is told of twice. -/
theorem Tallied.nodup_tried (hnet : net.Wired) (h : net.Tallied s) :
    (s.events.filterMap Event.tried?).Nodup := by
  rw [h.tried, List.nodup_reverse]
  refine (List.nodup_map_iff_inj_on (h.nodup.filter _)).2 fun i hi j hj hname => ?_
  obtain ⟨body, hbody⟩ := Option.isSome_iff_exists.1 (List.mem_filter.1 hi).2
  obtain ⟨body', hbody'⟩ := Option.isSome_iff_exists.1 (List.mem_filter.1 hj).2
  exact hnet.equation_eq_of_nameOf_eq hbody hbody' hname

theorem tallied_start (net : Network) : net.Tallied .start := ⟨List.nodup_nil, rfl⟩

/-! ## Requests -/

/-- The network with another limit on the depth of a search. -/
def withDepth (net : Network) (limit : Nat) : Network :=
  { net with settings := { net.settings with maxRecursionDepth := limit } }

theorem Wired.withDepth (h : net.Wired) (limit : Nat) : (net.withDepth limit).Wired :=
  ⟨h.distinct, h.joined, h.nodup, h.rising⟩

/-- The nodes of a network match themselves, whatever the limit on the depth. -/
theorem Wired.alike (h : net.Wired) (limit limit' : Nat) :
    Alike Eq (net.withDepth limit) (net.withDepth limit') where
  wired := h.withDepth limit
  wired' := h.withDepth limit'
  maxRewriteSteps := rfl
  unique hi hj := by rw [hi, hj]
  isQuantity hi := by rw [hi]; rfl
  nameOf hi := by rw [hi]; rfl
  numberOf? hi := sameFor_of_eq (by rw [hi]; rfl)
  bodyOf? hi := by rw [hi]; rfl
  links hi _ := by
    rw [List.forall₂_eq_eq_eq, hi]
    rfl

/-- Searches side by side of the same nodes are in the same state. -/
theorem Abreast.eq {inHand inHand' : List Nat} {s' : Search}
    (h : Abreast Eq inHand inHand' s s') : s' = s := by
  obtain ⟨visited, derived, events⟩ := s
  obtain ⟨visited', derived', events'⟩ := s'
  have hvisited : visited = visited' := by
    have hsame := h.visited
    rwa [List.forall₂_eq_eq_eq] at hsame
  have hderived : derived = derived' := by
    have hsame : List.Forall₂ Eq derived derived' :=
      h.derived.imp fun p p' hp => Prod.ext hp.1 hp.2
    rwa [List.forall₂_eq_eq_eq] at hsame
  have hevents : events' = events := h.events
  rw [hvisited, hderived, hevents]

/-- What it means for the request for a quantity to come to an end. -/
structure Terminates (net : Network) (name : String) : Prop where
  /-- Fuel for all quantities without a number is enough, and more of it changes nothing. -/
  enough : ∀ {id fuel : Nat}, net.quantityId? name = some id → net.unknowns.length < fuel →
    net.seek fuel 0 id .start = net.seek net.requestFuel 0 id .start
  /-- No call runs out of fuel. -/
  fuel : ∀ {id : Nat} {c : Call}, net.quantityId? name = some id →
    Relation.ReflTransGen net.Calls (net.rootCall id) c → c.fuel ≠ 0
  /-- A quantity without a number lies two levels below each of the others at most. -/
  depth : ∀ {id : Nat} {c : Call}, net.quantityId? name = some id →
    Relation.ReflTransGen net.Calls (net.rootCall id) c → net.Unknown c.quantity →
    c.depth ≤ 2 * (net.unknowns.length - 1)
  /-- Every depth that is computed is at most twice the number of nodes. -/
  size : ∀ {id : Nat} {c : Call}, net.quantityId? name = some id →
    Relation.ReflTransGen net.Calls (net.rootCall id) c → c.depth + 2 ≤ 2 * net.size
  /-- So it fits a machine word, since there is no room for half as many nodes. -/
  word : ∀ {id : Nat} {c : Call}, net.quantityId? name = some id →
    Relation.ReflTransGen net.Calls (net.rootCall id) c → 2 * net.size ≤ greatestLimit →
    c.depth + 2 ≤ greatestLimit
  /-- Every quantity and every equation is visited once at most: a node comes onto the list whenever
  it is tried. -/
  visited : ∀ {id : Nat}, net.quantityId? name = some id →
    (net.seek net.requestFuel 0 id .start).2.visited.Nodup
  /-- No equation is told of as tried more than once. -/
  tried : ((net.request name).2.filterMap Event.tried?).Nodup
  /-- A limit that no search can exceed is as good as the greatest. -/
  limit : ∀ {limit : Nat}, 2 * (net.unknowns.length - 1) ≤ limit → limit ≤ greatestLimit →
    (net.withDepth limit).request name = (net.withDepth greatestLimit).request name

theorem Wired.tallied_request (h : net.Wired) {name : String} {id : Nat}
    (hid : net.quantityId? name = some id) (fuel : Nat) :
    net.Tallied (net.seek fuel 0 id .start).2 :=
  (steady_tallied net).seek h (isQuantity_of_quantityId? hid).1 (tallied_start net)

theorem Wired.nodup_tried_request (h : net.Wired) (name : String) :
    ((net.request name).2.filterMap Event.tried?).Nodup := by
  unfold request
  cases hid : net.quantityId? name with
  | none => exact List.nodup_nil
  | some id =>
    have htallied := (h.tallied_request hid net.requestFuel).nodup_tried h
    dsimp only
    rcases hseek : net.seek net.requestFuel 0 id .start with ⟨_ | x, s⟩
    · rw [hseek] at htallied
      show ((s.events ++ [Event.unresolved name]).filterMap Event.tried?).Nodup
      rw [List.filterMap_append, List.filterMap_cons_none rfl, List.filterMap_nil, List.append_nil]
      exact htallied
    · rw [hseek] at htallied
      exact htallied

/-- A request is the same under two limits that are out of reach. -/
theorem Wired.request_withDepth (h : net.Wired) (name : String) {limit limit' : Nat}
    (hlimit : 2 * (net.unknowns.length - 1) ≤ limit)
    (hlimit' : 2 * (net.unknowns.length - 1) ≤ limit') :
    (net.withDepth limit).request name = (net.withDepth limit').request name := by
  cases hid : net.quantityId? name with
  | none =>
    have hnone : ∀ limit, (net.withDepth limit).quantityId? name = none := fun _ => hid
    rw [request, request, hnone, hnone]
  | some id =>
    exact request_abreast (h.alike limit' limit) (.inr ⟨hlimit', hlimit⟩) rfl rfl hid hid

/-- The calls of a request are at the end of ways down. -/
theorem Wired.exists_deep (h : net.Wired) {name : String} {id : Nat} {c : Call}
    (hid : net.quantityId? name = some id)
    (hcalls : Relation.ReflTransGen net.Calls (net.rootCall id) c) :
    ∃ inHand, c.Deep net inHand := deep_of_calls h (isQuantity_of_quantityId? hid).1 hcalls

theorem Wired.terminates (h : net.Wired) (name : String) : net.Terminates name where
  enough {id fuel} hid hfuel := by
    have hlimited : LimitedAlike net net := .inl rfl
    obtain ⟨hfound, hstate⟩ := seek_start_abreast
      (h.alike net.settings.maxRecursionDepth net.settings.maxRecursionDepth) hlimited rfl
      (isQuantity_of_quantityId? hid).1 rfl net.unknowns_lt_requestFuel hfuel
    exact Prod.ext hfound hstate.eq
  fuel hid hcalls := by
    obtain ⟨inHand, hdeep⟩ := h.exists_deep hid hcalls
    exact hdeep.fuel_ne_zero h
  depth hid hcalls hunknown := by
    obtain ⟨inHand, hdeep⟩ := h.exists_deep hid hcalls
    exact hdeep.depth_le h hunknown
  size hid hcalls := by
    obtain ⟨inHand, hdeep⟩ := h.exists_deep hid hcalls
    exact hdeep.depth_lt_size
  word hid hcalls hsize := by
    obtain ⟨inHand, hdeep⟩ := h.exists_deep hid hcalls
    exact hdeep.depth_lt_size.trans hsize
  visited hid := (h.tallied_request hid net.requestFuel).nodup
  tried := h.nodup_tried_request name
  limit hlimit hgreatest := h.request_withDepth name hlimit (hlimit.trans hgreatest)

/-- **Every request comes to an end**, in every network that can be built. -/
theorem request_terminates (settings : Settings) (ops : List Operation) (name : String) :
    ((empty settings).performAll ops).Terminates name :=
  (consistent_performAll settings ops).toWired.terminates name

end Network

end EquationNetwork
