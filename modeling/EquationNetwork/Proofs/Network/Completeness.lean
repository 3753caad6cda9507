import EquationNetwork.Proofs.Network.Descent
import EquationNetwork.Proofs.Network.Region
import EquationNetwork.Proofs.Network.Soundness

/-!
# When nothing is missed

A request tries every node once.  A quantity that was given up while another one was still sought is
not tried again, even if that other one is found later; so a request can miss what is derivable.
This file says where that cannot happen.

* `Network.Open`, `Network.Live` — the nodes that are joined to the quantity asked for while the
  numbers found so far are left out.
* `Network.Exhausted` — **the invariant of a search that fails**: a live quantity that was given up
  is not derivable as long as the quantities in hand are barred, and a live equation that was tried
  is of no use.
* `Network.Exhausted.found` — what was given up on the way to a number that an equation on no circle
  asked for is no longer live.
* `Network.SeeksFully`, `Network.seek_full` — what each part of a search that fails leaves behind.
* `Network.resolve_complete` — **in an untangled network a request finds what is derivable.**
* `Network.resolve_incomplete_of_tangled` — in a tangled one it may not.
-/

namespace EquationNetwork.Network

variable {net : Network} {seek : Nat → Seek Float}

/-! ## Nodes that are still of interest -/

/-- An equation, or a quantity that has no number yet. -/
def Open (net : Network) (s : Search) (id : Nat) : Prop :=
  (net.bodyOf? id).isSome = true ∨ net.known? s id = none

/-- There is a path to the node from the quantity asked for that passes no number found. -/
def Live (net : Network) (root : Nat) (s : Search) (id : Nat) : Prop :=
  net.Joined (net.Open s) root id

/-- There is such a path that passes nothing but nodes that were visited. -/
def Held (net : Network) (root : Nat) (s : Search) (id : Nat) : Prop :=
  net.Joined (fun id => id ∈ s.visited ∧ net.Open s id) root id

theorem Open.numberOf? {s : Search} {id : Nat} (h : net.Open s id) : net.numberOf? id = none := by
  rcases h with h | h
  · obtain ⟨body, hbody⟩ := Option.isSome_iff_exists.1 h
    exact numberOf?_of_bodyOf? hbody
  · exact (known?_eq_none_iff.1 h).1

theorem Open.of_extends {s s' : Search} (h : s.Extends s') {id : Nat} (hid : net.Open s' id) :
    net.Open s id := by
  rcases hid with hid | hid
  · exact .inl hid
  · right
    cases hknown : net.known? s id with
    | none => rfl
    | some x => exact absurd (known?_extends h hknown) (by simp [hid])

theorem Live.of_extends {s s' : Search} (h : s.Extends s') {root id : Nat}
    (hid : net.Live root s' id) : net.Live root s id :=
  hid.mono fun _ hopen => hopen.of_extends h

theorem Held.live {root id : Nat} {s : Search} (h : net.Held root s id) : net.Live root s id :=
  h.mono fun _ hid => hid.2

/-- What is held stays held, since a node that was visited comes by no number. -/
theorem Held.extends {s s' : Search} (h : s.Extends s') {root id : Nat}
    (hid : net.Held root s id) : net.Held root s' id := by
  refine hid.mono fun other hother => ⟨h.visited hother.1, ?_⟩
  rcases hother.2 with hopen | hopen
  · exact .inl hopen
  · right
    rw [known?_frozen h hother.1, hopen]

/-- An equation that was not visited is approached by way of the quantities that are held. -/
theorem Held.approached (hwired : net.Wired) {root target equation : Nat} {s : Search}
    (hheld : net.Held root s target) (hroot : net.Unknown root) (htarget : net.Unknown target)
    (hlink : equation ∈ net.linksOf target) (hnew : equation ∉ s.visited) :
    net.Approached root target equation := by
  obtain ⟨body, hbody⟩ := hwired.exists_body htarget.1 hlink
  refine ⟨⟨hroot.2, ?_⟩, hheld.mono fun id hid => ⟨hid.2.numberOf?, ?_⟩,
    mem_unknownLinks.2 ⟨hwired.mem_linksOf_comm.1 hlink, htarget.2⟩⟩
  · rintro rfl
    exact absurd hbody (by simp [bodyOf?_of_isQuantity hroot.1])
  · rintro rfl
    exact hnew hid.1

/-! ## The invariant -/

/-- What a search has given up: `inHand` are the quantities that are being sought, and `trying` the
equations that are being tried, each with the quantity it is tried for. -/
structure Exhausted (net : Network) (root : Nat) (inHand : List Nat) (trying : List (Nat × Nat))
    (s : Search) : Prop where
  nodup : inHand.Nodup
  unknown : ∀ id ∈ inHand, net.Unknown id
  held : ∀ id ∈ inHand, id ∈ s.visited
  sought : ∀ pair ∈ trying, pair.2 ∈ inHand
  /-- A live quantity that was given up is not derivable from those that are not in hand. -/
  quantities : ∀ id ∈ s.visited, net.IsQuantity id → net.Live root s id → id ∉ inHand →
    ¬ net.Derivable inHand id
  /-- A live equation that was tried is of no use, except where it is still being tried. -/
  equations : ∀ equation ∈ s.visited, (net.bodyOf? equation).isSome = true →
    net.Live root s equation → ∀ id ∈ net.linksOf equation, (equation, id) ∉ trying →
      net.Blocked inHand equation id

variable {root : Nat} {inHand : List Nat} {trying : List (Nat × Nat)} {s s' : Search}

theorem exhausted_start : net.Exhausted root [] [] .start where
  nodup := List.nodup_nil
  unknown := by simp
  held := by simp
  sought := by simp
  quantities := by simp [Search.start]
  equations := by simp [Search.start]

/-- The invariant holds on if the new nodes are not live. -/
theorem Exhausted.extends (h : net.Exhausted root inHand trying s) (hforward : s.Extends s')
    (hnew : ∀ id ∈ s'.visited, id ∉ s.visited → ¬ net.Live root s' id) :
    net.Exhausted root inHand trying s' where
  nodup := h.nodup
  unknown := h.unknown
  held := fun id hid => hforward.visited (h.held id hid)
  sought := h.sought
  quantities := by
    intro id hid hquantity hlive
    by_cases hold : id ∈ s.visited
    · exact h.quantities id hold hquantity (hlive.of_extends hforward)
    · exact absurd hlive (hnew id hid hold)
  equations := by
    intro equation hequation hbody hlive
    by_cases hold : equation ∈ s.visited
    · exact h.equations equation hold hbody (hlive.of_extends hforward)
    · exact absurd hlive (hnew equation hequation hold)

theorem Exhausted.tell (h : net.Exhausted root inHand trying s) (event : Event) :
    net.Exhausted root inHand trying (s.tell event) :=
  h.extends (.tell s event) fun _ hid hnew => absurd hid hnew

theorem Exhausted.tellAll (h : net.Exhausted root inHand trying s) (events : List Event) :
    net.Exhausted root inHand trying (s.tellAll events) :=
  h.extends (.tellAll s events) fun _ hid hnew => absurd hid hnew

/-- A quantity that is visited for the first time is taken in hand. -/
theorem Exhausted.visit (h : net.Exhausted root inHand trying s) {id : Nat}
    (hunknown : net.Unknown id) (hid : id ∉ s.visited) :
    net.Exhausted root (id :: inHand) trying (s.visit id) where
  nodup := List.nodup_cons.2 ⟨fun hmem => hid (h.held id hmem), h.nodup⟩
  unknown := List.forall_mem_cons.2 ⟨hunknown, h.unknown⟩
  held := List.forall_mem_cons.2 ⟨List.mem_cons_self ..,
    fun other hother => List.mem_cons_of_mem _ (h.held other hother)⟩
  sought := fun pair hpair => List.mem_cons_of_mem _ (h.sought pair hpair)
  quantities := by
    intro other hother hquantity hlive hnot hderivable
    rcases List.mem_cons.1 hother with rfl | hother
    · exact hnot (List.mem_cons_self ..)
    · exact h.quantities other hother hquantity (hlive.of_extends (.visit s id))
        (fun hmem => hnot (List.mem_cons_of_mem _ hmem))
        (hderivable.mono (List.subset_cons_self _ _))
  equations := by
    intro equation hequation hbody hlive other hlink hnot
    rcases List.mem_cons.1 hequation with rfl | hequation
    · exact absurd hbody (by simp [bodyOf?_of_isQuantity hunknown.1])
    · exact (h.equations equation hequation hbody (hlive.of_extends (.visit s id)) other hlink
        hnot).mono fun z hz => hz.mono (List.subset_cons_self _ _)

/-- An equation that is tried for a quantity in hand is of no use for the others. -/
theorem Exhausted.enter (h : net.Exhausted root inHand trying s) {equation target : Nat}
    {body : Expr} (hbody : net.bodyOf? equation = some body)
    (hlink : target ∈ net.linksOf equation) (htarget : target ∈ inHand) :
    net.Exhausted root inHand ((equation, target) :: trying) (s.visit equation) where
  nodup := h.nodup
  unknown := h.unknown
  held := fun id hid => List.mem_cons_of_mem _ (h.held id hid)
  sought := List.forall_mem_cons.2 ⟨htarget, h.sought⟩
  quantities := by
    intro id hid hquantity hlive
    rcases List.mem_cons.1 hid with rfl | hid
    · exact absurd hbody (by simp [bodyOf?_of_isQuantity hquantity])
    · exact h.quantities id hid hquantity (hlive.of_extends (.visit s equation))
  equations := by
    intro other hother hsome hlive id hid hnot
    rcases List.mem_cons.1 hother with rfl | hother
    · intro _
      refine ⟨target, hlink, ?_, Derivable.not_of_mem htarget (h.unknown target htarget).2⟩
      rintro rfl
      exact hnot (List.mem_cons_self ..)
    · exact h.equations other hother hsome (hlive.of_extends (.visit s equation)) id hid
        fun hmem => hnot (List.mem_cons_of_mem _ hmem)

/-- An equation that was of no use is put aside. -/
theorem Exhausted.leave {equation target : Nat}
    (h : net.Exhausted root inHand ((equation, target) :: trying) s)
    (hblocked : net.Blocked inHand equation target) : net.Exhausted root inHand trying s where
  nodup := h.nodup
  unknown := h.unknown
  held := h.held
  sought := fun pair hpair => h.sought pair (List.mem_cons_of_mem _ hpair)
  quantities := h.quantities
  equations := by
    intro other hother hbody hlive id hid hnot
    by_cases hsame : (other, id) = (equation, target)
    · cases hsame
      exact hblocked
    · exact h.equations other hother hbody hlive id hid
        (List.not_mem_cons_of_ne_of_not_mem hsame hnot)

/-- A quantity all of whose equations were tried in vain is given up. -/
theorem Exhausted.giveUp {id : Nat} (h : net.Exhausted root (id :: inHand) trying s)
    (hwired : net.Wired) (hnot : ∀ pair ∈ trying, pair.2 ∈ inHand) (hlive : net.Live root s id)
    (htried : ∀ equation ∈ net.linksOf id, equation ∈ s.visited) :
    net.Exhausted root inHand trying s ∧ ¬ net.Derivable inHand id := by
  obtain ⟨hid, hnodup⟩ := List.nodup_cons.1 h.nodup
  have hunknown := h.unknown id (List.mem_cons_self ..)
  have hblocked : ∀ equation ∈ net.linksOf id, net.Blocked (id :: inHand) equation id := by
    intro equation hlink
    obtain ⟨body, hbody⟩ := hwired.exists_body hunknown.1 hlink
    exact h.equations equation (htried equation hlink) (by simp [hbody])
      (hlive.tail hlink (.inl (by simp [hbody]))) id (hwired.mem_linksOf_comm.1 hlink)
      fun hmem => hid (hnot _ hmem)
  have hsame : ∀ z, net.Derivable inHand z → net.Derivable (id :: inHand) z :=
    fun z hz => derivable_cons hblocked hz
  have hgiven := not_derivable_of_blocked hunknown.2 hblocked
  refine ⟨⟨hnodup, fun other hother => h.unknown other (List.mem_cons_of_mem _ hother),
    fun other hother => h.held other (List.mem_cons_of_mem _ hother), hnot, ?_, ?_⟩, hgiven⟩
  · intro other hother hquantity hlive hout hderivable
    rcases eq_or_ne other id with rfl | hne
    · exact hgiven hderivable
    · exact h.quantities other hother hquantity hlive
        (List.not_mem_cons_of_ne_of_not_mem hne hout) (hsame other hderivable)
  · intro equation hequation hbody hlive other hlink hpair
    exact (h.equations equation hequation hbody hlive other hlink hpair).mono hsame

/-- **A number found behind a forked equation.**  What was tried on the way to it is no longer live,
since every path there passes the number. -/
theorem Exhausted.found (h : net.Exhausted root inHand trying s) (hwired : net.Wired)
    (hseek : net.SeeksNearby seek) (huntangled : net.Untangled root) {equation target id : Nat}
    {body : Expr} {x : Float} (hbody : net.bodyOf? equation = some body)
    (hforked : net.Forked equation body) (happroached : net.Approached root target equation)
    (hvisited : equation ∈ s.visited) (hid : id ∈ net.unknownLinks equation) (hne : id ≠ target)
    (hx : (seek id s).1 = some x) : net.Exhausted root inHand trying (seek id s).2 := by
  have hquantity := hwired.isQuantity_of_link hbody (mem_unknownLinks.1 hid).1
  refine h.extends (hseek.forward id s) fun n hn hnew => ?_
  have hbehind : net.Joined (net.Around equation) id n := by
    refine (hseek.near hquantity n hn hnew).mono fun other hother => ⟨hother.1, ?_⟩
    rintro rfl
    exact hother.2 hvisited
  have hclosed : ¬ net.Open (seek id s).2 id := by
    rintro (hbody | hnone)
    · exact absurd hbody (by simp [bodyOf?_of_isQuantity hquantity])
    · exact absurd hnone (by simp [hseek.known hx])
  exact huntangled.not_joined hwired hbody hforked happroached hid hne.symm hbehind
    (fun _ hother => hother.numberOf?) hclosed

/-! ## The parts of a search -/

/-- No number was refused for not being finite. -/
def AllFinite (events : List Event) : Prop :=
  ∀ equation quantity x, Event.nonFinite equation quantity x ∉ events

instance (events : List Event) : Decidable (AllFinite events) :=
  decidable_of_iff (∀ event ∈ events, (event matches .nonFinite ..) = false) <| by
    constructor
    · intro h equation quantity x hmem
      exact absurd (h _ hmem) (by simp)
    · intro h event hmem
      cases event with
      | nonFinite equation quantity x => exact absurd hmem (h equation quantity x)
      | _ => rfl

theorem AllFinite.of_extends (h : s.Extends s') (hfinite : AllFinite s'.events) :
    AllFinite s.events :=
  fun equation quantity x hmem => hfinite equation quantity x (h.events hmem)

/-- What is asked of the search for a quantity while some are in hand: if it finds nothing, then
there is nothing to find. -/
structure SeeksFully (net : Network) (root : Nat) (inHand : List Nat) (seek : Nat → Seek Float) :
    Prop extends net.SeeksNearby seek where
  full : ∀ {trying : List (Nat × Nat)} {id : Nat} {s : Search}, net.Unknown id →
    net.known? s id = none → id ∉ s.visited → net.Held root (s.visit id) id →
    net.Exhausted root inHand trying s → (seek id s).1 = none → AllFinite (seek id s).2.events →
    net.Exhausted root inHand trying (seek id s).2 ∧ ¬ net.Derivable inHand id

/-- An equation that is not forked has two unknown quantities at most. -/
theorem known_of_not_forked {equation target id : Nat} {body : Expr} {x : Float}
    (hforked : ¬ net.Forked equation body) (htarget : target ∈ net.unknownLinks equation)
    (hid : id ∈ net.unknownLinks equation) (hne : id ≠ target) (hx : net.known? s id = some x) :
    ∀ z ∈ net.others equation target, ∃ y, net.known? s z = some y := by
  intro z hz
  obtain ⟨hlink, hz_ne⟩ := mem_others.1 hz
  rcases eq_or_ne z id with rfl | hz_id
  · exact ⟨x, hx⟩
  · cases hstored : net.numberOf? z with
    | some y => exact ⟨y, by simp [known?, hstored]⟩
    | none =>
      have hz_unknown := mem_unknownLinks.2 ⟨hlink, hstored⟩
      exact absurd (forked_of_three body htarget hid hz_unknown hne.symm hz_ne.symm hz_id.symm)
        hforked

section Equation

variable {equation target : Nat} {body : Expr} (hwired : net.Wired)
  (huntangled : net.Untangled root) (hseek : net.SeeksFully root inHand seek)
  (hbody : net.bodyOf? equation = some body) (happroached : net.Approached root target equation)

include hwired huntangled hseek hbody happroached

/-- If a quantity of an equation comes by no number, then it is not derivable.  If it does, then the
invariant still holds, or all quantities but the target have numbers. -/
theorem look_full {id : Nat} (hid : id ∈ net.others equation target)
    (hvisited : equation ∈ s.visited) (hheld : net.Held root s equation)
    (h : net.Exhausted root inHand trying s)
    (hfinite : AllFinite (net.look seek id s).2.events) :
    ((net.look seek id s).1 = none → ¬ net.Derivable inHand id) ∧
      (net.Exhausted root inHand trying (net.look seek id s).2 ∨
        (net.look seek id s).1 ≠ none ∧ ¬ net.Forked equation body ∧
          ∀ z ∈ net.others equation target, ∃ y, net.known? (net.look seek id s).2 z = some y) := by
  obtain ⟨hlink, hne⟩ := mem_others.1 hid
  have hquantity := hwired.isQuantity_of_link hbody hlink
  cases hknown : net.known? s id with
  | some x =>
    rw [look_known hknown]
    exact ⟨fun hnone => absurd hnone (by simp), .inl h⟩
  | none =>
    obtain ⟨hstored, -⟩ := known?_eq_none_iff.1 hknown
    by_cases hid_visited : id ∈ s.visited
    · rw [look_visited hknown hid_visited]
      refine ⟨fun _ => ?_, .inl h⟩
      by_cases hinHand : id ∈ inHand
      · exact Derivable.not_of_mem hinHand hstored
      · exact h.quantities id hid_visited hquantity (hheld.live.tail hlink (.inr hknown)) hinHand
    · rw [look_seek hknown hid_visited] at hfinite ⊢
      cases hx : (seek id s).1 with
      | none =>
        have hheld_id : net.Held root (s.visit id) id :=
          (hheld.extends (.visit s id)).tail hlink ⟨List.mem_cons_self .., .inr hknown⟩
        obtain ⟨h', hnot⟩ :=
          hseek.full ⟨hquantity, hstored⟩ hknown hid_visited hheld_id h hx hfinite
        exact ⟨fun _ => hnot, .inl h'⟩
      | some x =>
        refine ⟨fun hnone => absurd hnone (by simp), ?_⟩
        have hunknown := mem_unknownLinks.2 ⟨hlink, hstored⟩
        by_cases hforked : net.Forked equation body
        · exact .inl (h.found hwired hseek.toSeeksNearby huntangled hbody hforked happroached
            hvisited hunknown hne hx)
        · exact .inr ⟨by simp, hforked,
            known_of_not_forked hforked happroached.unknown hunknown hne (hseek.known hx)⟩

/-- If an equation does not come by all numbers, then some quantity is not derivable.  If it does,
then the invariant still holds where the equation is forked. -/
theorem gather_full (name : String) {ids : List Nat} :
    ∀ {s : Search}, (∀ id ∈ ids, id ∈ net.others equation target) → equation ∈ s.visited →
      net.Held root s equation → net.Exhausted root inHand trying s →
      AllFinite (gather net seek name ids s).2.events →
      ((gather net seek name ids s).1 = none → ∃ z ∈ ids, ¬ net.Derivable inHand z) ∧
        ((gather net seek name ids s).1 = none ∨ net.Forked equation body →
          net.Exhausted root inHand trying (gather net seek name ids s).2) := by
  induction ids with
  | nil =>
    intro s _ _ _ h _
    exact ⟨fun hnone => absurd hnone (by simp [gather_nil]), fun _ => h⟩
  | cons id ids ih =>
    intro s hids hvisited hheld h hfinite
    obtain ⟨hid, hids⟩ := List.forall_mem_cons.1 hids
    have hlook := look_full hwired huntangled hseek hbody happroached hid hvisited hheld h
    have hforward : s.Extends (net.look seek id s).2 := look_extends hseek.forward id s
    rcases hfound : net.look seek id s with ⟨_ | x, s'⟩
    · rw [gather_cons_none hfound] at hfinite ⊢
      rw [hfound] at hlook
      obtain ⟨hnot, h' | ⟨hsome, -⟩⟩ := hlook (hfinite.of_extends (.tell s' _))
      · exact ⟨fun _ => ⟨id, List.mem_cons_self .., hnot rfl⟩, fun _ => h'.tell _⟩
      · exact absurd rfl hsome
    · rw [gather_cons_some hfound] at hfinite ⊢
      rw [hfound] at hlook hforward
      rw [Option.map_eq_none_iff]
      obtain ⟨-, h' | ⟨-, hforked, hall⟩⟩ :=
        hlook (hfinite.of_extends (gather_extends hseek.forward name s'))
      · obtain ⟨hmissing, hrest⟩ :=
          ih hids (hforward.visited hvisited) (hheld.extends hforward) h' hfinite
        refine ⟨fun hnone => ?_, hrest⟩
        obtain ⟨z, hz, hnot⟩ := hmissing hnone
        exact ⟨z, List.mem_cons_of_mem _ hz, hnot⟩
      · have hgathered : ∃ pairs, gather net seek name ids s' = (some pairs, s') :=
          gather_known name fun z hz => hall z (hids z hz)
        obtain ⟨pairs, hpairs⟩ := hgathered
        rw [hpairs]
        exact ⟨fun hnone => absurd hnone (by simp), fun hor => absurd hor (by simp [hforked])⟩

end Equation

/-- If an equation has the target as one leaf only and came by all other numbers, then its solution
has a value. -/
theorem exists_evaluate_gathered (hnet : net.Consistent) (hbodies : net.Bodies Expr.WellFormed)
    {equation target : Nat} {body solution : Expr} {pairs : List (String × Float)} {name : String}
    (hbody : net.bodyOf? equation = some body)
    (hone : body.occurrences (net.nameOf target) = 1)
    (hsolve : body.solve net.settings.maxRewriteSteps (net.nameOf target) = .ok solution)
    (hgather : (gather net seek name (net.others equation target) s).1 = some pairs) :
    ∃ x, solution.evaluate (.ofList pairs) = .ok x := by
  obtain ⟨a, ha, habody⟩ := bodyOf?_eq_some.1 hbody
  refine Expr.exists_evaluate_solution (hbodies equation a body ha habody) hone hsolve ?_
  intro lexeme hlexeme hne
  rw [← hnet.linkNames_eq hbody, linkNames] at hlexeme
  obtain ⟨id, hid, rfl⟩ := List.mem_map.1 hlexeme
  have hother : id ∈ net.others equation target :=
    mem_others.2 ⟨hid, fun heq => hne (congrArg net.nameOf heq)⟩
  have hmem : net.nameOf id ∈ pairs.map Prod.fst := by
    rw [gather_names name hgather]
    exact List.mem_map_of_mem hother
  cases hlookup : Valuation.ofList pairs (net.nameOf id) with
  | some x => exact ⟨x, rfl⟩
  | none =>
    obtain ⟨pair, hpair, heq⟩ := List.mem_map.1 hmem
    exact absurd heq.symm (by simpa using List.lookup_eq_none_iff.1 hlookup pair hpair)

/-- **An equation that gives no number is of no use.** -/
theorem tryEquation_full (hnet : net.Consistent) (hbodies : net.Bodies Expr.WellFormed)
    (hroot : net.Unknown root) (huntangled : net.Untangled root)
    (hseek : net.SeeksFully root inHand seek) {equation target : Nat}
    (hlink : equation ∈ net.linksOf target) (htarget : target ∈ inHand)
    (hheld : net.Held root s target) (hnew : equation ∉ s.visited)
    (h : net.Exhausted root inHand trying s)
    (hnone : (tryEquation net seek equation target s).1 = none)
    (hfinite : AllFinite (tryEquation net seek equation target s).2.events) :
    net.Exhausted root inHand trying (tryEquation net seek equation target s).2 := by
  have hunknown := h.unknown target htarget
  obtain ⟨body, hbody⟩ := hnet.exists_body hunknown.1 hlink
  have hback := hnet.mem_linksOf_comm.1 hlink
  have henter : net.Exhausted root inHand ((equation, target) :: trying)
      (net.enter equation target body s) :=
    ((h.enter hbody hback htarget).tell _).tellAll _
  cases hsolve : body.solve net.settings.maxRewriteSteps (net.nameOf target) with
  | error error =>
    rw [tryEquation_error s hbody hsolve]
    refine (henter.leave fun hsolvable => ?_).tell _
    obtain ⟨-, solution, hok⟩ := (solvable_iff hbody).1 hsolvable
    exact absurd hok (by simp [hsolve])
  | ok solution =>
    have happroached := hheld.approached hnet.toWired hroot hunknown hlink hnew
    have hheld_equation : net.Held root (net.enter equation target body s) equation :=
      (hheld.extends ((Search.Extends.visit s equation).trans
        (net.enter_extends equation target body s))).tail hlink
          ⟨List.mem_cons_self .., .inl (by simp [hbody])⟩
    have hgather := gather_full hnet.toWired huntangled hseek hbody happroached
      (net.nameOf equation) (fun _ hid => hid) (List.mem_cons_self ..) hheld_equation henter
    rcases hgathered : net.gatherOthers seek equation target body s with ⟨_ | pairs, s'⟩
    · rw [tryEquation_stalled hbody hsolve hgathered] at hfinite ⊢
      unfold gatherOthers at hgathered
      rw [hgathered] at hgather
      obtain ⟨hmissing, hrest⟩ := hgather hfinite
      obtain ⟨z, hz, hnot⟩ := hmissing rfl
      exact (hrest (.inl rfl)).leave fun _ => ⟨z, (mem_others.1 hz).1, (mem_others.1 hz).2, hnot⟩
    · rw [tryEquation_gathered hbody hsolve hgathered] at hnone hfinite ⊢
      unfold gatherOthers at hgathered
      rw [hgathered] at hgather
      obtain ⟨-, hrest⟩ := hgather (hfinite.of_extends (conclude_extends _ _ _ _ s'))
      rcases conclude_cases (net.nameOf equation) (net.nameOf target) solution pairs s' with
        ⟨error, herror, hconclude⟩ | ⟨x, -, ⟨-, hconclude⟩ | hconclude⟩
      · -- The only way to fail here is that the target is a leaf more than once.
        have hmany : body.occurrences (net.nameOf target) ≠ 1 := by
          intro hone
          have hpairs := congrArg Prod.fst hgathered
          obtain ⟨x, hx⟩ := exists_evaluate_gathered hnet hbodies hbody hone hsolve hpairs
          exact absurd hx (by simp [herror])
        have hforked : net.Forked equation body := by
          refine .inr ⟨target, happroached.unknown, ?_⟩
          have hcount := Expr.occurrences_solve hsolve
          omega
        rw [hconclude]
        refine ((hrest (.inr hforked)).leave fun hsolvable => ?_).tell _
        exact absurd ((solvable_iff hbody).1 hsolvable).1 hmany
      · rw [hconclude] at hnone
        exact absurd hnone (by simp)
      · rw [hconclude] at hfinite
        exact absurd (List.mem_append_right _ (List.mem_singleton_self _)) (hfinite _ _ x)

/-- Equations none of which gives a number are tried one and all. -/
theorem tryEquations_full {attempt : Nat → Seek Float} {target : Nat}
    (hforward : ∀ (equation : Nat) (s : Search), (s.visit equation).Extends (attempt equation s).2)
    (hattempt : ∀ {equation : Nat} {s : Search}, equation ∈ net.linksOf target →
      equation ∉ s.visited → net.Held root s target → net.Exhausted root inHand trying s →
      (attempt equation s).1 = none → AllFinite (attempt equation s).2.events →
      net.Exhausted root inHand trying (attempt equation s).2)
    {equations : List Nat} : ∀ {s : Search}, (∀ e ∈ equations, e ∈ net.linksOf target) →
      net.Held root s target → net.Exhausted root inHand trying s →
      (tryEquations attempt equations s).1 = none →
      AllFinite (tryEquations attempt equations s).2.events →
      net.Exhausted root inHand trying (tryEquations attempt equations s).2 ∧
        ∀ e ∈ equations, e ∈ (tryEquations attempt equations s).2.visited := by
  induction equations with
  | nil =>
    intro s _ _ h _ _
    exact ⟨h, fun e he => absurd he (by simp)⟩
  | cons equation rest ih =>
    intro s hlinks hheld h hnone hfinite
    obtain ⟨hlink, hlinks⟩ := List.forall_mem_cons.1 hlinks
    by_cases hvisited : equation ∈ s.visited
    · rw [tryEquations_visited hvisited] at hnone hfinite ⊢
      obtain ⟨h', hall⟩ := ih hlinks hheld h hnone hfinite
      have hmem : equation ∈ (tryEquations attempt rest s).2.visited :=
        (tryEquations_extends hforward s).visited hvisited
      exact ⟨h', List.forall_mem_cons.2 ⟨hmem, hall⟩⟩
    · have hfirst := hforward equation s
      have htry := hattempt hlink hvisited hheld h
      rcases htried : attempt equation s with ⟨_ | x, s'⟩
      · rw [tryEquations_none hvisited htried] at hnone hfinite ⊢
        rw [htried] at hfirst htry
        have hrest : s'.Extends (tryEquations attempt rest s').2 := tryEquations_extends hforward s'
        have hheld' := hheld.extends ((Search.Extends.visit s equation).trans hfirst)
        obtain ⟨h', hall⟩ :=
          ih hlinks hheld' (htry rfl (hfinite.of_extends hrest)) hnone hfinite
        have hmem := hrest.visited (hfirst.visited (List.mem_cons_self ..))
        exact ⟨h', List.forall_mem_cons.2 ⟨hmem, hall⟩⟩
      · rw [tryEquations_some hvisited htried] at hnone
        exact absurd hnone (by simp)

/-- **A search that finds nothing missed nothing.**  Every quantity in hand is one level of the
search, for which one unit of fuel is spent and which goes two steps down. -/
theorem seek_full (hnet : net.Consistent) (hbodies : net.Bodies Expr.WellFormed)
    (hroot : net.Unknown root) (huntangled : net.Untangled root)
    (hdeep : 2 * (net.unknowns.length - 1) ≤ net.settings.maxRecursionDepth) {fuel : Nat} :
    ∀ {inHand : List Nat}, fuel + inHand.length = net.size + 1 →
      net.SeeksFully root inHand (net.seek fuel (2 * inHand.length)) := by
  induction fuel with
  | zero =>
    intro inHand hlength
    refine ⟨seek_near hnet.toWired _, fun {_ _ _} _ _ _ _ h _ _ => ?_⟩
    have hcount := length_le_unknowns hnet.toWired h.nodup h.unknown
    have hsize := net.unknowns_length_le
    omega
  | succ fuel ih =>
    intro inHand hlength
    refine ⟨seek_near hnet.toWired _, ?_⟩
    intro trying id s hunknown hknown hvisited hheld h hnone hfinite
    have hvisit := h.visit hunknown hvisited
    have hcount := length_le_unknowns hnet.toWired hvisit.nodup hvisit.unknown
    rw [List.length_cons] at hcount
    have hdepth : 2 * inHand.length ≤ net.settings.maxRecursionDepth := by omega
    have hseek : net.SeeksFully root (id :: inHand) (net.seek fuel (2 * inHand.length + 2)) :=
      ih (by rw [List.length_cons]; omega)
    have hexpand := tryEquations_full
      (fun equation s => tryEquation_extends hseek.forward equation id s)
      (fun hlink hnew hheld h => tryEquation_full hnet hbodies hroot huntangled hseek hlink
        (List.mem_cons_self ..) hheld hnew h) (fun _ he => he) hheld hvisit
    have hforward : (s.visit id).Extends (net.expand fuel (2 * inHand.length) id s).2 :=
      tryEquations_extends (fun equation s => tryEquation_extends hseek.forward equation id s) _
    rcases hfound : net.expand fuel (2 * inHand.length) id s with ⟨_ | ⟨x, equation⟩, s'⟩
    · rw [seek_none hknown hvisited hdepth hfound] at hfinite ⊢
      rw [hfound] at hforward
      unfold expand at hfound
      rw [hfound] at hexpand
      obtain ⟨h', htried⟩ := hexpand rfl hfinite
      exact h'.giveUp hnet.toWired h.sought (hheld.extends hforward).live htried
    · rw [seek_some hknown hvisited hdepth hfound] at hnone
      exact absurd hnone (by simp)

/-! ## Requests -/

/-- What a derivation gives is derivable. -/
theorem Derivation.derivable (hwired : net.Wired) {steps : List Step} (h : net.Derivation steps) :
    ∀ step ∈ steps, net.Derivable [] step.quantity := by
  induction h with
  | nil => simp
  | @cons step earlier _ hstep ih =>
    refine List.forall_mem_cons.2 ⟨?_, ih⟩
    obtain ⟨body, solution, hbody, hone, hsolve, -⟩ := hstep.solved
    refine .solved (List.not_mem_nil) (hwired.mem_linksOf_comm.1 hstep.linked)
      ⟨body, solution, hbody, hone, hsolve⟩ fun z hz hne => ?_
    rcases hstep.known z hz hne with hstored | ⟨s, hs, rfl⟩
    · exact .stored hstored
    · exact ih s hs

/-- What a request finds is derivable. -/
theorem derivable_of_resolve (hwired : net.Wired) {name : String} {id : Nat} {x : Float}
    (hid : net.quantityId? name = some id) (h : net.resolve name = .resolved x) :
    net.Derivable [] id := by
  obtain ⟨id', hid', s, steps, hsteps, hknown⟩ := exists_backed_of_resolve hwired h
  obtain rfl : id = id' := Option.some.inj (hid.symm.trans hid')
  rcases hsteps.stored_or_derived hknown with hstored | ⟨step, hstep, rfl⟩
  · exact .stored hstored
  · exact hsteps.derivation.derivable hwired step hstep

/-- A request that finds nothing ends in a state in which the search for the quantity found
nothing. -/
theorem exists_seek_of_unresolved {name : String} {id : Nat} (hid : net.quantityId? name = some id)
    (h : net.resolve name = .unresolved) :
    ∃ s, net.seek net.requestFuel 0 id .start = (none, s) ∧
      s.events ⊆ (net.request name).2 := by
  unfold resolve at h
  rcases hfound : net.seek net.requestFuel 0 id .start with ⟨_ | x, s⟩
  · refine ⟨s, rfl, ?_⟩
    simp [request, hid, hfound]
  · exact absurd h (by simp [request, hid, hfound])

/-- **In an untangled network a request finds what is derivable.**  It finds a number if and only if
the quantity is derivable, unless a number on the way is refused for not being finite.  The depth
that is needed is that of a path through all unknown quantities; the greatest limit allows for more
of them than a machine can hold. -/
theorem resolve_complete (hnet : net.Reachable Expr.WellFormed) {name : String} {id : Nat}
    (hid : net.quantityId? name = some id) (huntangled : net.Untangled id)
    (hdeep : 2 * (net.unknowns.length - 1) ≤ net.settings.maxRecursionDepth)
    (hfinite : AllFinite (net.request name).2) :
    (net.resolve name).isResolved = true ↔ net.Derivable [] id := by
  have hconsistent := hnet.consistent
  cases hresolve : net.resolve name with
  | resolved x => simp [Resolution.isResolved, Resolution.number?,
      derivable_of_resolve hconsistent.toWired hid hresolve]
  | unresolved =>
    obtain ⟨s, hseek, hevents⟩ := exists_seek_of_unresolved hid hresolve
    have hunknown : net.Unknown id := by
      refine ⟨(isQuantity_of_quantityId? hid).1, ?_⟩
      cases hstored : net.numberOf? id with
      | none => rfl
      | some x =>
        have hknown : net.known? .start id = some x := by simp [known?, hstored]
        rw [requestFuel, seek_known hknown] at hseek
        exact absurd hseek (by simp)
    have hfull : net.SeeksFully id [] (net.seek net.requestFuel 0) :=
      seek_full hconsistent hnet.bodies hunknown huntangled hdeep rfl
    have hnone : net.known? .start id = none := known?_eq_none_iff.2 ⟨hunknown.2, rfl⟩
    have hend := hfull.full hunknown hnone List.not_mem_nil .refl exhausted_start
    rw [hseek] at hend
    obtain ⟨-, hnot⟩ := hend rfl fun e q x hmem => hfinite e q x (hevents hmem)
    simp [Resolution.isResolved, Resolution.number?, hnot]

/-- A network with a circle and with a forked equation that is not on it. -/
theorem resolve_complete_circle_and_fork :
    ∃ net, Network.Reachable Expr.WellFormed net ∧ net.value? "a" = none ∧
      ∃ id, net.quantityId? "a" = some id ∧ net.Untangled id ∧
        2 * (net.unknowns.length - 1) ≤ net.settings.maxRecursionDepth ∧
        AllFinite (net.request "a").2 ∧ net.Derivable [] id := by
  let plan : Plan := ⟨.default, [("ratio", "a = 2 * b"), ("shift", "b = a - 3"),
    ("total", "b + c + d = 10"), ("third", "c = 3"), ("fourth", "d = 4")], [], []⟩
  -- Around the equation `total` there are `c` and `d`, each with its equation, and all the rest.
  let part : Nat → Nat → Nat := fun _ i =>
    if i = 7 ∨ i = 10 then 1 else if i = 8 ∨ i = 11 then 2 else 0
  have hplan : (plan.network.toOption.any fun net => (net.value? "a").isNone &&
      decide (net.quantityId? "a" = some 1) && decide (net.Parted part) &&
      decide (2 * (net.unknowns.length - 1) ≤ net.settings.maxRecursionDepth) &&
      decide (AllFinite (net.request "a").2) && (net.resolve "a").isResolved) = true := by
    decide +kernel
  cases hnet : plan.network with
  | error error => exact absurd hplan (by simp [hnet, Except.toOption])
  | ok net =>
    simp only [hnet, Except.toOption, Option.any_some, Bool.and_eq_true, decide_eq_true_eq,
      Option.isNone_iff_eq_none] at hplan
    obtain ⟨⟨⟨⟨⟨hnone, hid⟩, hparted⟩, hdeep⟩, hfinite⟩, hresolved⟩ := hplan
    have hreachable : net.Reachable Expr.WellFormed :=
      (Plan.reachable_network hnet).mono fun _ hread => by
        obtain ⟨limit, text, htext⟩ := hread
        exact wellFormed_of_read htext
    have huntangled := untangled_of_parted hreachable.consistent.toWired hparted 1
    exact ⟨net, hreachable, hnone, 1, hid, huntangled, hdeep, hfinite,
      (resolve_complete hreachable hid huntangled hdeep hfinite).1 hresolved⟩

/-- **A derivable quantity that a request misses.**  The equation `x = w + y` is forked and lies on
a circle.  On the way to `w` the quantity `y` is given up, since its equation `y = w` has to wait
for `w`; then `w` is found, but `y` is not tried again. -/
theorem resolve_incomplete_of_tangled :
    ∃ net, Network.Reachable Expr.IsRead net ∧ net.settings.maxRecursionDepth = greatestLimit ∧
      ∃ id, net.quantityId? "x" = some id ∧ net.Derivable [] id ∧
        AllFinite (net.request "x").2 ∧ (net.resolve "x").isResolved = false := by
  let plan : Plan := ⟨.default, [("sum", "x = w + y"), ("same", "y = w"), ("one", "w = 1")], [], []⟩
  have hplan : (plan.network.toOption.any fun net =>
      decide (net.settings.maxRecursionDepth = greatestLimit) &&
      decide (net.quantityId? "x" = some 1) && decide (AllFinite (net.request "x").2) &&
      !(net.resolve "x").isResolved && (net.numberOf? 6).isSome &&
      decide (net.linksOf 2 = [0, 4, 5] ∧ net.linksOf 5 = [2, 6] ∧ net.Solvable 5 2) &&
      decide (net.linksOf 3 = [0, 4] ∧ net.linksOf 4 = [3, 2] ∧ net.Solvable 4 3) &&
      decide (net.linksOf 1 = [0] ∧ net.linksOf 0 = [1, 2, 3] ∧ net.Solvable 0 1)) = true := by
    decide +kernel
  cases hnet : plan.network with
  | error error => exact absurd hplan (by simp [hnet, Except.toOption])
  | ok net =>
    simp only [hnet, Except.toOption, Option.any_some, Bool.and_eq_true, decide_eq_true_eq,
      Bool.not_eq_true'] at hplan
    obtain ⟨⟨⟨⟨⟨⟨⟨hlimit, hid⟩, hfinite⟩, hmissed⟩, hone⟩, hlinks_w, hlinks_one, hsolve_w⟩,
      hlinks_y, hlinks_same, hsolve_y⟩, hlinks_x, hlinks_sum, hsolve_x⟩ := hplan
    have hw : net.Derivable [] 2 := .solved List.not_mem_nil (by simp [hlinks_w]) hsolve_w
      (by simp [hlinks_one, Derivable.stored hone])
    have hy : net.Derivable [] 3 :=
      .solved List.not_mem_nil (by simp [hlinks_y]) hsolve_y (by simp [hlinks_same, hw])
    have hx : net.Derivable [] 1 :=
      .solved List.not_mem_nil (by simp [hlinks_x]) hsolve_x (by simp [hlinks_sum, hw, hy])
    exact ⟨net, Plan.reachable_network hnet, hlimit, 1, hid, hx, hfinite, hmissed⟩

end EquationNetwork.Network
