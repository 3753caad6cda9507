import EquationNetwork.Proofs.Network.Consistency

/-!
# The course of a search

What every part of a search does, whether it finds a number or not.

* `Network.look` — how an equation comes by the number of one of its quantities.
* `Network.tryEquation_eq`, `Network.seek_succ` — the parts of a search, one equation each.
* `Search.Extends` — a later state of a search: nothing that was visited, told or derived is lost,
  and no number is derived for a node that was visited before.
* `Network.seek_extends` — **a search only goes forward.**
* `Network.Seeks` — what the parts of a search ask of the search for a quantity.
-/

namespace EquationNetwork

/-! ## States of a search -/

namespace Search

@[simp] theorem derived_derive (s : Search) (id : Nat) (x : Float) :
    (s.derive id x).derived = (id, x) :: s.derived := rfl

theorem hasVisited_iff {s : Search} {id : Nat} : s.hasVisited id = true ↔ id ∈ s.visited :=
  List.contains_iff_mem

/-- The state `s'` comes after the state `s` in a search. -/
structure Extends (s s' : Search) : Prop where
  visited : s.visited ⊆ s'.visited
  events : s.events ⊆ s'.events
  /-- A number that was derived stays. -/
  kept : ∀ id x, s.derived.lookup id = some x → s'.derived.lookup id = some x
  /-- A node that was visited before comes by no number. -/
  frozen : ∀ id ∈ s.visited, s'.derived.lookup id = s.derived.lookup id

namespace Extends

protected theorem refl (s : Search) : Extends s s :=
  ⟨fun _ h => h, fun _ h => h, fun _ _ h => h, fun _ _ => rfl⟩

protected theorem trans {s s' s'' : Search} (h : Extends s s') (h' : Extends s' s'') :
    Extends s s'' :=
  ⟨fun _ hid => h'.visited (h.visited hid), fun _ he => h'.events (h.events he),
    fun id x hx => h'.kept id x (h.kept id x hx),
    fun id hid => (h'.frozen id (h.visited hid)).trans (h.frozen id hid)⟩

theorem visit (s : Search) (id : Nat) : Extends s (s.visit id) :=
  ⟨List.subset_cons_self id s.visited, fun _ h => h, fun _ _ h => h, fun _ _ => rfl⟩

theorem tellAll (s : Search) (events : List Event) : Extends s (s.tellAll events) :=
  ⟨fun _ h => h, List.subset_append_left _ _, fun _ _ h => h, fun _ _ => rfl⟩

theorem tell (s : Search) (event : Event) : Extends s (s.tell event) := .tellAll s [event]

/-- A number may be derived for a node that was new at the start and has none. -/
theorem derive {s s' : Search} (h : Extends s s') {id : Nat} (x : Float) (hid : id ∉ s.visited)
    (hnone : s'.derived.lookup id = none) : Extends s (s'.derive id x) := by
  have hother : ∀ other, other ≠ id → (s'.derive id x).derived.lookup other =
      s'.derived.lookup other := by
    intro other hne
    rw [derived_derive, List.lookup_cons, beq_eq_false_iff_ne.2 hne]
  refine ⟨h.visited, h.events, ?_, ?_⟩
  · intro other y hy
    have hy' := h.kept other y hy
    rw [hother, hy']
    rintro rfl
    exact absurd hy' (by simp [hnone])
  · intro other hmem
    rw [hother, h.frozen other hmem]
    rintro rfl
    exact hid hmem

end Extends

end Search

namespace Network

variable {net : Network} {seek : Nat → Seek Float}

/-! ## The parts of a search -/

/-- How an equation comes by the number of a quantity: it is known, or it is looked for if the
quantity was not tried before. -/
def look (net : Network) (seek : Nat → Seek Float) (id : Nat) : Seek Float := fun s =>
  match net.known? s id with
  | some x => (some x, s)
  | none => if s.hasVisited id then (none, s) else seek id s

theorem look_known {s : Search} {id : Nat} {x : Float} (h : net.known? s id = some x) :
    net.look seek id s = (some x, s) := by
  rw [look, h]

theorem look_visited {s : Search} {id : Nat} (h : net.known? s id = none) (hid : id ∈ s.visited) :
    net.look seek id s = (none, s) := by
  rw [look, h]
  exact if_pos (Search.hasVisited_iff.2 hid)

theorem look_seek {s : Search} {id : Nat} (h : net.known? s id = none) (hid : id ∉ s.visited) :
    net.look seek id s = seek id s := by
  rw [look, h]
  exact if_neg fun hvisited => hid (Search.hasVisited_iff.1 hvisited)

theorem gather_nil (equation : String) (s : Search) :
    gather net seek equation [] s = (some [], s) := rfl

theorem gather_cons (equation : String) (id : Nat) (ids : List Nat) (s : Search) :
    gather net seek equation (id :: ids) s =
      match net.look seek id s with
      | (none, s) => (none, s.tell (.stalled equation (net.nameOf id)))
      | (some x, s) =>
          match gather net seek equation ids s with
          | (none, s) => (none, s)
          | (some pairs, s) => (some ((net.nameOf id, x) :: pairs), s) := rfl

theorem gather_cons_none {equation : String} {id : Nat} {s s' : Search}
    (h : net.look seek id s = (none, s')) (ids : List Nat) :
    gather net seek equation (id :: ids) s =
      (none, s'.tell (.stalled equation (net.nameOf id))) := by
  rw [gather_cons, h]

theorem gather_cons_some {equation : String} {id : Nat} {x : Float} {s s' : Search}
    (h : net.look seek id s = (some x, s')) (ids : List Nat) :
    gather net seek equation (id :: ids) s =
      ((gather net seek equation ids s').1.map ((net.nameOf id, x) :: ·),
        (gather net seek equation ids s').2) := by
  rw [gather_cons, h]
  dsimp only
  rcases gather net seek equation ids s' with ⟨_ | pairs, s''⟩ <;> rfl

/-- The state in which an equation has been visited and solved, or not, for a quantity. -/
def enter (net : Network) (equation target : Nat) (body : Expr) (s : Search) : Search :=
  ((s.visit equation).tell (.trying (net.nameOf equation) (net.nameOf target))).tellAll
    (body.solveEvents net.settings.maxRewriteSteps (net.nameOf target))

theorem enter_extends (equation target : Nat) (body : Expr) (s : Search) :
    (s.visit equation).Extends (net.enter equation target body s) :=
  (Search.Extends.tell _ _).trans (.tellAll _ _)

/-- The quantities that an equation is linked to, but for the one that it is solved for. -/
def others (net : Network) (equation target : Nat) : List Nat :=
  (net.linksOf equation).filter (· != target)

theorem mem_others {equation target id : Nat} :
    id ∈ net.others equation target ↔ id ∈ net.linksOf equation ∧ id ≠ target := by
  simp [others]

theorem tryEquation_error {equation target : Nat} {body : Expr} {error : SolveError} (s : Search)
    (hbody : net.bodyOf? equation = some body)
    (hsolve : body.solve net.settings.maxRewriteSteps (net.nameOf target) = .error error) :
    tryEquation net seek equation target s =
      (none, (net.enter equation target body s).tell
        (.unsolvable (net.nameOf equation) (net.nameOf target) error)) := by
  simp only [tryEquation, hbody, hsolve]
  rfl

/-- The numbers that an equation comes by for a quantity. -/
def gatherOthers (net : Network) (seek : Nat → Seek Float) (equation target : Nat) (body : Expr) :
    Seek (List (String × Float)) := fun s =>
  gather net seek (net.nameOf equation) (net.others equation target)
    (net.enter equation target body s)

theorem tryEquation_ok {equation target : Nat} {body solution : Expr} (s : Search)
    (hbody : net.bodyOf? equation = some body)
    (hsolve : body.solve net.settings.maxRewriteSteps (net.nameOf target) = .ok solution) :
    tryEquation net seek equation target s =
      match net.gatherOthers seek equation target body s with
      | (none, s) => (none, s)
      | (some pairs, s) =>
          conclude (net.nameOf equation) (net.nameOf target) solution pairs s := by
  simp only [tryEquation, hbody, hsolve]
  rfl

theorem tryEquation_stalled {equation target : Nat} {body solution : Expr} {s s' : Search}
    (hbody : net.bodyOf? equation = some body)
    (hsolve : body.solve net.settings.maxRewriteSteps (net.nameOf target) = .ok solution)
    (hgather : net.gatherOthers seek equation target body s = (none, s')) :
    tryEquation net seek equation target s = (none, s') := by
  rw [tryEquation_ok s hbody hsolve, hgather]

theorem tryEquation_gathered {equation target : Nat} {body solution : Expr} {s s' : Search}
    {pairs : List (String × Float)} (hbody : net.bodyOf? equation = some body)
    (hsolve : body.solve net.settings.maxRewriteSteps (net.nameOf target) = .ok solution)
    (hgather : net.gatherOthers seek equation target body s = (some pairs, s')) :
    tryEquation net seek equation target s =
      conclude (net.nameOf equation) (net.nameOf target) solution pairs s' := by
  rw [tryEquation_ok s hbody hsolve, hgather]

/-- What comes of evaluating a solution. -/
theorem conclude_cases (equation quantity : String) (solution : Expr)
    (pairs : List (String × Float)) (s : Search) :
    (∃ error, solution.evaluate (.ofList pairs) = .error error ∧
        conclude equation quantity solution pairs s =
          (none, s.tell (.unevaluable equation error))) ∨
      ∃ x, solution.evaluate (.ofList pairs) = .ok x ∧
        ((x.isFinite = true ∧ conclude equation quantity solution pairs s = (some x, s)) ∨
          conclude equation quantity solution pairs s =
            (none, s.tell (.nonFinite equation quantity x))) := by
  unfold conclude
  cases hvalue : solution.evaluate (.ofList pairs) with
  | error error => exact .inl ⟨error, rfl, rfl⟩
  | ok x =>
    refine .inr ⟨x, rfl, ?_⟩
    by_cases hx : x.isFinite = true
    · exact .inl ⟨hx, by simp [hx]⟩
    · exact .inr (by simp [hx])

theorem tryEquations_visited {attempt : Nat → Seek Float} {equation : Nat} {s : Search}
    (h : equation ∈ s.visited) (rest : List Nat) :
    tryEquations attempt (equation :: rest) s = tryEquations attempt rest s := by
  rw [tryEquations]
  exact if_pos (Search.hasVisited_iff.2 h)

theorem tryEquations_none {attempt : Nat → Seek Float} {equation : Nat} {s s' : Search}
    (h : equation ∉ s.visited) (hattempt : attempt equation s = (none, s')) (rest : List Nat) :
    tryEquations attempt (equation :: rest) s = tryEquations attempt rest s' := by
  rw [tryEquations, hattempt]
  exact if_neg fun hvisited => h (Search.hasVisited_iff.1 hvisited)

theorem tryEquations_some {attempt : Nat → Seek Float} {equation : Nat} {s s' : Search} {x : Float}
    (h : equation ∉ s.visited) (hattempt : attempt equation s = (some x, s')) (rest : List Nat) :
    tryEquations attempt (equation :: rest) s = (some (x, equation), s') := by
  rw [tryEquations, hattempt]
  exact if_neg fun hvisited => h (Search.hasVisited_iff.1 hvisited)

/-- The equations of a quantity, tried at a depth of the search. -/
def expand (net : Network) (fuel depth id : Nat) : Seek (Float × Nat) := fun s =>
  tryEquations (fun equation => tryEquation net (net.seek fuel (depth + 2)) equation id)
    (net.linksOf id) (s.visit id)

theorem seek_known {fuel depth id : Nat} {s : Search} {x : Float}
    (h : net.known? s id = some x) : net.seek (fuel + 1) depth id s = (some x, s) := by
  rw [Network.seek, h]

theorem seek_visited {fuel depth id : Nat} {s : Search} (h : net.known? s id = none)
    (hid : id ∈ s.visited) : net.seek (fuel + 1) depth id s = (none, s) := by
  rw [Network.seek, h]
  exact if_pos (Search.hasVisited_iff.2 hid)

theorem seek_tooDeep {fuel depth id : Nat} {s : Search} (h : net.known? s id = none)
    (hid : id ∉ s.visited) (hdepth : net.settings.maxRecursionDepth < depth) :
    net.seek (fuel + 1) depth id s =
      (none, s.tell (.tooDeep net.settings.maxRecursionDepth (net.nameOf id))) := by
  rw [Network.seek, h]
  exact (if_neg fun hvisited => hid (Search.hasVisited_iff.1 hvisited)).trans (if_pos hdepth)

theorem seek_fresh {fuel depth id : Nat} {s : Search} (h : net.known? s id = none)
    (hid : id ∉ s.visited) (hdepth : depth ≤ net.settings.maxRecursionDepth) :
    net.seek (fuel + 1) depth id s =
      match net.expand fuel depth id s with
      | (none, s) => (none, s)
      | (some (x, equation), s) =>
          (some x, (s.tell (.found (net.nameOf id) x (net.nameOf equation))).derive id x) := by
  rw [Network.seek, h]
  exact (if_neg fun hvisited => hid (Search.hasVisited_iff.1 hvisited)).trans
    (if_neg (Nat.not_lt.2 hdepth))

theorem seek_none {fuel depth id : Nat} {s s' : Search} (h : net.known? s id = none)
    (hid : id ∉ s.visited) (hdepth : depth ≤ net.settings.maxRecursionDepth)
    (hexpand : net.expand fuel depth id s = (none, s')) :
    net.seek (fuel + 1) depth id s = (none, s') := by
  rw [seek_fresh h hid hdepth, hexpand]

theorem seek_some {fuel depth id equation : Nat} {x : Float} {s s' : Search}
    (h : net.known? s id = none) (hid : id ∉ s.visited)
    (hdepth : depth ≤ net.settings.maxRecursionDepth)
    (hexpand : net.expand fuel depth id s = (some (x, equation), s')) :
    net.seek (fuel + 1) depth id s =
      (some x, (s'.tell (.found (net.nameOf id) x (net.nameOf equation))).derive id x) := by
  rw [seek_fresh h hid hdepth, hexpand]

/-! ## A search goes forward -/

section Forward

variable (hseek : ∀ (id : Nat) (s : Search), s.Extends (seek id s).2)
include hseek

theorem look_extends (id : Nat) (s : Search) : s.Extends (net.look seek id s).2 := by
  cases hknown : net.known? s id with
  | some x =>
    rw [look_known hknown]
    exact .refl s
  | none =>
    by_cases hid : id ∈ s.visited
    · rw [look_visited hknown hid]
      exact .refl s
    · rw [look_seek hknown hid]
      exact hseek id s

theorem gather_extends (equation : String) {ids : List Nat} :
    ∀ s : Search, s.Extends (gather net seek equation ids s).2 := by
  induction ids with
  | nil => exact fun s => .refl s
  | cons id ids ih =>
    intro s
    have hlook : s.Extends (net.look seek id s).2 := look_extends hseek id s
    rcases hfound : net.look seek id s with ⟨_ | x, s'⟩
    · rw [gather_cons_none hfound]
      rw [hfound] at hlook
      exact hlook.trans (.tell s' _)
    · rw [gather_cons_some hfound]
      rw [hfound] at hlook
      exact hlook.trans (ih s')

omit hseek in
theorem conclude_extends (equation quantity : String) (solution : Expr)
    (pairs : List (String × Float)) (s : Search) :
    s.Extends (conclude equation quantity solution pairs s).2 := by
  rcases conclude_cases equation quantity solution pairs s with
    ⟨error, -, h⟩ | ⟨x, -, ⟨-, h⟩ | h⟩
  · rw [h]
    exact .tell s _
  · rw [h]
    exact .refl s
  · rw [h]
    exact .tell s _

theorem tryEquation_extends (equation target : Nat) (s : Search) :
    (s.visit equation).Extends (tryEquation net seek equation target s).2 := by
  cases hbody : net.bodyOf? equation with
  | none =>
    have htry : tryEquation net seek equation target s = (none, s.visit equation) := by
      simp only [tryEquation, hbody]
    rw [htry]
    exact .refl _
  | some body =>
    have henter := net.enter_extends equation target body s
    cases hsolve : body.solve net.settings.maxRewriteSteps (net.nameOf target) with
    | error error =>
      rw [tryEquation_error s hbody hsolve]
      exact henter.trans (.tell _ _)
    | ok solution =>
      have hgather : (s.visit equation).Extends
          (net.gatherOthers seek equation target body s).2 :=
        henter.trans (gather_extends hseek (net.nameOf equation) _)
      rcases hgathered : net.gatherOthers seek equation target body s with ⟨_ | pairs, s'⟩
      · rw [tryEquation_stalled hbody hsolve hgathered]
        rw [hgathered] at hgather
        exact hgather
      · rw [tryEquation_gathered hbody hsolve hgathered]
        rw [hgathered] at hgather
        exact hgather.trans (conclude_extends _ _ _ _ s')

end Forward

theorem tryEquations_extends {attempt : Nat → Seek Float}
    (hattempt : ∀ (equation : Nat) (s : Search), (s.visit equation).Extends (attempt equation s).2)
    {equations : List Nat} : ∀ s : Search, s.Extends (tryEquations attempt equations s).2 := by
  induction equations with
  | nil => exact fun s => .refl s
  | cons equation rest ih =>
    intro s
    by_cases hvisited : equation ∈ s.visited
    · rw [tryEquations_visited hvisited]
      exact ih s
    · have hfirst := (Search.Extends.visit s equation).trans (hattempt equation s)
      rcases htried : attempt equation s with ⟨_ | x, s'⟩
      · rw [tryEquations_none hvisited htried]
        rw [htried] at hfirst
        exact hfirst.trans (ih s')
      · rw [tryEquations_some hvisited htried]
        rw [htried] at hfirst
        exact hfirst

/-- **A search only goes forward.** -/
theorem seek_extends {fuel : Nat} : ∀ (depth id : Nat) (s : Search),
    s.Extends (net.seek fuel depth id s).2 := by
  induction fuel with
  | zero => exact fun _ _ s => .refl s
  | succ fuel ih =>
    intro depth id s
    cases hknown : net.known? s id with
    | some x =>
      rw [seek_known hknown]
      exact .refl s
    | none =>
      by_cases hid : id ∈ s.visited
      · rw [seek_visited hknown hid]
        exact .refl s
      · rcases Nat.lt_or_ge net.settings.maxRecursionDepth depth with hdepth | hdepth
        · rw [seek_tooDeep hknown hid hdepth]
          exact .tell s _
        · have hexpand : (s.visit id).Extends (net.expand fuel depth id s).2 :=
            tryEquations_extends
              (fun equation s => tryEquation_extends (ih (depth + 2)) equation id s) (s.visit id)
          rcases hfound : net.expand fuel depth id s with ⟨_ | ⟨x, equation⟩, s'⟩
          · rw [seek_none hknown hid hdepth hfound]
            rw [hfound] at hexpand
            exact (Search.Extends.visit s id).trans hexpand
          · rw [seek_some hknown hid hdepth hfound]
            rw [hfound] at hexpand
            have hnone : s'.derived.lookup id = none := by
              rw [hexpand.frozen id (List.mem_cons_self ..)]
              exact (Option.or_eq_none_iff.1 hknown).2
            have hforward := (Search.Extends.visit s id).trans hexpand
            exact (hforward.trans (.tell s' _)).derive x hid hnone

/-! ## Numbers that are known -/

/-- The numbers gathered are those of the quantities asked for. -/
theorem gather_names (equation : String) {ids : List Nat} :
    ∀ {s : Search} {pairs : List (String × Float)},
      (gather net seek equation ids s).1 = some pairs →
      pairs.map Prod.fst = ids.map net.nameOf := by
  induction ids with
  | nil =>
    intro s pairs h
    cases h
    rfl
  | cons id ids ih =>
    intro s pairs h
    rcases hfound : net.look seek id s with ⟨_ | x, s'⟩
    · rw [gather_cons_none hfound] at h
      exact absurd h (by simp)
    · rw [gather_cons_some hfound] at h
      obtain ⟨tail, htail, rfl⟩ := Option.map_eq_some_iff.1 h
      rw [List.map_cons, List.map_cons, ih htail]

/-- Numbers that are known are gathered without a search. -/
theorem gather_known (equation : String) {ids : List Nat} {s : Search} :
    (∀ id ∈ ids, ∃ x, net.known? s id = some x) →
      ∃ pairs, gather net seek equation ids s = (some pairs, s) := by
  induction ids with
  | nil => exact fun _ => ⟨[], gather_nil equation s⟩
  | cons id ids ih =>
    intro h
    obtain ⟨⟨x, hx⟩, h⟩ := List.forall_mem_cons.1 h
    obtain ⟨pairs, hpairs⟩ := ih h
    refine ⟨(net.nameOf id, x) :: pairs, ?_⟩
    rw [gather_cons_some (look_known hx), hpairs]
    rfl

theorem known?_eq_none_iff {s : Search} {id : Nat} :
    net.known? s id = none ↔ net.numberOf? id = none ∧ s.derived.lookup id = none :=
  Option.or_eq_none_iff

/-- A number that is known stays known. -/
theorem known?_extends {s s' : Search} (h : s.Extends s') {id : Nat} {x : Float}
    (hx : net.known? s id = some x) : net.known? s' id = some x := by
  rcases Option.or_eq_some_iff.1 hx with hx | ⟨hnone, hx⟩
  · exact Option.or_eq_some_iff.2 (.inl hx)
  · exact Option.or_eq_some_iff.2 (.inr ⟨hnone, h.kept id x hx⟩)

/-- A node that was visited without a number stays without. -/
theorem known?_frozen {s s' : Search} (h : s.Extends s') {id : Nat} (hid : id ∈ s.visited) :
    net.known? s' id = net.known? s id := by
  rw [known?, known?, h.frozen id hid]

/-- What the search for a quantity does: it goes forward, and a number that it finds is known from
then on. -/
structure Seeks (net : Network) (seek : Nat → Seek Float) : Prop where
  forward : ∀ (id : Nat) (s : Search), s.Extends (seek id s).2
  known : ∀ {id : Nat} {s : Search} {x : Float}, (seek id s).1 = some x →
    net.known? (seek id s).2 id = some x

theorem Seeks.look_known (hseek : net.Seeks seek) {id : Nat} {s : Search} {x : Float}
    (hx : (net.look seek id s).1 = some x) : net.known? (net.look seek id s).2 id = some x := by
  cases hknown : net.known? s id with
  | some y =>
    rw [Network.look_known hknown] at hx ⊢
    exact hknown.trans hx
  | none =>
    by_cases hvisited : id ∈ s.visited
    · rw [look_visited hknown hvisited] at hx
      exact absurd hx (by simp)
    · rw [look_seek hknown hvisited] at hx ⊢
      exact hseek.known hx

theorem seeks_seek (fuel depth : Nat) : net.Seeks (net.seek fuel depth) := by
  refine ⟨seek_extends depth, ?_⟩
  intro id s x hx
  cases fuel with
  | zero => exact absurd hx (by simp [Network.seek])
  | succ fuel =>
    cases hknown : net.known? s id with
    | some y =>
      rw [seek_known hknown] at hx ⊢
      exact hknown.trans hx
    | none =>
      by_cases hvisited : id ∈ s.visited
      · rw [seek_visited hknown hvisited] at hx
        exact absurd hx (by simp)
      · rcases Nat.lt_or_ge net.settings.maxRecursionDepth depth with hdepth | hdepth
        · rw [seek_tooDeep hknown hvisited hdepth] at hx
          exact absurd hx (by simp)
        · rcases hfound : net.expand fuel depth id s with ⟨_ | ⟨y, equation⟩, s'⟩
          · rw [seek_none hknown hvisited hdepth hfound] at hx
            exact absurd hx (by simp)
          · rw [seek_some hknown hvisited hdepth hfound] at hx ⊢
            obtain rfl : y = x := Option.some.inj hx
            rw [known?, (known?_eq_none_iff.1 hknown).1, Search.derived_derive,
              List.lookup_cons_self]
            rfl

end Network

end EquationNetwork
