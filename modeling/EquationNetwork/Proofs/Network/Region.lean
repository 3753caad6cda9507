import EquationNetwork.Proofs.Network.Derivability
import EquationNetwork.Proofs.Network.Search

/-!
# Where a search goes

A search walks along links, through nodes that it has not tried and that have no number stored.

* `Network.Fresh` — a node that a search may still try.
* `Network.seek_near` — **whatever a search tries is joined to where it starts** by fresh nodes.
-/

namespace EquationNetwork.Network

variable {net : Network} {seek : Nat → Seek Float}

/-- A node that was not tried and has no number stored. -/
def Fresh (net : Network) (s : Search) (id : Nat) : Prop :=
  net.numberOf? id = none ∧ id ∉ s.visited

theorem Fresh.of_extends {s s' : Search} (h : s.Extends s') {id : Nat} (hid : net.Fresh s' id) :
    net.Fresh s id :=
  ⟨hid.1, fun hmem => hid.2 (h.visited hmem)⟩

theorem Joined.of_extends {s s' : Search} (h : s.Extends s') {i j : Nat}
    (hij : net.Joined (net.Fresh s') i j) : net.Joined (net.Fresh s) i j :=
  hij.mono fun _ hid => hid.of_extends h

/-- What is asked of the search for a quantity. -/
structure SeeksNearby (net : Network) (seek : Nat → Seek Float) : Prop
    extends net.Seeks seek where
  near : ∀ {id : Nat} {s : Search}, net.IsQuantity id → ∀ n ∈ (seek id s).2.visited,
    n ∉ s.visited → net.Joined (net.Fresh s) id n

theorem look_near (hseek : net.SeeksNearby seek) {id n : Nat} {s : Search}
    (hid : net.IsQuantity id) (hn : n ∈ (net.look seek id s).2.visited) (hnew : n ∉ s.visited) :
    net.Fresh s id ∧ net.Joined (net.Fresh s) id n := by
  cases hknown : net.known? s id with
  | some x =>
    rw [look_known hknown] at hn
    exact absurd hn hnew
  | none =>
    by_cases hvisited : id ∈ s.visited
    · rw [look_visited hknown hvisited] at hn
      exact absurd hn hnew
    · rw [look_seek hknown hvisited] at hn
      exact ⟨⟨(known?_eq_none_iff.1 hknown).1, hvisited⟩, hseek.near hid n hn hnew⟩

theorem gather_near (hseek : net.SeeksNearby seek) (equation : String) {n : Nat} {ids : List Nat} :
    ∀ {s : Search}, (∀ id ∈ ids, net.IsQuantity id) →
      n ∈ (gather net seek equation ids s).2.visited → n ∉ s.visited →
      ∃ id ∈ ids, net.Fresh s id ∧ net.Joined (net.Fresh s) id n := by
  induction ids with
  | nil =>
    intro s _ hn hnew
    exact absurd hn hnew
  | cons id ids ih =>
    intro s hids hn hnew
    obtain ⟨hid, hids⟩ := List.forall_mem_cons.1 hids
    have hlook := @look_near net seek hseek id n s hid
    have hforward : s.Extends (net.look seek id s).2 := look_extends hseek.forward id s
    rcases hfound : net.look seek id s with ⟨_ | x, s'⟩
    · rw [gather_cons_none hfound] at hn
      rw [hfound] at hlook
      exact ⟨id, List.mem_cons_self .., hlook hn hnew⟩
    · rw [gather_cons_some hfound] at hn
      rw [hfound] at hlook hforward
      by_cases hs' : n ∈ s'.visited
      · exact ⟨id, List.mem_cons_self .., hlook hs' hnew⟩
      · obtain ⟨other, hother, hfresh, hjoined⟩ := ih hids hn hs'
        exact ⟨other, List.mem_cons_of_mem _ hother, hfresh.of_extends hforward,
          hjoined.of_extends hforward⟩

theorem visited_conclude (equation quantity : String) (solution : Expr)
    (pairs : List (String × Float)) (s : Search) :
    (conclude equation quantity solution pairs s).2.visited = s.visited := by
  rcases conclude_cases equation quantity solution pairs s with
    ⟨error, -, h⟩ | ⟨x, -, ⟨-, h⟩ | h⟩
  · rw [h]
    rfl
  · rw [h]
  · rw [h]
    rfl

/-- An equation leads on to its other quantities. -/
theorem tryEquation_near (hnet : net.Wired) (hseek : net.SeeksNearby seek) {equation target n : Nat}
    {body : Expr} {s : Search} (hbody : net.bodyOf? equation = some body)
    (hn : n ∈ (tryEquation net seek equation target s).2.visited) (hnew : n ∉ s.visited) :
    net.Joined (net.Fresh s) equation n := by
  have henter := (Search.Extends.visit s equation).trans (net.enter_extends equation target body s)
  -- Only the equation itself is new before its quantities are looked for.
  have hentered : n ∈ (net.enter equation target body s).visited →
      net.Joined (net.Fresh s) equation n := by
    intro hmem
    rcases List.mem_cons.1 hmem with rfl | hmem
    · exact .refl
    · exact absurd hmem hnew
  cases hsolve : body.solve net.settings.maxRewriteSteps (net.nameOf target) with
  | error error =>
    rw [tryEquation_error s hbody hsolve] at hn
    exact hentered hn
  | ok solution =>
    have hgathered : n ∈ (net.gatherOthers seek equation target body s).2.visited := by
      rcases hfound : net.gatherOthers seek equation target body s with ⟨_ | pairs, s'⟩
      · rw [tryEquation_stalled hbody hsolve hfound] at hn
        exact hn
      · rw [tryEquation_gathered hbody hsolve hfound, visited_conclude] at hn
        exact hn
    by_cases hmem : n ∈ (net.enter equation target body s).visited
    · exact hentered hmem
    · have hquantities : ∀ id ∈ net.others equation target, net.IsQuantity id :=
        fun id hid => hnet.isQuantity_of_link hbody (mem_others.1 hid).1
      obtain ⟨id, hid, hfresh, hjoined⟩ := gather_near hseek _ hquantities hgathered hmem
      exact .head (mem_others.1 hid).1 (hfresh.of_extends henter) (hjoined.of_extends henter)

theorem tryEquations_near {attempt : Nat → Seek Float} {target n : Nat}
    (hforward : ∀ (equation : Nat) (s : Search), (s.visit equation).Extends (attempt equation s).2)
    (hattempt : ∀ {equation : Nat} {s : Search}, equation ∈ net.linksOf target →
      n ∈ (attempt equation s).2.visited → n ∉ s.visited →
      net.numberOf? equation = none ∧ net.Joined (net.Fresh s) equation n)
    {equations : List Nat} : ∀ {s : Search}, (∀ e ∈ equations, e ∈ net.linksOf target) →
      n ∈ (tryEquations attempt equations s).2.visited → n ∉ s.visited →
      net.Joined (net.Fresh s) target n := by
  induction equations with
  | nil =>
    intro s _ hn hnew
    exact absurd hn hnew
  | cons equation rest ih =>
    intro s hlinks hn hnew
    obtain ⟨hlink, hlinks⟩ := List.forall_mem_cons.1 hlinks
    by_cases hvisited : equation ∈ s.visited
    · rw [tryEquations_visited hvisited] at hn
      exact ih hlinks hn hnew
    · have hfirst := @hattempt equation s hlink
      have hfirst_forward := (Search.Extends.visit s equation).trans (hforward equation s)
      rcases htried : attempt equation s with ⟨_ | x, s'⟩
      · rw [tryEquations_none hvisited htried] at hn
        rw [htried] at hfirst hfirst_forward
        by_cases hs' : n ∈ s'.visited
        · obtain ⟨hnone, hjoined⟩ := hfirst hs' hnew
          exact .head hlink ⟨hnone, hvisited⟩ hjoined
        · exact (ih hlinks hn hs').of_extends hfirst_forward
      · rw [tryEquations_some hvisited htried] at hn
        rw [htried] at hfirst
        obtain ⟨hnone, hjoined⟩ := hfirst hn hnew
        exact .head hlink ⟨hnone, hvisited⟩ hjoined

/-- **Whatever a search tries is joined to where it starts.** -/
theorem seek_near (hnet : net.Wired) {fuel : Nat} :
    ∀ depth, net.SeeksNearby (net.seek fuel depth) := by
  induction fuel with
  | zero => exact fun depth => ⟨seeks_seek 0 depth, fun _ n hn hnew => absurd hn hnew⟩
  | succ fuel ih =>
    refine fun depth => ⟨seeks_seek (fuel + 1) depth, ?_⟩
    intro id s hid n hn hnew
    cases hknown : net.known? s id with
    | some x =>
      rw [seek_known hknown] at hn
      exact absurd hn hnew
    | none =>
      by_cases hvisited : id ∈ s.visited
      · rw [seek_visited hknown hvisited] at hn
        exact absurd hn hnew
      · rcases Nat.lt_or_ge net.settings.maxRecursionDepth depth with hdepth | hdepth
        · rw [seek_tooDeep hknown hvisited hdepth] at hn
          exact absurd hn hnew
        · have hexpanded : n ∈ (net.expand fuel depth id s).2.visited := by
            rcases hfound : net.expand fuel depth id s with ⟨_ | ⟨x, equation⟩, s'⟩
            · rw [seek_none hknown hvisited hdepth hfound] at hn
              exact hn
            · rw [seek_some hknown hvisited hdepth hfound] at hn
              exact hn
          rcases eq_or_ne n id with rfl | hne
          · exact .refl
          · refine Joined.of_extends (.visit s id) (tryEquations_near
              (fun equation s => tryEquation_extends (seek_extends (depth + 2)) equation id s) ?_
              (fun _ he => he) hexpanded (List.not_mem_cons_of_ne_of_not_mem hne hnew))
            intro equation s hlink hn hnew
            obtain ⟨body, hbody⟩ := hnet.exists_body hid hlink
            exact ⟨numberOf?_of_bodyOf? hbody, tryEquation_near hnet (ih _) hbody hn hnew⟩

end EquationNetwork.Network
