import EquationNetwork.Proofs.Expr.Evaluation
import EquationNetwork.Proofs.Network.Descent

/-!
# Two searches side by side

Two networks whose nodes can be matched answer a request alike: whatever one search does, the other
does to the nodes that match.  The places of the nodes do not matter, nor does a node that matches
none or the number stored for a numeral, and of two limits neither matters if both are out of reach.

* `Network.SameFor` — two numbers come to the same for a quantity of a name.
* `Network.Alike` — the nodes of two networks match.
* `Network.Abreast` — two searches have done the same to nodes that match.
* `Network.tryEquation_abreast`, `Network.tryEquations_abreast` — the parts of a search.
* `Network.seek_abreast` — **the two searches stay side by side.**
* `Network.request_abreast` — so the answers are the same, and the events.
-/

namespace EquationNetwork.Network

/-! ## Networks that match -/

/-- Two numbers come to the same for a quantity of this name: they are equal, or the name is a
numeral, which has its own value wherever it stands in an expression. -/
def SameFor (name : String) (x x' : Float) : Prop :=
  (Decimal.numeral? name).isSome = true ∨ x' = x

theorem sameFor_of_eq {name : String} {number number' : Option Float} (h : number' = number) :
    Option.Rel (SameFor name) number number' := by
  subst h
  cases number' with
  | none => exact .none
  | some x => exact .some (.inr rfl)

/-- Nodes of two networks match: they have the same name and expression, numbers that come to the
same, and, where there is no number, links to nodes that match, in the same order.  What lies behind
a number is never looked at. -/
structure Alike (R : Nat → Nat → Prop) (net net' : Network) : Prop where
  wired : net.Wired
  wired' : net'.Wired
  maxRewriteSteps : net'.settings.maxRewriteSteps = net.settings.maxRewriteSteps
  /-- No node matches two. -/
  unique : ∀ {i j i' j' : Nat}, R i i' → R j j' → (i = j ↔ i' = j')
  isQuantity : ∀ {i i' : Nat}, R i i' → (net'.IsQuantity i' ↔ net.IsQuantity i)
  nameOf : ∀ {i i' : Nat}, R i i' → net'.nameOf i' = net.nameOf i
  numberOf? : ∀ {i i' : Nat}, R i i' →
    Option.Rel (SameFor (net.nameOf i)) (net.numberOf? i) (net'.numberOf? i')
  bodyOf? : ∀ {i i' : Nat}, R i i' → net'.bodyOf? i' = net.bodyOf? i
  links : ∀ {i i' : Nat}, R i i' → net.numberOf? i = none →
    List.Forall₂ R (net.linksOf i) (net'.linksOf i')

/-- The depth of the search is limited alike, or not at all. -/
def LimitedAlike (net net' : Network) : Prop :=
  net'.settings.maxRecursionDepth = net.settings.maxRecursionDepth ∨
    (2 * (net.unknowns.length - 1) ≤ net.settings.maxRecursionDepth ∧
      2 * (net'.unknowns.length - 1) ≤ net'.settings.maxRecursionDepth)

/-- Two searches have done the same to nodes that match, and the quantities in hand were tried. -/
structure Abreast (R : Nat → Nat → Prop) (inHand inHand' : List Nat) (s s' : Search) : Prop where
  visited : List.Forall₂ R s.visited s'.visited
  derived : List.Forall₂ (fun p p' => R p.1 p'.1 ∧ p.2 = p'.2) s.derived s'.derived
  events : s'.events = s.events
  tried : inHand ⊆ s.visited
  tried' : inHand' ⊆ s'.visited

/-- Two parts of a search found the same and are side by side. -/
def Agree {α : Type} (R : Nat → Nat → Prop) (inHand inHand' : List Nat)
    (found found' : Option α × Search) : Prop :=
  found'.1 = found.1 ∧ Abreast R inHand inHand' found.2 found'.2

/-- Two parts of a search found nothing, or things that come to the same, and are side by side. -/
def AgreeUpTo {α : Type} (same : α → α → Prop) (R : Nat → Nat → Prop) (inHand inHand' : List Nat)
    (found found' : Option α × Search) : Prop :=
  Option.Rel same found.1 found'.1 ∧ Abreast R inHand inHand' found.2 found'.2

variable {R : Nat → Nat → Prop} {net net' : Network} {inHand inHand' : List Nat} {s s' : Search}
  {i i' : Nat}

theorem eq_none_of_rel {α : Type} {same : α → α → Prop} {found : Option α}
    (h : Option.Rel same none found) : found = none := by
  cases h
  rfl

theorem exists_of_rel {α : Type} {same : α → α → Prop} {x : α} {found : Option α}
    (h : Option.Rel same (some x) found) : ∃ x', found = some x' ∧ same x x' := by
  cases h with
  | some hsame => exact ⟨_, rfl, hsame⟩

/-- What one part found, the other found, too. -/
theorem Agree.exists_eq {α : Type} {found found' : Option α × Search}
    (h : Agree R inHand inHand' found found') {x : Option α} {t : Search}
    (hfound : found = (x, t)) : ∃ t', found' = (x, t') ∧ Abreast R inHand inHand' t t' := by
  subst hfound
  exact ⟨found'.2, Prod.ext h.1 rfl, h.2⟩

/-! ## States side by side -/

/-- Of lists that match, nodes that match are members alike. -/
theorem Alike.mem_iff (h : Alike R net net') (hi : R i i') {ids ids' : List Nat}
    (hids : List.Forall₂ R ids ids') : i' ∈ ids' ↔ i ∈ ids := by
  induction hids with
  | nil => simp
  | cons hj _ ih => rw [List.mem_cons, List.mem_cons, ih, h.unique hi hj]

/-- Of lists that match, nodes that match have the same number. -/
theorem Alike.lookup_eq (h : Alike R net net') (hi : R i i') {pairs pairs' : List (Nat × Float)}
    (hpairs : List.Forall₂ (fun p p' => R p.1 p'.1 ∧ p.2 = p'.2) pairs pairs') :
    pairs'.lookup i' = pairs.lookup i := by
  induction hpairs with
  | nil => rfl
  | @cons p p' _ _ hp _ ih =>
    obtain ⟨j, x⟩ := p
    obtain ⟨j', x'⟩ := p'
    obtain ⟨hj, rfl⟩ : R j j' ∧ x = x' := hp
    rw [List.lookup_cons, List.lookup_cons, ih]
    rcases eq_or_ne i j with rfl | hne
    · obtain rfl := (h.unique hi hj).1 rfl
      simp
    · have hne' : i' ≠ j' := fun heq => hne ((h.unique hi hj).2 heq)
      rw [beq_eq_false_iff_ne.2 hne, beq_eq_false_iff_ne.2 hne']

theorem abreast_start : Abreast R [] [] .start .start :=
  ⟨.nil, .nil, rfl, List.nil_subset _, List.nil_subset _⟩

namespace Abreast

theorem visit (h : Abreast R inHand inHand' s s') (hi : R i i') :
    Abreast R (i :: inHand) (i' :: inHand') (s.visit i) (s'.visit i') :=
  ⟨.cons hi h.visited, h.derived, h.events, List.cons_subset_cons i h.tried,
    List.cons_subset_cons i' h.tried'⟩

theorem tellAll (h : Abreast R inHand inHand' s s') (events : List Event) :
    Abreast R inHand inHand' (s.tellAll events) (s'.tellAll events) :=
  ⟨h.visited, h.derived, congrArg (· ++ events) h.events, h.tried, h.tried'⟩

theorem tell (h : Abreast R inHand inHand' s s') (event : Event) :
    Abreast R inHand inHand' (s.tell event) (s'.tell event) := h.tellAll [event]

theorem derive (h : Abreast R inHand inHand' s s') (hi : R i i') (x : Float) :
    Abreast R inHand inHand' (s.derive i x) (s'.derive i' x) :=
  ⟨h.visited, .cons ⟨hi, rfl⟩ h.derived, h.events, h.tried, h.tried'⟩

/-- A quantity is no longer in hand. -/
theorem drop (h : Abreast R (i :: inHand) (i' :: inHand') s s') : Abreast R inHand inHand' s s' :=
  ⟨h.visited, h.derived, h.events, List.subset_of_cons_subset h.tried,
    List.subset_of_cons_subset h.tried'⟩

end Abreast

/-- Nodes that match are tried alike. -/
theorem Alike.mem_visited (h : Alike R net net') (hs : Abreast R inHand inHand' s s')
    (hi : R i i') : i' ∈ s'.visited ↔ i ∈ s.visited := h.mem_iff hi hs.visited

/-- Where one of two nodes that match has no number, the other has none. -/
theorem Alike.numberOf?_none (h : Alike R net net') (hi : R i i')
    (hnone : net.numberOf? i = none) : net'.numberOf? i' = none := by
  have hrel := h.numberOf? hi
  rw [hnone] at hrel
  exact eq_none_of_rel hrel

/-- The numbers of nodes that match, stored or derived, come to the same. -/
theorem Alike.known? (h : Alike R net net') (hs : Abreast R inHand inHand' s s') (hi : R i i') :
    Option.Rel (SameFor (net.nameOf i)) (net.known? s i) (net'.known? s' i') := by
  have hrel := h.numberOf? hi
  rw [Network.known?, Network.known?, h.lookup_eq hi hs.derived]
  generalize net.numberOf? i = number, net'.numberOf? i' = number' at hrel ⊢
  cases hrel with
  | some hsame => exact .some hsame
  | none => exact sameFor_of_eq rfl

theorem Alike.known?_none (h : Alike R net net') (hs : Abreast R inHand inHand' s s')
    (hi : R i i') (hnone : net.known? s i = none) : net'.known? s' i' = none := by
  have hrel := h.known? hs hi
  rw [hnone] at hrel
  exact eq_none_of_rel hrel

theorem Alike.unknown (h : Alike R net net') (hi : R i i') (hunknown : net.Unknown i) :
    net'.Unknown i' :=
  ⟨(h.isQuantity hi).2 hunknown.1, h.numberOf?_none hi hunknown.2⟩

/-- The other quantities of equations that match do so, too. -/
theorem Alike.others (h : Alike R net net') {equation equation' target target' : Nat}
    (hequation : R equation equation') (htarget : R target target')
    (hnone : net.numberOf? equation = none) :
    List.Forall₂ R (net.others equation target) (net'.others equation' target') := by
  refine List.rel_filter ?_ (h.links hequation hnone)
  intro i i' hi
  have hsame := h.unique hi htarget
  simp only [bne_iff_ne, ne_eq, hsame]

/-! ## Numbers that are gathered -/

/-- Two numbers gathered for one name come to the same. -/
def SamePair (pair pair' : String × Float) : Prop :=
  pair'.1 = pair.1 ∧ SameFor pair.1 pair.2 pair'.2

/-- Numbers that come to the same give the same values to all names but numerals. -/
theorem ofList_eq_of_samePair {pairs pairs' : List (String × Float)}
    (hpairs : List.Forall₂ SamePair pairs pairs') {name : String}
    (hname : Decimal.numeral? name = none) :
    Valuation.ofList pairs' name = Valuation.ofList pairs name := by
  unfold Valuation.ofList
  induction hpairs with
  | nil => rfl
  | @cons pair pair' _ _ hpair _ ih =>
    obtain ⟨hsame, hnumber⟩ := hpair
    rw [List.lookup_cons, List.lookup_cons, ih, hsame]
    rcases eq_or_ne name pair.1 with rfl | hne
    · obtain hnumeral | heq := hnumber
      · exact absurd hnumeral (by simp [hname])
      · rw [heq]
    · rw [beq_eq_false_iff_ne.2 hne]

/-! ## The parts of a search -/

/-- The searches for a quantity that was not tried before stay side by side. -/
def SeeksAbreast (R : Nat → Nat → Prop) (inHand inHand' : List Nat) (net : Network)
    (seek seek' : Nat → Seek Float) : Prop :=
  ∀ {i i' : Nat} {s s' : Search}, R i i' → net.IsQuantity i → net.known? s i = none →
    i ∉ s.visited → Abreast R inHand inHand' s s' →
    Agree R inHand inHand' (seek i s) (seek' i' s')

section Parts

variable {seek seek' : Nat → Seek Float} (halike : Alike R net net')
  (hseek : SeeksAbreast R inHand inHand' net seek seek')
include halike hseek

theorem look_abreast (hi : R i i') (hquantity : net.IsQuantity i)
    (hs : Abreast R inHand inHand' s s') :
    AgreeUpTo (SameFor (net.nameOf i)) R inHand inHand' (net.look seek i s)
      (net'.look seek' i' s') := by
  have hsame := halike.known? hs hi
  cases hknown : net.known? s i with
  | some x =>
    rw [hknown] at hsame
    obtain ⟨x', hknown', hsame⟩ := exists_of_rel hsame
    rw [look_known hknown, look_known hknown']
    exact ⟨.some hsame, hs⟩
  | none =>
    have hknown' := halike.known?_none hs hi hknown
    by_cases hvisited : i ∈ s.visited
    · rw [look_visited hknown hvisited,
        look_visited hknown' ((halike.mem_visited hs hi).2 hvisited)]
      exact ⟨.none, hs⟩
    · rw [look_seek hknown hvisited, look_seek hknown'
        fun hvisited' => hvisited ((halike.mem_visited hs hi).1 hvisited')]
      obtain ⟨hfound, hstate⟩ := hseek hi hquantity hknown hvisited hs
      exact ⟨sameFor_of_eq hfound, hstate⟩

theorem gather_abreast (equation : String) {ids ids' : List Nat} (hids : List.Forall₂ R ids ids') :
    ∀ {s s' : Search}, (∀ id ∈ ids, net.IsQuantity id) → Abreast R inHand inHand' s s' →
      AgreeUpTo (List.Forall₂ SamePair) R inHand inHand' (gather net seek equation ids s)
        (gather net' seek' equation ids' s') := by
  induction hids with
  | nil => exact fun _ hs => ⟨.some .nil, hs⟩
  | @cons i i' ids ids' hi _ ih =>
    intro s s' hquantities hs
    obtain ⟨hquantity, hquantities⟩ := List.forall_mem_cons.1 hquantities
    obtain ⟨hsame, hstate⟩ := look_abreast halike hseek hi hquantity hs
    have hname := halike.nameOf hi
    rcases hfound : net.look seek i s with ⟨found, t⟩
    rcases hfound' : net'.look seek' i' s' with ⟨found', t'⟩
    rw [hfound, hfound'] at hsame hstate
    cases hsame with
    | none =>
      rw [gather_cons_none hfound, gather_cons_none hfound', hname]
      exact ⟨.none, hstate.tell _⟩
    | some hsame =>
      obtain ⟨hpairs, hrest⟩ := ih hquantities hstate
      rw [gather_cons_some hfound, gather_cons_some hfound', hname]
      refine ⟨?_, hrest⟩
      generalize (gather net seek equation ids t).1 = pairs,
        (gather net' seek' equation ids' t').1 = pairs' at hpairs ⊢
      cases hpairs with
      | none => exact .none
      | some hpairs => exact .some (.cons ⟨rfl, hsame⟩ hpairs)

omit halike hseek in
theorem conclude_abreast (equation quantity : String) (solution : Expr)
    {pairs pairs' : List (String × Float)} (hpairs : List.Forall₂ SamePair pairs pairs')
    (hs : Abreast R inHand inHand' s s') :
    Agree R inHand inHand' (conclude equation quantity solution pairs s)
      (conclude equation quantity solution pairs' s') := by
  have hvalue : solution.evaluate (.ofList pairs') = solution.evaluate (.ofList pairs) :=
    Expr.evaluate_congr (fun _ hname => ofList_eq_of_samePair hpairs hname) solution
  unfold conclude
  rw [hvalue]
  cases solution.evaluate (.ofList pairs) with
  | error error => exact ⟨rfl, hs.tell _⟩
  | ok x =>
    by_cases hx : x.isFinite = true
    · simp only [hx, if_true]
      exact ⟨rfl, hs⟩
    · simp only [hx]
      exact ⟨rfl, hs.tell _⟩

theorem tryEquation_abreast {equation equation' target target' : Nat} {body : Expr}
    (hequation : R equation equation') (htarget : R target target')
    (hbody : net.bodyOf? equation = some body) (hs : Abreast R inHand inHand' s s') :
    Agree R inHand inHand' (tryEquation net seek equation target s)
      (tryEquation net' seek' equation' target' s') := by
  have hname := halike.nameOf hequation
  have htarget_name := halike.nameOf htarget
  have hbody' : net'.bodyOf? equation' = some body := (halike.bodyOf? hequation).trans hbody
  have henter : Abreast R inHand inHand' (net.enter equation target body s)
      (net'.enter equation' target' body s') := by
    rw [enter, enter, hname, htarget_name, halike.maxRewriteSteps]
    exact ((hs.visit hequation).drop.tell _).tellAll _
  cases hsolve : body.solve net.settings.maxRewriteSteps (net.nameOf target) with
  | error error =>
    have hsolve' : body.solve net'.settings.maxRewriteSteps (net'.nameOf target') =
        .error error := by rw [halike.maxRewriteSteps, htarget_name, hsolve]
    rw [tryEquation_error s hbody hsolve, tryEquation_error s' hbody' hsolve', hname, htarget_name]
    exact ⟨rfl, henter.tell _⟩
  | ok solution =>
    have hsolve' : body.solve net'.settings.maxRewriteSteps (net'.nameOf target') =
        .ok solution := by rw [halike.maxRewriteSteps, htarget_name, hsolve]
    have hquantities : ∀ id ∈ net.others equation target, net.IsQuantity id :=
      fun id hid => halike.wired.isQuantity_of_link hbody (mem_others.1 hid).1
    have hgather : AgreeUpTo (List.Forall₂ SamePair) R inHand inHand'
        (net.gatherOthers seek equation target body s)
        (net'.gatherOthers seek' equation' target' body s') := by
      rw [gatherOthers, gatherOthers, hname]
      exact gather_abreast halike hseek _
        (halike.others hequation htarget (numberOf?_of_bodyOf? hbody)) hquantities henter
    obtain ⟨hpairs, hstate⟩ := hgather
    rcases hfound : net.gatherOthers seek equation target body s with ⟨found, t⟩
    rcases hfound' : net'.gatherOthers seek' equation' target' body s' with ⟨found', t'⟩
    rw [hfound, hfound'] at hpairs hstate
    cases hpairs with
    | none =>
      rw [tryEquation_stalled hbody hsolve hfound, tryEquation_stalled hbody' hsolve' hfound']
      exact ⟨rfl, hstate⟩
    | some hpairs =>
      rw [tryEquation_gathered hbody hsolve hfound, tryEquation_gathered hbody' hsolve' hfound',
        hname, htarget_name]
      exact conclude_abreast _ _ solution hpairs hstate

end Parts

theorem tryEquations_abreast (halike : Alike R net net') {attempt attempt' : Nat → Seek Float}
    {equations equations' : List Nat} (hequations : List.Forall₂ R equations equations') :
    (∀ {e e' : Nat} {s s' : Search}, e ∈ equations → R e e' → Abreast R inHand inHand' s s' →
      Agree R inHand inHand' (attempt e s) (attempt' e' s')) →
    ∀ {s s' : Search}, Abreast R inHand inHand' s s' →
      AgreeUpTo (fun found found' => found'.1 = found.1 ∧ R found.2 found'.2) R inHand inHand'
        (tryEquations attempt equations s) (tryEquations attempt' equations' s') := by
  induction hequations with
  | nil => exact fun _ _ _ hs => ⟨.none, hs⟩
  | @cons e e' rest rest' he _ ih =>
    intro hattempt s s' hs
    have hrest := @ih fun hmem => hattempt (List.mem_cons_of_mem _ hmem)
    by_cases hvisited : e ∈ s.visited
    · rw [tryEquations_visited hvisited,
        tryEquations_visited ((halike.mem_visited hs he).2 hvisited)]
      exact hrest hs
    · have hvisited' : e' ∉ s'.visited := fun h => hvisited ((halike.mem_visited hs he).1 h)
      have htry := hattempt (List.mem_cons_self ..) he hs
      rcases hfound : attempt e s with ⟨_ | x, t⟩
      · obtain ⟨t', hfound', ht⟩ := htry.exists_eq hfound
        rw [tryEquations_none hvisited hfound, tryEquations_none hvisited' hfound']
        exact hrest ht
      · obtain ⟨t', hfound', ht⟩ := htry.exists_eq hfound
        rw [tryEquations_some hvisited hfound, tryEquations_some hvisited' hfound']
        exact ⟨.some ⟨rfl, he⟩, ht⟩

/-- The equations of quantities that match are tried alike. -/
theorem expand_abreast (halike : Alike R net net') {fuel fuel' depth : Nat}
    (hseek : SeeksAbreast R (i :: inHand) (i' :: inHand') net (net.seek fuel (depth + 2))
      (net'.seek fuel' (depth + 2)))
    (hi : R i i') (hunknown : net.Unknown i) (hs : Abreast R inHand inHand' s s') :
    AgreeUpTo (fun found found' => found'.1 = found.1 ∧ R found.2 found'.2) R (i :: inHand)
      (i' :: inHand') (net.expand fuel depth i s) (net'.expand fuel' depth i' s') := by
  refine tryEquations_abreast halike (halike.links hi hunknown.2) (fun hlink he hs => ?_)
    (hs.visit hi)
  obtain ⟨body, hbody⟩ := halike.wired.exists_body hunknown.1 hlink
  exact tryEquation_abreast halike hseek he hi hbody hs

/-! ## The search -/

/-- **The two searches stay side by side**, each with fuel for what it can still try. -/
theorem seek_abreast (halike : Alike R net net') (hlimits : LimitedAlike net net') {fuel : Nat} :
    ∀ {fuel' : Nat} {inHand inHand' : List Nat}, net.Descent inHand → net'.Descent inHand' →
      inHand'.length = inHand.length → net.unknowns.length < fuel + inHand.length →
      net'.unknowns.length < fuel' + inHand'.length →
      SeeksAbreast R inHand inHand' net (net.seek fuel (2 * inHand.length))
        (net'.seek fuel' (2 * inHand.length)) := by
  induction fuel with
  | zero =>
    intro fuel' inHand inHand' hdescent _ _ hfuel _
    have hlength := hdescent.length_le halike.wired
    omega
  | succ fuel ih =>
    intro fuel' inHand inHand' hdescent hdescent' hlength hfuel hfuel' i i' s s' hi hquantity hknown
      hvisited hs
    have hunknown : net.Unknown i := ⟨hquantity, (known?_eq_none_iff.1 hknown).1⟩
    have hknown' : net'.known? s' i' = none := halike.known?_none hs hi hknown
    have hvisited' : i' ∉ s'.visited := fun h => hvisited ((halike.mem_visited hs hi).1 h)
    have hi_new : i ∉ inHand := fun hmem => hvisited (hs.tried hmem)
    have hi_new' : i' ∉ inHand' := fun hmem => hvisited' (hs.tried' hmem)
    have hdown := hdescent.cons hunknown hi_new
    have hdown' := hdescent'.cons (halike.unknown hi hunknown) hi_new'
    have hroom := hdown.length_le halike.wired
    have hroom' := hdown'.length_le halike.wired'
    simp only [List.length_cons] at hroom hroom'
    cases fuel' with
    | zero => omega
    | succ fuel' =>
      -- Limits that differ are out of reach: this quantity is one more than those in hand.
      have hsame : net'.settings.maxRecursionDepth < 2 * inHand.length ↔
          net.settings.maxRecursionDepth < 2 * inHand.length := by
        rcases hlimits with hlimits | ⟨hlimit, hlimit'⟩
        · rw [hlimits]
        · omega
      rcases Nat.lt_or_ge net.settings.maxRecursionDepth (2 * inHand.length) with hdeep | hdeep
      · have hlimit : net'.settings.maxRecursionDepth = net.settings.maxRecursionDepth := by
          rcases hlimits with hlimits | ⟨hlimit, -⟩
          · exact hlimits
          · omega
        rw [seek_tooDeep hknown hvisited hdeep, seek_tooDeep hknown' hvisited' (hsame.2 hdeep),
          hlimit, halike.nameOf hi]
        exact ⟨rfl, hs.tell _⟩
      · have hdeep' : 2 * inHand.length ≤ net'.settings.maxRecursionDepth :=
          Nat.not_lt.1 fun h => absurd (hsame.1 h) (Nat.not_lt.2 hdeep)
        have hseek : SeeksAbreast R (i :: inHand) (i' :: inHand') net
            (net.seek fuel (2 * inHand.length + 2)) (net'.seek fuel' (2 * inHand.length + 2)) :=
          ih hdown hdown' (by simp only [List.length_cons, hlength])
            (by simp only [List.length_cons]; omega) (by simp only [List.length_cons]; omega)
        obtain ⟨hfound, hstate⟩ := expand_abreast halike hseek hi hunknown hs
        rcases hexpand : net.expand fuel (2 * inHand.length) i s with ⟨found, t⟩
        rcases hexpand' : net'.expand fuel' (2 * inHand.length) i' s' with ⟨found', t'⟩
        rw [hexpand, hexpand'] at hfound hstate
        cases hfound with
        | none =>
          rw [seek_none hknown hvisited hdeep hexpand, seek_none hknown' hvisited' hdeep' hexpand']
          exact ⟨rfl, hstate.drop⟩
        | @some p p' hp =>
          obtain ⟨x, e⟩ := p
          obtain ⟨x', e'⟩ := p'
          obtain ⟨rfl, he⟩ : x' = x ∧ R e e' := hp
          rw [seek_some hknown hvisited hdeep hexpand, seek_some hknown' hvisited' hdeep' hexpand',
            halike.nameOf hi, halike.nameOf he]
          exact ⟨rfl, (hstate.drop.tell _).derive hi x'⟩

/-- A search from the start for quantities with the same number, if any, with fuel for every
quantity without a number. -/
theorem seek_start_abreast (halike : Alike R net net') (hlimits : LimitedAlike net net')
    (hi : R i i') (hquantity : net.IsQuantity i) (hnumber : net'.numberOf? i' = net.numberOf? i)
    {fuel fuel' : Nat} (hfuel : net.unknowns.length < fuel)
    (hfuel' : net'.unknowns.length < fuel') :
    Agree R [] [] (net.seek fuel 0 i .start) (net'.seek fuel' 0 i' .start) := by
  have hsame : net'.known? .start i' = net.known? .start i := by
    rw [known?, known?, hnumber]
    rfl
  cases hknown : net.known? .start i with
  | some x =>
    obtain ⟨fuel, rfl⟩ := Nat.exists_eq_succ_of_ne_zero (Nat.ne_zero_of_lt hfuel)
    obtain ⟨fuel', rfl⟩ := Nat.exists_eq_succ_of_ne_zero (Nat.ne_zero_of_lt hfuel')
    rw [seek_known hknown, seek_known (hsame.trans hknown)]
    exact ⟨rfl, abreast_start⟩
  | none =>
    exact seek_abreast halike hlimits (descent_nil net) (descent_nil net') rfl hfuel hfuel' hi
      hquantity hknown (List.not_mem_nil) abreast_start

theorem unknowns_lt_requestFuel (net : Network) : net.unknowns.length < net.requestFuel :=
  Nat.lt_succ_of_le net.unknowns_length_le

/-- **Quantities that match are answered alike**, and the same is told on the way. -/
theorem request_abreast (halike : Alike R net net') (hlimits : LimitedAlike net net')
    {name : String} (hi : R i i') (hnumber : net'.numberOf? i' = net.numberOf? i)
    (hid : net.quantityId? name = some i) (hid' : net'.quantityId? name = some i') :
    net'.request name = net.request name := by
  have hagree := seek_start_abreast halike hlimits hi (isQuantity_of_quantityId? hid).1 hnumber
    net.unknowns_lt_requestFuel net'.unknowns_lt_requestFuel
  rw [request, request, hid, hid']
  dsimp only
  rcases hseek : net.seek net.requestFuel 0 i .start with ⟨_ | x, t⟩
  · obtain ⟨t', hseek', ht⟩ := hagree.exists_eq hseek
    simp only [hseek', ht.events]
  · obtain ⟨t', hseek', ht⟩ := hagree.exists_eq hseek
    simp only [hseek', ht.events]

end EquationNetwork.Network
