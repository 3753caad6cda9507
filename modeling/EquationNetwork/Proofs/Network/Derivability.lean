import EquationNetwork.Proofs.Expr.Operands
import EquationNetwork.Proofs.Network.Consistency

/-!
# What can be derived

Which quantities of a network have a number by some chain of equations, and along which paths a
search can come to them.

* `Network.Solvable` — an equation can be solved for one of its quantities.
* `Network.Derivable` — a number is stored, or an equation gives it from numbers that are derivable.
  Some quantities may be barred; then no equation is solved for them.
* `Network.Joined` — a path of links through nodes with a given property.
* `Network.Forked` — an equation has three or more unknown leaves, two of them different.
* `Network.Untangled` — **no forked equation lies on a circle** of equations and unknown quantities,
  as far as there is a path to it from the quantity asked for.
-/

namespace EquationNetwork.Network

variable {net : Network}

/-! ## Derivable quantities -/

/-- The equation has the quantity as one leaf only and can be solved for it. -/
def Solvable (net : Network) (equation quantity : Nat) : Prop :=
  ∃ body solution, net.bodyOf? equation = some body ∧
    body.occurrences (net.nameOf quantity) = 1 ∧
    body.solve net.settings.maxRewriteSteps (net.nameOf quantity) = .ok solution

theorem solvable_iff {equation quantity : Nat} {body : Expr}
    (hbody : net.bodyOf? equation = some body) :
    net.Solvable equation quantity ↔ body.occurrences (net.nameOf quantity) = 1 ∧
      ∃ solution, body.solve net.settings.maxRewriteSteps (net.nameOf quantity) = .ok solution := by
  constructor
  · rintro ⟨body', solution, hbody', hone, hsolve⟩
    obtain rfl : body = body' := Option.some.inj (hbody.symm.trans hbody')
    exact ⟨hone, solution, hsolve⟩
  · rintro ⟨hone, solution, hsolve⟩
    exact ⟨body, solution, hbody, hone, hsolve⟩

instance (net : Network) (equation quantity : Nat) : Decidable (net.Solvable equation quantity) :=
  match hbody : net.bodyOf? equation with
  | none => .isFalse fun ⟨_, _, h, _⟩ => absurd h (by simp [hbody])
  | some body =>
      match hsolve : body.solve net.settings.maxRewriteSteps (net.nameOf quantity) with
      | .error _ => .isFalse fun h => by simpa [hsolve] using (solvable_iff hbody).1 h
      | .ok _ =>
          decidable_of_iff (body.occurrences (net.nameOf quantity) = 1) <| by
            simp [solvable_iff hbody, hsolve]

/-- The quantities that have a number stored, or that an equation gives from derivable ones.  No
equation is solved for a barred quantity. -/
inductive Derivable (net : Network) (barred : List Nat) : Nat → Prop where
  | stored {id : Nat} (h : (net.numberOf? id).isSome = true) : Derivable net barred id
  | solved {id equation : Nat} (hbarred : id ∉ barred) (hlink : equation ∈ net.linksOf id)
      (hsolvable : net.Solvable equation id)
      (h : ∀ z ∈ net.linksOf equation, z ≠ id → Derivable net barred z) : Derivable net barred id

namespace Derivable

variable {barred barred' : List Nat}

/-- What is derivable stays so when less is barred. -/
theorem mono (hsub : barred ⊆ barred') {id : Nat} (h : net.Derivable barred' id) :
    net.Derivable barred id := by
  induction h with
  | stored h => exact .stored h
  | solved hbarred hlink hsolvable _ ih =>
    exact .solved (fun hmem => hbarred (hsub hmem)) hlink hsolvable ih

/-- A barred quantity without a number is not derivable. -/
theorem not_of_mem {id : Nat} (hid : id ∈ barred) (hnone : net.numberOf? id = none) :
    ¬ net.Derivable barred id := by
  intro h
  cases h with
  | stored h => exact absurd h (by simp [hnone])
  | solved hbarred => exact hbarred hid

end Derivable

/-- The equation is of no use for the quantity: it cannot be solved for it, or one of its other
quantities is not derivable. -/
def Blocked (net : Network) (barred : List Nat) (equation quantity : Nat) : Prop :=
  net.Solvable equation quantity →
    ∃ z ∈ net.linksOf equation, z ≠ quantity ∧ ¬ net.Derivable barred z

theorem Blocked.mono {barred barred' : List Nat}
    (hsub : ∀ z, net.Derivable barred' z → net.Derivable barred z) {equation quantity : Nat}
    (h : net.Blocked barred equation quantity) : net.Blocked barred' equation quantity := by
  intro hsolvable
  obtain ⟨z, hz, hne, hnot⟩ := h hsolvable
  exact ⟨z, hz, hne, fun hderivable => hnot (hsub z hderivable)⟩

/-- **Barring a quantity that no equation gives changes nothing.**  The equations of the quantity
are only looked at where it is barred, so that it cannot be used to derive itself. -/
theorem derivable_cons {barred : List Nat} {id : Nat}
    (hblocked : ∀ equation ∈ net.linksOf id, net.Blocked (id :: barred) equation id) {z : Nat}
    (h : net.Derivable barred z) : net.Derivable (id :: barred) z := by
  induction h with
  | stored h => exact .stored h
  | @solved z equation hbarred hlink hsolvable _ ih =>
    rcases eq_or_ne z id with rfl | hne
    · obtain ⟨other, hother, hne, hnot⟩ := hblocked equation hlink hsolvable
      exact absurd (ih other hother hne) hnot
    · exact .solved (List.not_mem_cons_of_ne_of_not_mem hne hbarred) hlink hsolvable ih

/-- A quantity without a number that no equation gives is not derivable. -/
theorem not_derivable_of_blocked {barred : List Nat} {id : Nat} (hnone : net.numberOf? id = none)
    (hblocked : ∀ equation ∈ net.linksOf id, net.Blocked (id :: barred) equation id) :
    ¬ net.Derivable barred id :=
  fun h => Derivable.not_of_mem (List.mem_cons_self ..) hnone (derivable_cons hblocked h)

/-! ## Paths -/

/-- There is a path of links from one node to another, and every node on it but the first has the
property. -/
def Joined (net : Network) (p : Nat → Prop) : Nat → Nat → Prop :=
  Relation.ReflTransGen fun i j => j ∈ net.linksOf i ∧ p j

namespace Joined

variable {p q : Nat → Prop}

theorem mono (hpq : ∀ id, p id → q id) {i j : Nat} (h : net.Joined p i j) : net.Joined q i j :=
  Relation.ReflTransGen.mono (fun _ k hstep => ⟨hstep.1, hpq k hstep.2⟩) _ _ h

theorem trans {i j k : Nat} (h : net.Joined p i j) (h' : net.Joined p j k) : net.Joined p i k :=
  Relation.ReflTransGen.trans h h'

theorem tail {i j k : Nat} (h : net.Joined p i j) (hlink : k ∈ net.linksOf j) (hk : p k) :
    net.Joined p i k :=
  Relation.ReflTransGen.tail h ⟨hlink, hk⟩

theorem head {i j k : Nat} (hlink : j ∈ net.linksOf i) (hj : p j) (h : net.Joined p j k) :
    net.Joined p i k :=
  Relation.ReflTransGen.head ⟨hlink, hj⟩ h

/-- A path may be walked back. -/
theorem symm (hwired : net.Wired) {i j : Nat} (hi : p i) (h : net.Joined p i j) :
    net.Joined p j i := by
  have hback : net.Joined p j i ∧ p j := by
    induction h with
    | refl => exact ⟨.refl, hi⟩
    | tail _ hstep ih =>
      obtain ⟨hpath, hp⟩ := ih
      exact ⟨.head (hwired.mem_linksOf_comm.1 hstep.1) hp hpath, hstep.2⟩
  exact hback.1

/-- A path does not leave the part of the network in which it starts. -/
theorem part_eq {part : Nat → Nat}
    (hlinks : ∀ i j, j ∈ net.linksOf i → p i → p j → part i = part j) {i j : Nat} (hi : p i)
    (h : net.Joined p i j) : part i = part j := by
  have hend : part i = part j ∧ p j := by
    induction h with
    | refl => exact ⟨rfl, hi⟩
    | tail _ hstep ih =>
      obtain ⟨hsame, hp⟩ := ih
      exact ⟨hsame.trans (hlinks _ _ hstep.1 hp hstep.2), hstep.2⟩
  exact hend.1

end Joined

/-! ## Circles -/

/-- A node that has no number stored and is not the given one: an equation or an unknown quantity
that a path around the node may pass. -/
def Around (net : Network) (node id : Nat) : Prop := net.numberOf? id = none ∧ id ≠ node

instance (net : Network) (node id : Nat) : Decidable (net.Around node id) :=
  inferInstanceAs (Decidable (_ ∧ _))

/-- The quantities of an equation that have no number stored. -/
def unknownLinks (net : Network) (equation : Nat) : List Nat :=
  (net.linksOf equation).filter fun id => (net.numberOf? id).isNone

theorem mem_unknownLinks {equation id : Nat} :
    id ∈ net.unknownLinks equation ↔ id ∈ net.linksOf equation ∧ net.numberOf? id = none := by
  simp [unknownLinks]

/-- The equation has three or more unknown quantities, or one of them is a leaf of it more than
once. -/
def Forked (net : Network) (equation : Nat) (body : Expr) : Prop :=
  3 ≤ (net.unknownLinks equation).length ∨
    ∃ id ∈ net.unknownLinks equation, 1 < body.occurrences (net.nameOf id)

instance (net : Network) (equation : Nat) (body : Expr) : Decidable (net.Forked equation body) :=
  inferInstanceAs (Decidable (_ ∨ _))

/-- A forked equation that the root is joined to lies on no circle: no path around the equation
joins two of its unknown quantities. -/
def Untangled (net : Network) (root : Nat) : Prop :=
  ∀ equation body, net.bodyOf? equation = some body → net.Forked equation body →
    net.Joined (fun id => net.numberOf? id = none) root equation →
    ∀ i ∈ net.unknownLinks equation, ∀ j ∈ net.unknownLinks equation, i ≠ j →
      ¬ net.Joined (net.Around equation) i j

/-- An equation with three different unknown quantities is forked. -/
theorem forked_of_three {equation i j k : Nat} (body : Expr) (hi : i ∈ net.unknownLinks equation)
    (hj : j ∈ net.unknownLinks equation) (hk : k ∈ net.unknownLinks equation) (hij : i ≠ j)
    (hik : i ≠ k) (hjk : j ≠ k) : net.Forked equation body := by
  have hnodup : [i, j, k].Nodup := by simp [hij, hik, hjk]
  have hsub : [i, j, k] ⊆ net.unknownLinks equation := by simp [hi, hj, hk]
  exact .inl (hnodup.subperm hsub).length_le

theorem around_of_mem_unknownLinks (hwired : net.Wired) {equation id : Nat} {body : Expr}
    (hbody : net.bodyOf? equation = some body) (hid : id ∈ net.unknownLinks equation) :
    net.Around equation id := by
  obtain ⟨hlink, hnone⟩ := mem_unknownLinks.1 hid
  refine ⟨hnone, ?_⟩
  rintro rfl
  exact absurd hbody (by simp [bodyOf?_of_isQuantity (hwired.isQuantity_of_link hbody hlink)])

/-- For each forked equation the nodes are divided into parts that no link around the equation
joins, and the unknown quantities of the equation lie in different parts. -/
def Parted (net : Network) (part : Nat → Nat → Nat) : Prop :=
  ∀ equation < net.size, ∀ body ∈ net.bodyOf? equation, net.Forked equation body →
    (∀ i < net.size, ∀ j ∈ net.linksOf i, net.Around equation i → net.Around equation j →
      part equation i = part equation j) ∧
    ((net.unknownLinks equation).map (part equation)).Nodup

instance (net : Network) (part : Nat → Nat → Nat) : Decidable (net.Parted part) :=
  inferInstanceAs (Decidable (∀ equation < net.size, _))

/-- **How to see that a network is untangled.** -/
theorem untangled_of_parted (hwired : net.Wired) {part : Nat → Nat → Nat} (h : net.Parted part)
    (root : Nat) : net.Untangled root := by
  intro equation body hbody hforked _ i hi j hj hne hjoined
  obtain ⟨a, ha, -⟩ := bodyOf?_eq_some.1 hbody
  obtain ⟨hlinks, hnodup⟩ := h equation (nodes_lt ha) body hbody hforked
  have haround := around_of_mem_unknownLinks hwired hbody hi
  have hsame : part equation i = part equation j := by
    refine hjoined.part_eq (fun k l hl hk hl' => ?_) haround
    cases hb : net.node? k with
    | none => exact absurd hl (by simp [linksOf, hb])
    | some b => exact hlinks k (nodes_lt hb) l hl hk hl'
  exact hne (List.inj_on_of_nodup_map hnodup hi hj hsame)

/-- An equation that there is a path to from the root by way of one of its unknown quantities. -/
structure Approached (net : Network) (root quantity equation : Nat) : Prop where
  around : net.Around equation root
  path : net.Joined (net.Around equation) root quantity
  unknown : quantity ∈ net.unknownLinks equation

/-- **Behind an equation that lies on no circle.**  Let `i` and `j` be two unknown quantities of
such an equation, let there be a path from the root by way of `i`, and let `j` be joined around the
equation to the node `k`.  Then every path from the root to `k` passes `j`; the paths here are those
through nodes with a property that `j` has not. -/
theorem Untangled.not_joined {root : Nat} (h : net.Untangled root) (hwired : net.Wired)
    {p : Nat → Prop} {equation i j k : Nat} {body : Expr} (hbody : net.bodyOf? equation = some body)
    (hforked : net.Forked equation body) (happroached : net.Approached root i equation)
    (hj : j ∈ net.unknownLinks equation) (hne : i ≠ j)
    (hjk : net.Joined (net.Around equation) j k)
    (hp : ∀ id, p id → net.numberOf? id = none) (hpj : ¬ p j) : ¬ net.Joined p root k := by
  obtain ⟨hroot, hrooti, hi⟩ := happroached
  intro hpath
  have haround := around_of_mem_unknownLinks hwired hbody hj
  -- The path either goes around the equation or leaves it for the last time through some quantity.
  have hsplit : k ≠ equation → net.Joined (net.Around equation) root k ∨
      ∃ q ∈ net.unknownLinks equation, p q ∧ net.Joined (net.Around equation) q k := by
    clear hjk
    induction hpath with
    | refl => exact fun _ => .inl .refl
    | @tail b c _ hstep ih =>
      intro hc
      obtain ⟨hlink, hpc⟩ := hstep
      rcases eq_or_ne b equation with rfl | hb
      · exact .inr ⟨c, mem_unknownLinks.2 ⟨hlink, hp c hpc⟩, hpc, .refl⟩
      · rcases ih hb with hfrom | ⟨q, hq, hpq, hfrom⟩
        · exact .inl (hfrom.tail hlink ⟨hp c hpc, hc⟩)
        · exact .inr ⟨q, hq, hpq, hfrom.tail hlink ⟨hp c hpc, hc⟩⟩
  have hequation : net.Joined (fun id => net.numberOf? id = none) root equation :=
    (hrooti.mono fun _ hid => hid.1).tail
      (hwired.mem_linksOf_comm.1 (mem_unknownLinks.1 hi).1) (numberOf?_of_bodyOf? hbody)
  have hkj := hjk.symm hwired haround
  have hk : k ≠ equation := by
    rcases Relation.ReflTransGen.cases_tail hjk with rfl | ⟨_, -, hstep⟩
    · exact haround.2
    · exact hstep.2.2
  rcases hsplit hk with hrootk | ⟨q, hq, hpq, hqk⟩
  · exact h equation body hbody hforked hequation i hi j hj hne
      ((hrooti.symm hwired hroot).trans (hrootk.trans hkj))
  · have hqj : q ≠ j := fun heq => hpj (heq ▸ hpq)
    exact h equation body hbody hforked hequation q hq j hj hqj (hqk.trans hkj)

end EquationNetwork.Network
