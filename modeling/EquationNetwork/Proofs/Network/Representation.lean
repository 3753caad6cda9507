import EquationNetwork.Proofs.Network.Consistency

/-!
# Names, links and places

What the nodes of a consistent network say of one another.

* `Network.Wired.quantityId?_eq_some_iff`, `Network.Wired.equationId?_eq_some_iff` — a name leads to
  the only node of a sort that has it.
* `Network.Consistent.mem_linksOf_iff` — a quantity is linked to the equations of which it is a
  leaf.
* `Network.keeps_perform` — **no operation moves a node**, so nodes are numbered in the order in
  which they were added.
-/

namespace EquationNetwork.Network

variable {net : Network}

/-! ## Names -/

/-- A name leads to the only node of a sort that has it. -/
theorem findIdx?_eq_some_iff {p : Node → Bool}
    (hunique : ∀ {i j : Nat} {a b : Node}, net.node? i = some a → net.node? j = some b →
      p a = true → p b = true → i = j) {id : Nat} :
    net.nodes.findIdx? p = some id ↔ ∃ a, net.node? id = some a ∧ p a = true := by
  constructor
  · intro h
    obtain ⟨hid, hp, -⟩ := List.findIdx?_eq_some_iff_getElem.1 h
    exact ⟨net.nodes[id], List.getElem?_eq_getElem hid, hp⟩
  · rintro ⟨a, ha, hp⟩
    cases hfound : net.nodes.findIdx? p with
    | none =>
      have hnot := List.findIdx?_eq_none_iff.1 hfound a (List.mem_of_getElem? ha)
      exact absurd hp (by simp [hnot])
    | some id' =>
      obtain ⟨hid, hp', -⟩ := List.findIdx?_eq_some_iff_getElem.1 hfound
      rw [hunique (List.getElem?_eq_getElem hid) ha hp' hp]

theorem Wired.quantityId?_eq_some_iff (h : net.Wired) {name : String} {id : Nat} :
    net.quantityId? name = some id ↔
      ∃ a, net.node? id = some a ∧ a.isQuantity = true ∧ a.name = name := by
  simp only [← Node.isQuantityNamed_iff]
  refine findIdx?_eq_some_iff fun ha hb hp hp' => ?_
  rw [Node.isQuantityNamed_iff] at hp hp'
  exact h.distinct ha hb (hp.1.trans hp'.1.symm) (hp.2.trans hp'.2.symm)

theorem Wired.equationId?_eq_some_iff (h : net.Wired) {name : String} {id : Nat} :
    net.equationId? name = some id ↔
      ∃ a, net.node? id = some a ∧ a.isQuantity = false ∧ a.name = name := by
  simp only [← Node.isEquationNamed_iff]
  refine findIdx?_eq_some_iff fun ha hb hp hp' => ?_
  rw [Node.isEquationNamed_iff] at hp hp'
  exact h.distinct ha hb (hp.1.trans hp'.1.symm) (hp.2.trans hp'.2.symm)

/-! ## Links -/

/-- What is linked is there. -/
theorem Wired.exists_link (h : net.Wired) {i j : Nat} (hj : j ∈ net.linksOf i) :
    ∃ a b, net.node? i = some a ∧ net.node? j = some b ∧ b.isQuantity = !a.isQuantity := by
  cases ha : net.node? i with
  | none => exact absurd hj (by simp [linksOf, ha])
  | some a =>
    rw [linksOf_eq ha] at hj
    obtain ⟨b, hb, hsort, -⟩ := h.joined ha hj
    exact ⟨a, b, rfl, hb, hsort⟩

theorem Wired.nodup_linksOf (h : net.Wired) (id : Nat) : (net.linksOf id).Nodup := by
  cases ha : net.node? id with
  | none => simp [linksOf, ha]
  | some a =>
    rw [linksOf_eq ha]
    exact h.nodup ha

/-- A quantity is linked to its equations in the order in which they were added. -/
theorem Wired.pairwise_linksOf (h : net.Wired) {id : Nat} (hid : net.IsQuantity id) :
    (net.linksOf id).Pairwise (· < ·) := by
  obtain ⟨a, ha, hsort⟩ := hid
  rw [linksOf_eq ha]
  exact h.rising ha hsort

/-- An equation has an `=` at its root and joins two quantities at least. -/
theorem Consistent.isEquation_of_body (h : net.Consistent) {id : Nat} {body : Expr}
    (hbody : net.bodyOf? id = some body) :
    body.isEquation = true ∧ 2 ≤ (net.linksOf id).length := by
  obtain ⟨a, ha, habody⟩ := bodyOf?_eq_some.1 hbody
  rw [linksOf_eq ha]
  have hfaithful := h.faithful id a body ha habody
  exact ⟨hfaithful.1, hfaithful.2.1⟩

/-- A quantity is linked to an equation exactly if it is a leaf of it. -/
theorem Consistent.mem_linksOf_iff (h : net.Consistent) {id : Nat} (hid : net.IsQuantity id)
    (e : Nat) : e ∈ net.linksOf id ↔
      ∃ body, net.bodyOf? e = some body ∧ net.nameOf id ∈ body.leafNames := by
  constructor
  · intro he
    obtain ⟨body, hbody⟩ := h.toWired.exists_body hid he
    refine ⟨body, hbody, ?_⟩
    rw [← h.linkNames_eq hbody]
    exact List.mem_map_of_mem (h.toWired.mem_linksOf_comm.1 he)
  · rintro ⟨body, hbody, hname⟩
    rw [← h.linkNames_eq hbody] at hname
    obtain ⟨id', hlink, hname⟩ := List.mem_map.1 hname
    obtain rfl : id' = id :=
      h.toWired.eq_of_nameOf_eq (h.toWired.isQuantity_of_link hbody hlink) hid hname
    exact h.toWired.mem_linksOf_comm.1 hlink

/-! ## All operations -/

protected theorem Keeps.refl (net : Network) : Keeps net net := fun _ a ha => ⟨a, ha, rfl, rfl, rfl⟩

theorem keeps_modify (net : Network) (changed : Nat) {f : Node → Node}
    (hf : ∀ a, (f a).isQuantity = a.isQuantity ∧ (f a).name = a.name ∧ (f a).body? = a.body?) :
    Keeps net (net.modify changed f) := by
  intro id a ha
  rw [node?_modify, ha]
  by_cases hid : id = changed
  · exact ⟨f a, if_pos hid, hf a⟩
  · exact ⟨a, if_neg hid, rfl, rfl, rfl⟩

theorem keeps_attach (equation : Nat) (net : Network) (name : String) :
    Keeps net (attach equation net name) := by
  refine (net.keeps_addQuantity name (Decimal.numeral? name)).trans ?_
  exact (keeps_modify _ equation fun a => by simp).trans (keeps_modify _ _ fun a => by simp)

/-- No operation moves a node. -/
theorem keeps_perform (net : Network) (op : Operation) : Keeps net (net.perform op) := by
  cases op with
  | addQuantity name number => exact net.keeps_addQuantity name number
  | setQuantity name number => exact net.keeps_addQuantity name (some number)
  | addEquation name body =>
    rw [perform]
    cases hadd : net.addEquation name body with
    | ok grown =>
      obtain ⟨-, -, -, -, hgrown⟩ := addEquation_ok hadd
      show Keeps net grown.1
      rw [hgrown]
      exact List.foldlRecOn _ _ (net.keeps_push _) fun _ hnet name _ =>
        hnet.trans (keeps_attach _ _ name)
    | error error => exact .refl net
  | record resolutions =>
    exact record_induction (fun before name x h => h.trans (before.keeps_addQuantity name (some x)))
      (.refl net)
  | configure settings => exact .refl net

theorem keeps_performAll (net : Network) (ops : List Operation) :
    Keeps net (net.performAll ops) := by
  refine List.foldlRecOn ops _ (.refl net) fun before hbefore op _ => ?_
  exact hbefore.trans (before.keeps_perform op)

end EquationNetwork.Network
