import EquationNetwork.Proofs.Network.Histories

/-!
# Lists of names

The lists that a network gives out, and how they grow with it.

* `Network.equationNames_eq_laws`, `Network.Wired.nodup_equationNames` — the equations, each once.
* `Network.quantityNames_addQuantity`, `Network.quantityNames_addEquation` — **quantities are listed
  in the order in which their names first came up.**
* `Network.Wired.unknowns_eq` — the unknowns are the quantities whose name has no number.
-/

namespace EquationNetwork.Network

variable {net : Network}

/-! ## Equations -/

theorem equationNames_eq_laws (net : Network) : net.equationNames = net.laws.map Prod.fst := by
  rw [equationNames, laws]
  induction net.nodes with
  | nil => rfl
  | cons a nodes ih =>
    cases a with
    | quantity name number links => exact ih
    | equation name body links => exact congrArg (name :: ·) ih

theorem mem_equationNames {name : String} :
    name ∈ net.equationNames ↔ (net.equationId? name).isSome = true := by
  rw [equationNames, equationId?, List.findIdx?_isSome]
  simp [Node.isEquationNamed, and_assoc]

/-- Nodes of one sort have different names. -/
theorem Wired.nodup_equationNames (h : net.Wired) : net.equationNames.Nodup := by
  rw [equationNames, List.Nodup, List.pairwise_map, List.pairwise_filter,
    List.pairwise_iff_getElem]
  intro i j hi hj hij ha hb hname
  have hsort : net.nodes[i].isQuantity = net.nodes[j].isQuantity := by simp_all
  have hsame := h.distinct (List.getElem?_eq_getElem hi) (List.getElem?_eq_getElem hj) hsort hname
  omega

/-- A law is found by the name of its equation. -/
theorem Wired.exists_of_mem_laws (h : net.Wired) {law : String × Expr} (hlaw : law ∈ net.laws) :
    ∃ id, net.equationId? law.1 = some id ∧ net.bodyOf? id = some law.2 := by
  obtain ⟨id, hbody, hname⟩ := mem_laws.1 hlaw
  obtain ⟨a, ha, habody⟩ := bodyOf?_eq_some.1 hbody
  have hsort : a.isQuantity = false := by
    rw [Node.isQuantity_eq_not_isSome_body?, habody]
    rfl
  rw [nameOf_eq ha] at hname
  exact ⟨id, h.equationId?_eq_some_iff.2 ⟨a, ha, hsort, hname⟩, hbody⟩

/-! ## Quantities -/

theorem mem_quantityNames {name : String} :
    name ∈ net.quantityNames ↔ (net.quantityId? name).isSome = true := by
  rw [quantityNames, quantityId?, List.findIdx?_isSome]
  simp [Node.isQuantityNamed, and_assoc]

theorem quantityNames_push (net : Network) (node : Node) :
    (net.push node).1.quantityNames =
      net.quantityNames ++ if node.isQuantity then [node.name] else [] := by
  rw [quantityNames, push, List.filter_append, List.map_append]
  cases hsort : node.isQuantity <;> simp [hsort, quantityNames]

theorem quantityNames_modify (net : Network) (id : Nat) {f : Node → Node}
    (hsort : ∀ a, (f a).isQuantity = a.isQuantity) (hname : ∀ a, (f a).name = a.name) :
    (net.modify id f).quantityNames = net.quantityNames := by
  have hmap : ∀ nodes : List Node, (nodes.filter Node.isQuantity).map Node.name =
      ((nodes.map fun a => (a.isQuantity, a.name)).filter Prod.fst).map Prod.snd := fun nodes => by
    rw [List.filter_map, List.map_map]
    rfl
  rw [quantityNames, quantityNames, hmap, hmap, modify, map_modify_of]
  intro a
  rw [hsort, hname]

/-- A quantity comes last if its name is new. -/
theorem quantityNames_addQuantity (net : Network) (name : String) (number : Option Float) :
    (net.addQuantity name number).1.quantityNames =
      net.quantityNames ++ if name ∈ net.quantityNames then [] else [name] := by
  unfold addQuantity
  cases hid : net.quantityId? name with
  | none =>
    have hnew : name ∉ net.quantityNames := by simp [mem_quantityNames, hid]
    rw [if_neg hnew]
    exact quantityNames_push net _
  | some id =>
    have hold : name ∈ net.quantityNames := by simp [mem_quantityNames, hid]
    rw [if_pos hold, List.append_nil]
    cases number with
    | none => rfl
    | some x => exact quantityNames_modify net id (by simp) (by simp)

variable {seen : List String}

theorem quantityNames_attachAll (equation : Nat) {names : List String}
    (h : net.quantityNames = seen.eraseDups) :
    (names.foldl (attach equation) net).quantityNames = (seen ++ names).eraseDups := by
  induction names generalizing net seen with
  | nil => rw [List.foldl_nil, h, List.append_nil]
  | cons name names ih =>
    have hname : (attach equation net name).quantityNames = (seen ++ [name]).eraseDups := by
      rw [attach_eq, link, quantityNames_modify _ _ (by simp) (by simp),
        quantityNames_modify _ _ (by simp) (by simp), quantityNames_addQuantity, h,
        eraseDups_concat]
      simp only [List.mem_eraseDups]
    rw [List.foldl_cons, ih hname, List.append_assoc, List.singleton_append]

/-- With an equation come its leaves, as far as their names are new. -/
theorem quantityNames_addEquation {equation : String} {body : Expr} {grown : Network} {id : Nat}
    (hadd : net.addEquation equation body = .ok (grown, id))
    (h : net.quantityNames = seen.eraseDups) :
    grown.quantityNames = (seen ++ body.leafNames).eraseDups := by
  obtain ⟨-, -, -, -, rfl⟩ := addEquation_ok hadd
  apply quantityNames_attachAll
  rw [quantityNames_push, h]
  exact List.append_nil _

/-- The unknowns are the quantities whose name has no number. -/
theorem Wired.unknowns_eq (h : net.Wired) :
    net.unknowns = net.quantityNames.filter fun name => (net.value? name).isNone := by
  rw [unknowns, quantityNames, List.filter_map, List.filter_filter]
  congr 1
  refine List.filter_congr fun a ha => ?_
  obtain ⟨id, hid⟩ := List.mem_iff_getElem?.1 ha
  cases hsort : a.isQuantity with
  | false => simp
  | true =>
    have hquantity : net.quantityId? a.name = some id :=
      h.quantityId?_eq_some_iff.2 ⟨a, hid, hsort, rfl⟩
    have hvalue : net.value? a.name = a.number? := by
      rw [value?, hquantity]
      show (net.node? id).bind Node.number? = _
      rw [show net.node? id = some a from hid]
      rfl
    simp [hvalue]

end EquationNetwork.Network
