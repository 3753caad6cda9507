import EquationNetwork.Proofs.Network.Representation
import EquationNetwork.Proofs.Network.Simulation

/-!
# Laws and numbers

For the answers that a network gives, only its equations and the numbers of its quantities count:
not the places of the nodes, and not quantities that have no number and no equation.

* `Network.laws` — the equations of a network, in order.
* `Network.linkNames_quantity` — a quantity is linked to the laws that mention it, in order.
* `Network.alike_of_laws` — the nodes of networks with the same laws and numbers match.
* `Network.resolve_eq_of_laws` — **laws and numbers decide every answer.**
-/

namespace EquationNetwork

/-- The name and the expression of an equation. -/
def Node.law? : Node → Option (String × Expr)
  | quantity .. => none
  | equation name body _ => some (name, body)

theorem Node.law?_eq_some {a : Node} {law : String × Expr} :
    a.law? = some law ↔ a.body? = some law.2 ∧ a.name = law.1 := by
  cases a with
  | quantity name number links => simp [law?, body?]
  | equation name body links =>
    simp only [law?, body?, Node.name, Option.some.injEq, Prod.ext_iff]
    exact And.comm

namespace Network

variable {net net' : Network}

/-! ## Laws -/

/-- The equations of a network, in the order in which they were added. -/
def laws (net : Network) : List (String × Expr) := net.nodes.filterMap Node.law?

/-- Does an equation of the network have a leaf of this name? -/
def mentions (net : Network) (name : String) : Bool :=
  net.laws.any fun law => law.2.leafNames.contains name

theorem mem_laws {law : String × Expr} :
    law ∈ net.laws ↔ ∃ id, net.bodyOf? id = some law.2 ∧ net.nameOf id = law.1 := by
  rw [laws, List.mem_filterMap]
  constructor
  · rintro ⟨a, ha, hlaw⟩
    obtain ⟨id, hid⟩ := List.mem_iff_getElem?.1 ha
    obtain ⟨hbody, hname⟩ := Node.law?_eq_some.1 hlaw
    exact ⟨id, bodyOf?_eq_some.2 ⟨a, hid, hbody⟩, (nameOf_eq hid).trans hname⟩
  · rintro ⟨id, hbody, hname⟩
    obtain ⟨a, ha, habody⟩ := bodyOf?_eq_some.1 hbody
    rw [nameOf_eq ha] at hname
    exact ⟨a, List.mem_of_getElem? ha, Node.law?_eq_some.2 ⟨habody, hname⟩⟩

theorem mentions_iff {name : String} :
    net.mentions name = true ↔ ∃ id body, net.bodyOf? id = some body ∧ name ∈ body.leafNames := by
  simp only [mentions, List.any_eq_true, List.contains_iff_mem]
  constructor
  · rintro ⟨law, hlaw, hname⟩
    obtain ⟨id, hbody, -⟩ := mem_laws.1 hlaw
    exact ⟨id, law.2, hbody, hname⟩
  · rintro ⟨id, body, hbody, hname⟩
    exact ⟨(net.nameOf id, body), mem_laws.2 ⟨id, hbody, rfl⟩, hname⟩

/-- What is mentioned is a quantity. -/
theorem Consistent.exists_quantityId? (h : net.Consistent) {name : String}
    (hname : net.mentions name = true) : ∃ id, net.quantityId? name = some id := by
  obtain ⟨e, body, hbody, hname⟩ := mentions_iff.1 hname
  rw [← h.linkNames_eq hbody] at hname
  obtain ⟨id, hlink, rfl⟩ := List.mem_map.1 hname
  exact ⟨id, h.toWired.quantityId?_nameOf (h.toWired.isQuantity_of_link hbody hlink)⟩

/-! ## Links by name -/

theorem filterMap_eq_range {α β : Type} (f : α → Option β) (l : List α) :
    l.filterMap f = (List.range l.length).filterMap fun i => l[i]?.bind f := by
  induction l using List.reverseRecOn with
  | nil => rfl
  | append_singleton l a ih =>
    rw [List.filterMap_append, List.length_append, List.length_singleton, List.range_succ,
      List.filterMap_append, ih]
    congr 1
    · refine List.filterMap_congr fun i hi => ?_
      rw [List.getElem?_append_left (List.mem_range.1 hi)]
    · cases hf : f a <;> simp [hf]

/-- A quantity is linked to the laws that mention it, in order. -/
theorem linkNames_quantity (h : net.Consistent) {id : Nat} (hid : net.IsQuantity id) :
    net.linkNames id =
      (net.laws.filter fun law => law.2.leafNames.contains (net.nameOf id)).map Prod.fst := by
  let named : Nat → Bool := fun e =>
    (net.bodyOf? e).any fun body => body.leafNames.contains (net.nameOf id)
  have hlinks : net.linksOf id = (List.range net.size).filter named := by
    refine List.Pairwise.eq_of_mem_iff (h.toWired.pairwise_linksOf hid)
      (List.pairwise_lt_range.filter named) fun e => ?_
    rw [h.mem_linksOf_iff hid, List.mem_filter, List.mem_range]
    constructor
    · rintro ⟨body, hbody, hname⟩
      obtain ⟨a, ha, -⟩ := bodyOf?_eq_some.1 hbody
      exact ⟨nodes_lt ha, by simp [named, hbody, hname]⟩
    · rintro ⟨-, hnamed⟩
      obtain ⟨body, hbody, hname⟩ := (Option.any_eq_true _ _).1 hnamed
      exact ⟨body, hbody, List.contains_iff_mem.1 hname⟩
  rw [linkNames, hlinks, laws, filterMap_eq_range, ← List.filterMap_eq_filter,
    ← List.filterMap_eq_filter, List.filterMap_filterMap, ← List.filterMap_eq_map,
    List.filterMap_filterMap, ← List.filterMap_eq_map, List.filterMap_filterMap]
  refine List.filterMap_congr fun e _ => ?_
  have hnode : net.nodes[e]? = net.node? e := rfl
  rw [hnode]
  rcases ha : net.node? e with _ | ⟨name, number, links⟩ | ⟨name, body, links⟩
  · have hbody : net.bodyOf? e = none := by simp [bodyOf?, ha]
    simp [named, hbody]
  · have hbody : net.bodyOf? e = none := by simp [bodyOf?, ha, Node.body?]
    simp [named, hbody, Node.law?]
  · have hbody : net.bodyOf? e = some body := by simp [bodyOf?, ha, Node.body?]
    have hname : net.nameOf e = name := nameOf_eq ha
    by_cases hleaf : net.nameOf id ∈ body.leafNames
    · simp [named, hbody, hname, hleaf, Node.law?, Option.guard]
    · simp [named, hbody, hleaf, Node.law?, Option.guard]

/-! ## Nodes that match -/

/-- Nodes of one sort and one name. -/
def SameNode (net net' : Network) (i i' : Nat) : Prop :=
  ∃ a a', net.node? i = some a ∧ net'.node? i' = some a' ∧ a'.isQuantity = a.isQuantity ∧
    a'.name = a.name

theorem SameNode.of_isQuantity {i i' : Nat} (hi : net.IsQuantity i) (hi' : net'.IsQuantity i')
    (hname : net'.nameOf i' = net.nameOf i) : SameNode net net' i i' := by
  obtain ⟨a, ha, hsort⟩ := hi
  obtain ⟨a', ha', hsort'⟩ := hi'
  rw [nameOf_eq ha, nameOf_eq ha'] at hname
  exact ⟨a, a', ha, ha', hsort'.trans hsort.symm, hname⟩

theorem SameNode.of_bodyOf? {i i' : Nat} {body body' : Expr} (hi : net.bodyOf? i = some body)
    (hi' : net'.bodyOf? i' = some body') (hname : net'.nameOf i' = net.nameOf i) :
    SameNode net net' i i' := by
  obtain ⟨a, ha, hbody⟩ := bodyOf?_eq_some.1 hi
  obtain ⟨a', ha', hbody'⟩ := bodyOf?_eq_some.1 hi'
  rw [nameOf_eq ha, nameOf_eq ha'] at hname
  refine ⟨a, a', ha, ha', ?_, hname⟩
  rw [Node.isQuantity_eq_not_isSome_body?, Node.isQuantity_eq_not_isSome_body?, hbody, hbody']
  rfl

/-- Lists of the same names match, if members with one name do. -/
theorem forall₂_of_names {R : Nat → Nat → Prop} {ids ids' : List Nat}
    (hnames : ids'.map net'.nameOf = ids.map net.nameOf)
    (hmatch : ∀ i ∈ ids, ∀ i' ∈ ids', net'.nameOf i' = net.nameOf i → R i i') :
    List.Forall₂ R ids ids' := by
  induction ids generalizing ids' with
  | nil =>
    obtain rfl : ids' = [] := List.map_eq_nil_iff.1 hnames
    exact .nil
  | cons i ids ih =>
    cases ids' with
    | nil => exact absurd hnames (by simp)
    | cons i' ids' =>
      obtain ⟨hname, hnames⟩ := List.cons.inj hnames
      have hfirst := hmatch i (List.mem_cons_self ..) i' (List.mem_cons_self ..) hname
      refine .cons hfirst (ih hnames fun j hj j' hj' => ?_)
      exact hmatch j (List.mem_cons_of_mem _ hj) j' (List.mem_cons_of_mem _ hj')

section Match

variable {i i' : Nat} (hnet : net.Consistent) (hnet' : net'.Consistent)
  (hlaws : net'.laws = net.laws) (hvalues : ∀ name, net'.value? name = net.value? name)
  (hi : SameNode net net' i i')

include hi in
theorem SameNode.nameOf : net'.nameOf i' = net.nameOf i := by
  obtain ⟨a, a', ha, ha', -, hname⟩ := hi
  rw [nameOf_eq ha, nameOf_eq ha', hname]

include hi in
theorem SameNode.isQuantity_iff : net'.IsQuantity i' ↔ net.IsQuantity i := by
  obtain ⟨a, a', ha, ha', hsort, -⟩ := hi
  simp only [IsQuantity, ha, ha', Option.some.injEq, exists_eq_left', hsort]

include hi in
theorem SameNode.isSome_bodyOf? : (net'.bodyOf? i').isSome = (net.bodyOf? i).isSome := by
  obtain ⟨a, a', ha, ha', hsort, -⟩ := hi
  rw [Node.isQuantity_eq_not_isSome_body?, Node.isQuantity_eq_not_isSome_body?] at hsort
  rw [bodyOf?, bodyOf?, ha, ha']
  exact Bool.not_inj hsort

include hnet' hlaws hi in
/-- Nodes of one sort and one name have the same expression. -/
theorem SameNode.bodyOf?_eq : net'.bodyOf? i' = net.bodyOf? i := by
  have hsome := hi.isSome_bodyOf?
  cases hbody : net.bodyOf? i with
  | none =>
    rw [hbody] at hsome
    exact Option.isNone_iff_eq_none.1 (Option.isSome_eq_false_iff.1 hsome)
  | some body =>
    rw [hbody] at hsome
    obtain ⟨body', hbody'⟩ := Option.isSome_iff_exists.1 hsome
    have hlaw : (net.nameOf i, body) ∈ net'.laws := hlaws ▸ mem_laws.2 ⟨i, hbody, rfl⟩
    obtain ⟨j, hj, hname⟩ := mem_laws.1 hlaw
    obtain rfl := hnet'.toWired.equation_eq_of_nameOf_eq hj hbody' (hname.trans hi.nameOf.symm)
    exact hj

include hnet hnet' hvalues hi in
/-- Nodes of one sort and one name have the same number. -/
theorem SameNode.numberOf?_eq : net'.numberOf? i' = net.numberOf? i := by
  by_cases hquantity : net.IsQuantity i
  · have hsame := hvalues (net.nameOf i)
    rw [value?, value?, hnet.toWired.quantityId?_nameOf hquantity, ← hi.nameOf,
      hnet'.toWired.quantityId?_nameOf (hi.isQuantity_iff.2 hquantity)] at hsame
    exact hsame
  · have hnone : ∀ {net : Network} {i : Nat}, ¬ net.IsQuantity i → net.numberOf? i = none := by
      intro net i hnot
      rw [numberOf?]
      rcases ha : net.node? i with _ | ⟨name, number, links⟩ | ⟨name, body, links⟩
      · rfl
      · exact absurd ⟨_, ha, rfl⟩ hnot
      · rfl
    rw [hnone hquantity, hnone fun h => hquantity (hi.isQuantity_iff.1 h)]

include hnet hnet' hlaws hi in
/-- Nodes of one sort and one name have links to nodes that match. -/
theorem SameNode.links : List.Forall₂ (SameNode net net') (net.linksOf i) (net'.linksOf i') := by
  by_cases hquantity : net.IsQuantity i
  · have hquantity' := hi.isQuantity_iff.2 hquantity
    have hnames : net'.linkNames i' = net.linkNames i := by
      rw [linkNames_quantity hnet' hquantity', linkNames_quantity hnet hquantity, hlaws, hi.nameOf]
    refine forall₂_of_names hnames fun e he e' he' hname => ?_
    obtain ⟨body, hbody⟩ := hnet.toWired.exists_body hquantity he
    obtain ⟨body', hbody'⟩ := hnet'.toWired.exists_body hquantity' he'
    exact .of_bodyOf? hbody hbody' hname
  · obtain ⟨a, a', ha, ha', hsort, -⟩ := id hi
    cases hbody : net.bodyOf? i with
    | none =>
      rw [bodyOf?, ha] at hbody
      have hnone : a.body? = none := hbody
      exact absurd ⟨a, ha, by rw [Node.isQuantity_eq_not_isSome_body?, hnone]; rfl⟩ hquantity
    | some body =>
      have hbody' : net'.bodyOf? i' = some body := (hi.bodyOf?_eq hnet' hlaws).trans hbody
      have hnames : net'.linkNames i' = net.linkNames i := by
        rw [hnet'.linkNames_eq hbody', hnet.linkNames_eq hbody]
      exact forall₂_of_names hnames fun q hq q' hq' hname =>
        .of_isQuantity (hnet.toWired.isQuantity_of_link hbody hq)
          (hnet'.toWired.isQuantity_of_link hbody' hq') hname

end Match

/-- The nodes of networks with the same laws and numbers match. -/
theorem alike_of_laws (hnet : net.Consistent) (hnet' : net'.Consistent)
    (hsteps : net'.settings.maxRewriteSteps = net.settings.maxRewriteSteps)
    (hlaws : net'.laws = net.laws) (hvalues : ∀ name, net'.value? name = net.value? name) :
    Alike (SameNode net net') net net' where
  wired := hnet.toWired
  wired' := hnet'.toWired
  maxRewriteSteps := hsteps
  unique := by
    rintro i j i' j' ⟨a, a', ha, ha', hsort, hname⟩ ⟨b, b', hb, hb', hsort', hname'⟩
    constructor
    · rintro rfl
      obtain rfl : a = b := Option.some.inj (ha.symm.trans hb)
      exact hnet'.distinct ha' hb' (hsort.trans hsort'.symm) (hname.trans hname'.symm)
    · rintro rfl
      obtain rfl : a' = b' := Option.some.inj (ha'.symm.trans hb')
      exact hnet.distinct ha hb (hsort.symm.trans hsort') (hname.symm.trans hname')
  isQuantity hi := hi.isQuantity_iff
  nameOf hi := hi.nameOf
  numberOf? hi := sameFor_of_eq (hi.numberOf?_eq hnet hnet' hvalues)
  bodyOf? hi := hi.bodyOf?_eq hnet' hlaws
  links hi _ := hi.links hnet hnet' hlaws

/-! ## Answers -/

/-- A quantity without a number and without an equation, or none at all, has no answer. -/
theorem resolve_unmentioned (h : net.Consistent) {name : String} (hvalue : net.value? name = none)
    (hname : net.mentions name = false) : net.resolve name = .unresolved := by
  rw [resolve, request]
  cases hid : net.quantityId? name with
  | none => rfl
  | some id =>
    obtain ⟨hquantity, hidname⟩ := isQuantity_of_quantityId? hid
    have hlinks : net.linksOf id = [] := by
      refine List.eq_nil_iff_forall_not_mem.2 fun e he => ?_
      obtain ⟨body, hbody, hleaf⟩ := (h.mem_linksOf_iff hquantity e).1 he
      rw [hidname] at hleaf
      exact absurd (mentions_iff.2 ⟨e, body, hbody, hleaf⟩) (by simp [hname])
    have hnumber : net.numberOf? id = none := by
      rw [value?, hid] at hvalue
      exact hvalue
    have hknown : net.known? .start id = none := known?_eq_none_iff.2 ⟨hnumber, rfl⟩
    have hexpand : net.expand net.size 0 id .start = (none, Search.start.visit id) := by
      rw [expand, hlinks]
      rfl
    dsimp only
    rw [requestFuel, seek_none hknown List.not_mem_nil (Nat.zero_le _) hexpand]

/-- **Laws and numbers decide every answer**, under the same settings. -/
theorem resolve_eq_of_laws (hnet : net.Consistent) (hnet' : net'.Consistent)
    (hsettings : net'.settings = net.settings) (hlaws : net'.laws = net.laws)
    (hvalues : ∀ name, net'.value? name = net.value? name) (name : String) :
    net'.resolve name = net.resolve name := by
  have hmentions : net'.mentions name = net.mentions name := by rw [mentions, mentions, hlaws]
  have hboth : (∃ i i', net.quantityId? name = some i ∧ net'.quantityId? name = some i') ∨
      (net.value? name = none ∧ net.mentions name = false) := by
    cases hmention : net.mentions name with
    | true =>
      obtain ⟨i, hi⟩ := hnet.exists_quantityId? hmention
      obtain ⟨i', hi'⟩ := hnet'.exists_quantityId? (hmentions.trans hmention)
      exact .inl ⟨i, i', hi, hi'⟩
    | false =>
      cases hvalue : net.value? name with
      | none => exact .inr ⟨rfl, rfl⟩
      | some x =>
        obtain ⟨i, hi, -⟩ := Option.bind_eq_some_iff.1 hvalue
        obtain ⟨i', hi', -⟩ := Option.bind_eq_some_iff.1 ((hvalues name).trans hvalue)
        exact .inl ⟨i, i', hi, hi'⟩
  rcases hboth with ⟨i, i', hi, hi'⟩ | ⟨hvalue, hmention⟩
  · obtain ⟨hquantity, hname⟩ := isQuantity_of_quantityId? hi
    obtain ⟨hquantity', hname'⟩ := isQuantity_of_quantityId? hi'
    have halike := alike_of_laws hnet hnet' (by rw [hsettings]) hlaws hvalues
    have hsame : SameNode net net' i i' :=
      .of_isQuantity hquantity hquantity' (hname'.trans hname.symm)
    rw [resolve, resolve, request_abreast halike (.inl (by rw [hsettings])) hsame
      (hsame.numberOf?_eq hnet hnet' hvalues) hi hi']
  · rw [resolve_unmentioned hnet hvalue hmention,
      resolve_unmentioned hnet' ((hvalues name).trans hvalue) (hmentions.trans hmention)]

end Network

end EquationNetwork
