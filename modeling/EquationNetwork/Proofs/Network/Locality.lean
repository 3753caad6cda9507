import EquationNetwork.Proofs.Network.Histories

/-!
# Locality

A search never looks behind a number.  So an equation that meets a network in nothing but quantities
with a number, and brings all its other quantities with it, changes no answer that the network gave
before, although it is linked to nodes of that network and may reset the number of a numeral.

* `Network.Screens` — where an equation meets the network, the network has a number.
* `Network.alike_addEquation` — every node matches itself in the network with the equation.
* `Network.request_addEquation` — so a request does the same in both.
* `Network.resolve_addEquation` — **an equation behind known numbers** changes no answer.
-/

namespace EquationNetwork.Network

variable {net net' : Network}

/-! ## Nodes that stay -/

/-- A node is a quantity or an equation. -/
theorem isQuantity_or_body {id : Nat} {a : Node} (ha : net.node? id = some a) :
    net.IsQuantity id ∨ ∃ body, net.bodyOf? id = some body := by
  cases a with
  | quantity name number links => exact .inl ⟨_, ha, rfl⟩
  | equation name body links => exact .inr ⟨body, bodyOf?_eq_some.2 ⟨_, ha, rfl⟩⟩

theorem IsQuantity.exists_node {id : Nat} (h : net.IsQuantity id) : ∃ a, net.node? id = some a :=
  h.imp fun _ ha => ha.1

theorem Keeps.bodyOf? (h : Keeps net net') {id : Nat} {a : Node} (ha : net.node? id = some a) :
    net'.bodyOf? id = net.bodyOf? id := by
  obtain ⟨a', ha', -, -, hbody⟩ := h id a ha
  rw [Network.bodyOf?, Network.bodyOf?, ha, ha']
  exact hbody

theorem Keeps.isQuantity_iff (h : Keeps net net') {id : Nat} {a : Node}
    (ha : net.node? id = some a) : net'.IsQuantity id ↔ net.IsQuantity id := by
  obtain ⟨a', ha', hsort, -⟩ := h id a ha
  simp only [IsQuantity, ha, ha', Option.some.injEq, exists_eq_left', hsort]

theorem keeps_addEquation {equation : String} {body : Expr} {grown : Network} {id : Nat}
    (hadd : net.addEquation equation body = .ok (grown, id)) : Keeps net grown := by
  have hkeeps := net.keeps_perform (.addEquation equation body)
  rwa [perform, hadd] at hkeeps

/-- The number of a quantity is the number of its name. -/
theorem Wired.numberOf?_eq (h : net.Wired) {id : Nat} (hid : net.IsQuantity id) :
    net.numberOf? id = net.value? (net.nameOf id) := by
  rw [value?, h.quantityId?_nameOf hid]
  rfl

/-! ## An equation behind known numbers -/

/-- Where the equation meets the network, the network has a number: all leaves of the equation that
are quantities of the network have one. -/
def Screens (net : Network) (body : Expr) : Prop :=
  ∀ name ∈ body.leafNames, (net.quantityId? name).isSome = true → (net.value? name).isSome = true

theorem Screens.exists_number {body : Expr} (h : net.Screens body) (hnet : net.Wired) {id : Nat}
    (hid : net.IsQuantity id) (hleaf : net.nameOf id ∈ body.leafNames) :
    ∃ x, net.numberOf? id = some x := by
  rw [hnet.numberOf?_eq hid]
  apply Option.isSome_iff_exists.1
  apply h _ hleaf
  rw [hnet.quantityId?_nameOf hid]
  rfl

/-- A node of a network, at its place. -/
def Stays (net : Network) (id id' : Nat) : Prop := id = id' ∧ ∃ a, net.node? id = some a

section Grown

variable {equation : String} {body : Expr} {grown : Network} {place : Nat}
  (hnet : net.Consistent) (hadd : net.addEquation equation body = .ok (grown, place))

include hnet hadd

/-- A quantity has the number that it had, or the one that it is named for. -/
theorem numberOf?_addEquation {id : Nat} (hid : net.IsQuantity id) :
    grown.numberOf? id =
      (if net.nameOf id ∈ body.leafNames then Decimal.numeral? (net.nameOf id) else none).or
        (net.numberOf? id) := by
  have hgrown := hnet.addEquation hadd
  have hkeeps := keeps_addEquation hadd
  obtain ⟨a, ha⟩ := hid.exists_node
  rw [hgrown.toWired.numberOf?_eq ((hkeeps.isQuantity_iff ha).2 hid), hkeeps.nameOf ha,
    value?_addEquation hadd, hnet.toWired.numberOf?_eq hid]

variable (hscreens : net.Screens body)

include hscreens

/-- Every node keeps its number, but for numerals, and these keep one. -/
theorem sameFor_addEquation {id : Nat} {a : Node} (ha : net.node? id = some a) :
    Option.Rel (SameFor (net.nameOf id)) (net.numberOf? id) (grown.numberOf? id) := by
  rcases isQuantity_or_body ha with hid | ⟨old, hold⟩
  · have hnumber := numberOf?_addEquation hnet hadd hid
    by_cases hleaf : net.nameOf id ∈ body.leafNames
    · obtain ⟨x, hx⟩ := hscreens.exists_number hnet.toWired hid hleaf
      rw [if_pos hleaf] at hnumber
      cases hnumeral : Decimal.numeral? (net.nameOf id) with
      | none =>
        rw [hnumeral, Option.none_or] at hnumber
        exact sameFor_of_eq hnumber
      | some y =>
        rw [hnumeral, Option.some_or] at hnumber
        rw [hx, hnumber]
        exact .some (.inl (by rw [hnumeral]; rfl))
    · rw [if_neg hleaf, Option.none_or] at hnumber
      exact sameFor_of_eq hnumber
  · have hgrown : grown.bodyOf? id = some old := ((keeps_addEquation hadd).bodyOf? ha).trans hold
    rw [numberOf?_of_bodyOf? hold, numberOf?_of_bodyOf? hgrown]
    exact .none

/-- A node without a number keeps its links. -/
theorem links_addEquation {id : Nat} {a : Node} (ha : net.node? id = some a)
    (hnone : net.numberOf? id = none) :
    List.Forall₂ net.Stays (net.linksOf id) (grown.linksOf id) := by
  have hgrown := hnet.addEquation hadd
  have hkeeps := keeps_addEquation hadd
  rcases isQuantity_or_body ha with hid | ⟨old, hold⟩
  · have hid' : grown.IsQuantity id := (hkeeps.isQuantity_iff ha).2 hid
    have hleaf : net.nameOf id ∉ body.leafNames := by
      intro hleaf
      obtain ⟨x, hx⟩ := hscreens.exists_number hnet.toWired hid hleaf
      exact absurd hx (by simp [hnone])
    have hnames : grown.linkNames id = net.linkNames id := by
      rw [linkNames_quantity hgrown hid', linkNames_quantity hnet hid, laws_addEquation hadd,
        hkeeps.nameOf ha, List.filter_append]
      simp [hleaf]
    refine forall₂_of_names hnames fun e he e' he' hname => ?_
    obtain ⟨old, hold⟩ := hnet.toWired.exists_body hid he
    obtain ⟨old', hold'⟩ := hgrown.toWired.exists_body hid' he'
    obtain ⟨b, hb, -⟩ := bodyOf?_eq_some.1 hold
    refine ⟨?_, b, hb⟩
    apply hgrown.toWired.equation_eq_of_nameOf_eq ((hkeeps.bodyOf? hb).trans hold) hold'
    rw [hkeeps.nameOf hb, hname]
  · have hold' : grown.bodyOf? id = some old := (hkeeps.bodyOf? ha).trans hold
    have hnames : grown.linkNames id = net.linkNames id := by
      rw [hgrown.linkNames_eq hold', hnet.linkNames_eq hold]
    refine forall₂_of_names hnames fun q hq q' hq' hname => ?_
    obtain ⟨b, hb, hsort⟩ := hnet.toWired.isQuantity_of_link hold hq
    refine ⟨?_, b, hb⟩
    apply hgrown.toWired.eq_of_nameOf_eq ((hkeeps.isQuantity_iff hb).2 ⟨b, hb, hsort⟩)
      (hgrown.toWired.isQuantity_of_link hold' hq')
    rw [hkeeps.nameOf hb, hname]

/-- Every node matches itself in the network with the equation, under any settings. -/
theorem alike_addEquation (settings : Settings) :
    Alike net.Stays (net.perform (.configure settings))
      (grown.perform (.configure settings)) where
  wired := (hnet.perform (.configure settings)).toWired
  wired' := ((hnet.addEquation hadd).perform (.configure settings)).toWired
  maxRewriteSteps := rfl
  unique := by
    rintro i j _ _ ⟨rfl, -⟩ ⟨rfl, -⟩
    exact Iff.rfl
  isQuantity := by
    rintro i _ ⟨rfl, a, ha⟩
    exact (keeps_addEquation hadd).isQuantity_iff ha
  nameOf := by
    rintro i _ ⟨rfl, a, ha⟩
    exact (keeps_addEquation hadd).nameOf ha
  numberOf? := by
    rintro i _ ⟨rfl, a, ha⟩
    exact sameFor_addEquation hnet hadd hscreens ha
  bodyOf? := by
    rintro i _ ⟨rfl, a, ha⟩
    exact (keeps_addEquation hadd).bodyOf? ha
  links := by
    rintro i _ ⟨rfl, a, ha⟩ hnone
    exact links_addEquation hnet hadd hscreens ha hnone

/-- A request for a quantity of the network does the same in both. -/
theorem request_addEquation {name : String} (hname : (net.quantityId? name).isSome = true)
    (hnumeral : name ∈ body.leafNames → Decimal.numeral? name = none) (settings : Settings) :
    (grown.perform (.configure settings)).request name =
      (net.perform (.configure settings)).request name := by
  obtain ⟨id, hid⟩ := Option.isSome_iff_exists.1 hname
  obtain ⟨hquantity, hidname⟩ := isQuantity_of_quantityId? hid
  obtain ⟨a, ha⟩ := hquantity.exists_node
  have hkeeps := keeps_addEquation hadd
  have hid' : grown.quantityId? name = some id := by
    rw [← hidname, ← hkeeps.nameOf ha]
    have hwired := (hnet.addEquation hadd).toWired
    exact hwired.quantityId?_nameOf ((hkeeps.isQuantity_iff ha).2 hquantity)
  have hnumber : grown.numberOf? id = net.numberOf? id := by
    rw [numberOf?_addEquation hnet hadd hquantity, hidname]
    by_cases hleaf : name ∈ body.leafNames
    · rw [if_pos hleaf, hnumeral hleaf, Option.none_or]
    · rw [if_neg hleaf, Option.none_or]
  exact request_abreast (alike_addEquation hnet hadd hscreens settings) (.inl rfl) ⟨rfl, a, ha⟩
    hnumber hid hid'

end Grown

/-! ## Answers -/

/-- **An equation behind known numbers changes no answer**, whatever the settings: each quantity
that was there is answered as before, unless it is a numeral of the equation. -/
theorem resolve_addEquation {p : Expr → Prop} (hnet : net.Reachable p) {equation : String}
    {body : Expr} {grown : Network} {place : Nat}
    (hadd : net.addEquation equation body = .ok (grown, place)) (hscreens : net.Screens body)
    {name : String} (hname : (net.quantityId? name).isSome = true)
    (hnumeral : name ∈ body.leafNames → Decimal.numeral? name = none) (settings : Settings) :
    (grown.perform (.configure settings)).resolve name =
      (net.perform (.configure settings)).resolve name := by
  rw [resolve, resolve, request_addEquation hnet.consistent hadd hscreens hname hnumeral]

/-- The number of `x` is known and that of `2` was changed.  The equation `z = x * 2` is linked to
both of them and gives `2` its own number back, and `y = x + 2` answers as before. -/
theorem resolve_addEquation_product :
    ∃ (net grown : Network) (place : Nat) (body : Expr), net.Reachable (fun _ => True) ∧
      net.addEquation "product" body = .ok (grown, place) ∧ net.Screens body ∧
      body.leafNames = ["z", "x", "2"] ∧ net.quantityNames = ["y", "x", "2"] ∧
      (net.quantityId? "y").isSome = true ∧ Decimal.numeral? "y" = none ∧
      (grown.perform (.configure .default)).resolve "y" =
        (net.perform (.configure .default)).resolve "y" := by
  let sum : Expr := .binary .equals ⟨.equals, "=", ⟨3, 3⟩⟩ (.leaf ⟨.name, "y", ⟨1, 1⟩⟩)
    (.binary .add ⟨.operator, "+", ⟨7, 7⟩⟩ (.leaf ⟨.name, "x", ⟨5, 5⟩⟩)
      (.leaf ⟨.number, "2", ⟨9, 9⟩⟩))
  let body : Expr := .binary .equals ⟨.equals, "=", ⟨3, 3⟩⟩ (.leaf ⟨.name, "z", ⟨1, 1⟩⟩)
    (.binary .mul ⟨.operator, "*", ⟨7, 7⟩⟩ (.leaf ⟨.name, "x", ⟨5, 5⟩⟩)
      (.leaf ⟨.number, "2", ⟨9, 9⟩⟩))
  let net := (empty .default).performAll
    [.addEquation "sum" sum, .setQuantity "x" 1, .setQuantity "2" 5]
  have hnet : net.Reachable fun _ => True :=
    (Reachable.empty .default).performAll fun op _ => op.admits_true
  have hleaves : body.leafNames = ["z", "x", "2"] := by decide +kernel
  have hscreens : net.Screens body := by
    intro name hname
    rw [hleaves] at hname
    simp only [List.mem_cons, List.not_mem_nil, or_false] at hname
    rcases hname with rfl | rfl | rfl <;> decide +kernel
  have hy : (net.quantityId? "y").isSome = true := by decide +kernel
  have hnumeral : Decimal.numeral? "y" = none := by decide +kernel
  obtain ⟨⟨grown, place⟩, hadd⟩ : ∃ added, net.addEquation "product" body = .ok added :=
    ⟨_, rfl⟩
  exact ⟨net, grown, place, body, hnet, hadd, hscreens, hleaves, by decide +kernel, hy, hnumeral,
    resolve_addEquation hnet hadd hscreens hy (fun _ => hnumeral) .default⟩

end EquationNetwork.Network
