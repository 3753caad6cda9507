import EquationNetwork.Proofs.Expr.Printable
import EquationNetwork.Proofs.Network.Listing

/-!
# Growth

What a network is after one more equation, node for node.  Linking the equation to its leaves, one
after the other, adds the quantities that are missing and changes those that are there, so the nodes
after some leaves are told by the nodes before all of them.

* `Node.linkedTo` — a node once an equation is linked to the quantities of some names.
* `Network.newNames`, `Network.placeOf` — the names that need a quantity, and where the quantity of
  a name is.
* `Network.withEquation` — the network with an equation that is linked to quantities of some names.
* `Network.attach_withEquation` — **one more leaf** leads to the network with one more name, whether
  its quantity was there (`attach_of_some`) or not (`attach_of_none`).
* `Network.addEquation_effect` — **what adding an equation does.**
-/

namespace EquationNetwork

/-! ## Nodes -/

namespace Node

/-- A node once an equation at a place is linked to the quantities of some names.  Such a quantity
has one more link, and if its name is a numeral, then the number of that. -/
def linkedTo (place : Nat) (names : List String) : Node → Node
  | quantity name number links =>
      if name ∈ names then
        quantity name ((Decimal.numeral? name).or number) (links ++ [place])
      else quantity name number links
  | equation name body links => equation name body links

variable {place : Nat} {names : List String} {leaf : String}

theorem linkedTo_nil (a : Node) (place : Nat) : a.linkedTo place [] = a := by
  cases a <;> simp [linkedTo]

theorem isQuantityNamed_linkedTo (place : Nat) (names : List String) (name : String)
    (a : Node) : (a.linkedTo place names).isQuantityNamed name = a.isQuantityNamed name := by
  cases a with
  | quantity name number links =>
    rw [linkedTo]
    split <;> rfl
  | equation name body links => rfl

/-- One more name is nothing to the nodes that are no quantity of that name. -/
theorem linkedTo_concat_of_not {a : Node} (ha : ¬ a.isQuantityNamed leaf = true) :
    a.linkedTo place (names ++ [leaf]) = a.linkedTo place names := by
  cases a with
  | quantity name number links =>
    have hname : name ≠ leaf := fun h => ha (isQuantityNamed_iff.2 ⟨rfl, h⟩)
    simp [linkedTo, hname]
  | equation name body links => rfl

/-- The quantity of one more name has one more link. -/
theorem linkedTo_concat_self {a : Node} (ha : a.isQuantityNamed leaf = true) :
    a.linkedTo place (names ++ [leaf]) =
      ((Decimal.numeral? leaf).elim a a.setNumber).addLink place := by
  cases a with
  | quantity name number links =>
    obtain rfl : name = leaf := (isQuantityNamed_iff.1 ha).2
    cases hnumeral : Decimal.numeral? name with
    | none => simp [linkedTo, addLink, hnumeral]
    | some x => simp [linkedTo, addLink, setNumber, hnumeral]
  | equation name body links => exact absurd (isQuantityNamed_iff.1 ha).1 (by simp [isQuantity])

theorem linkedTo_of_notMem {a : Node} (ha : a.isQuantityNamed leaf = true) (hnew : leaf ∉ names) :
    a.linkedTo place names = a := by
  cases a with
  | quantity name number links =>
    obtain rfl : name = leaf := (isQuantityNamed_iff.1 ha).2
    simp [linkedTo, hnew]
  | equation name body links => rfl

end Node

/-! ## The network with an equation -/

namespace Network

/-- The names that no quantity of the network has. -/
def newNames (net : Network) (names : List String) : List String :=
  names.filter fun name => name ∉ net.quantityNames

/-- Where the quantity of a name is, once an equation and the quantities of new names are added. -/
def placeOf (net : Network) (names : List String) (name : String) : Nat :=
  (net.quantityId? name).getD (net.size + 1 + (net.newNames names).idxOf name)

/-- The network with an equation that is linked to the quantities of some names. -/
def withEquation (net : Network) (name : String) (body : Expr) (names : List String) : Network :=
  { net with
    nodes := net.nodes.map (Node.linkedTo net.size names) ++
      .equation name body (names.map (net.placeOf names)) ::
        (net.newNames names).map fun leaf => .quantity leaf (Decimal.numeral? leaf) [net.size] }

variable {net : Network} {name leaf : String} {body : Expr} {names : List String}

theorem ext_node? {net' : Network} (hsettings : net.settings = net'.settings)
    (hnodes : ∀ i, net.node? i = net'.node? i) : net = net' := by
  obtain ⟨nodes, settings⟩ := net
  obtain ⟨nodes', settings'⟩ := net'
  obtain rfl : settings = settings' := hsettings
  obtain rfl : nodes = nodes' := List.ext_getElem? hnodes
  rfl

theorem quantityId?_eq_none_iff : net.quantityId? leaf = none ↔ leaf ∉ net.quantityNames := by
  rw [mem_quantityNames, Bool.not_eq_true, Option.isSome_eq_false_iff, Option.isNone_iff_eq_none]

theorem newNames_concat_of_some {id : Nat} (h : net.quantityId? leaf = some id) :
    net.newNames (names ++ [leaf]) = net.newNames names := by
  have hold : leaf ∈ net.quantityNames := by simp [mem_quantityNames, h]
  simp [newNames, hold]

theorem newNames_concat_of_none (h : net.quantityId? leaf = none) :
    net.newNames (names ++ [leaf]) = net.newNames names ++ [leaf] := by
  simp [newNames, quantityId?_eq_none_iff.1 h]

/-- The quantities of the names so far stay where they are. -/
theorem map_placeOf_concat (net : Network) (names : List String) (leaf : String) :
    (names ++ [leaf]).map (net.placeOf (names ++ [leaf])) =
      names.map (net.placeOf names) ++ [net.placeOf (names ++ [leaf]) leaf] := by
  rw [List.map_append, List.map_singleton]
  congr 1
  refine List.map_congr_left fun other hother => ?_
  cases hid : net.quantityId? other with
  | some id => rw [placeOf, placeOf, hid, Option.getD_some, Option.getD_some]
  | none =>
    have hmem : other ∈ net.newNames names := by
      simp [newNames, hother, quantityId?_eq_none_iff.1 hid]
    have happend : net.newNames (names ++ [leaf]) = net.newNames names ++ net.newNames [leaf] :=
      List.filter_append ..
    rw [placeOf, placeOf, happend, List.idxOf_append_of_mem hmem]

/-! ### Its nodes -/

theorem size_withEquation (net : Network) (name : String) (body : Expr) (names : List String) :
    (net.withEquation name body names).size = net.size + 1 + (net.newNames names).length := by
  simp only [withEquation, size, List.length_append, List.length_map, List.length_cons]
  omega

theorem node?_withEquation_old {i : Nat} (hi : i < net.size) :
    (net.withEquation name body names).node? i =
      (net.node? i).map (Node.linkedTo net.size names) := by
  have hlt : i < (net.nodes.map (Node.linkedTo net.size names)).length := by
    rwa [List.length_map]
  rw [node?, withEquation, List.getElem?_append_left hlt, List.getElem?_map]
  rfl

theorem node?_withEquation_equation :
    (net.withEquation name body names).node? net.size =
      some (.equation name body (names.map (net.placeOf names))) := by
  have hle : (net.nodes.map (Node.linkedTo net.size names)).length ≤ net.size :=
    (List.length_map _).le
  rw [node?, withEquation, List.getElem?_append_right hle, List.length_map, size, Nat.sub_self]
  rfl

theorem node?_withEquation_new (k : Nat) :
    (net.withEquation name body names).node? (net.size + 1 + k) =
      (net.newNames names)[k]?.map fun leaf =>
        .quantity leaf (Decimal.numeral? leaf) [net.size] := by
  have hle : (net.nodes.map (Node.linkedTo net.size names)).length ≤ net.size + 1 + k := by
    rw [List.length_map, ← size]
    omega
  have hplace : net.size + 1 + k - net.nodes.length = k + 1 := by
    rw [← size]
    omega
  rw [node?, withEquation, List.getElem?_append_right hle, List.length_map, hplace,
    List.getElem?_cons_succ, List.getElem?_map]

/-- A place is one of the old nodes, that of the equation, or comes after it. -/
theorem place_cases (net : Network) (i : Nat) :
    i < net.size ∨ i = net.size ∨ ∃ k, i = net.size + 1 + k := by
  rcases Nat.lt_trichotomy i net.size with hlt | heq | hgt
  · exact .inl hlt
  · exact .inr (.inl heq)
  · exact .inr (.inr ⟨i - (net.size + 1), by omega⟩)

/-- A name that is not among those that are linked has the quantity that it had. -/
theorem quantityId?_withEquation (hnew : leaf ∉ names) :
    (net.withEquation name body names).quantityId? leaf = net.quantityId? leaf := by
  have hold : (net.nodes.map (Node.linkedTo net.size names)).findIdx?
      (Node.isQuantityNamed leaf) = net.quantityId? leaf := by
    rw [List.findIdx?_map, quantityId?]
    congr 1
    funext a
    exact a.isQuantityNamed_linkedTo net.size names leaf
  have hrest : (Node.equation name body (names.map (net.placeOf names)) ::
      (net.newNames names).map fun leaf => .quantity leaf (Decimal.numeral? leaf) [net.size]).findIdx?
        (Node.isQuantityNamed leaf) = none := by
    rw [List.findIdx?_eq_none_iff]
    intro a ha
    rcases List.mem_cons.1 ha with rfl | ha
    · rfl
    · obtain ⟨other, hother, rfl⟩ := List.mem_map.1 ha
      have hne : other ≠ leaf := by
        rintro rfl
        exact hnew (List.mem_filter.1 hother).1
      simpa [Node.isQuantityNamed, Node.isQuantity, Node.name] using hne
  rw [quantityId?, withEquation, List.findIdx?_append, hold, hrest, Option.map_none, Option.or_none]

/-- A quantity that is there takes the number that is given, if one is given. -/
theorem addQuantity_of_some {id : Nat} (h : net.quantityId? leaf = some id)
    (number : Option Float) :
    net.addQuantity leaf number =
      (net.modify id fun a => number.elim a a.setNumber, id) := by
  rw [addQuantity, h]
  cases number with
  | some x => rfl
  | none =>
    have hsame : (net.modify id fun a => a) = net :=
      congrArg (Network.mk · net.settings) (List.modify_id id net.nodes)
    exact congrArg (·, id) hsame.symm

theorem addQuantity_of_none (h : net.quantityId? leaf = none) (number : Option Float) :
    net.addQuantity leaf number = net.push (.quantity leaf number []) := by
  rw [addQuantity, h]

/-! ## Linking -/

/-- The quantity of one more leaf was there. -/
theorem attach_of_some (hnet : net.Wired) (hnew : leaf ∉ names) {id : Nat}
    (hid : net.quantityId? leaf = some id) :
    attach net.size (net.withEquation name body names) leaf =
      net.withEquation name body (names ++ [leaf]) := by
  obtain ⟨a, ha, hquantity, rfl⟩ := quantityId?_eq_some hid
  have hlt : id < net.size := nodes_lt ha
  have hnamed : a.isQuantityNamed a.name = true := Node.isQuantityNamed_iff.2 ⟨hquantity, rfl⟩
  have hplace : net.placeOf (names ++ [a.name]) a.name = id := by
    rw [placeOf, hid, Option.getD_some]
  rw [attach_eq, addQuantity_of_some ((quantityId?_withEquation hnew).trans hid), link]
  refine ext_node? rfl fun i => ?_
  rw [node?_modify, node?_modify, node?_modify]
  -- Of the old nodes only the quantity changes; the equation gets a link, and nothing is new.
  rcases net.place_cases i with hi | rfl | ⟨k, rfl⟩
  · rw [node?_withEquation_old hi, node?_withEquation_old hi, if_neg (Nat.ne_of_lt hi)]
    rcases eq_or_ne i id with rfl | hne
    · simp [ha, Node.linkedTo_of_notMem hnamed hnew, Node.linkedTo_concat_self hnamed]
    · rw [if_neg hne, if_neg hne]
      refine Option.map_congr fun b hb => (Node.linkedTo_concat_of_not fun hbnamed => ?_).symm
      obtain ⟨hbquantity, hbname⟩ := Node.isQuantityNamed_iff.1 hbnamed
      exact hne (hnet.distinct hb ha (hbquantity.trans hquantity.symm) hbname)
  · rw [if_neg (Nat.ne_of_gt hlt), if_pos rfl, if_neg (Nat.ne_of_gt hlt), node?_withEquation_equation,
      node?_withEquation_equation, map_placeOf_concat, hplace]
    rfl
  · rw [if_neg (by omega), if_neg (by omega), if_neg (by omega), node?_withEquation_new,
      node?_withEquation_new, newNames_concat_of_some hid]

/-- The quantity of one more leaf comes last. -/
theorem attach_of_none (hnew : leaf ∉ names) (hid : net.quantityId? leaf = none) :
    attach net.size (net.withEquation name body names) leaf =
      net.withEquation name body (names ++ [leaf]) := by
  have hplace : net.placeOf (names ++ [leaf]) leaf =
      net.size + 1 + (net.newNames names).length := by
    have hnot : leaf ∉ net.newNames names := fun hmem => hnew (List.mem_filter.1 hmem).1
    rw [placeOf, hid, Option.getD_none, newNames_concat_of_none hid,
      List.idxOf_append_of_notMem hnot, List.idxOf_cons_self]
    rfl
  rw [attach_eq, addQuantity_of_none ((quantityId?_withEquation hnew).trans hid), link]
  refine ext_node? rfl fun i => ?_
  rw [node?_modify, node?_modify, node?_push]
  simp only [push, size_withEquation]
  -- The old nodes stay; the equation gets a link, and the quantity comes after the new ones so far.
  rcases net.place_cases i with hi | rfl | ⟨k, rfl⟩
  · rw [if_neg (by omega), if_neg (by omega), if_neg (by omega), node?_withEquation_old hi,
      node?_withEquation_old hi]
    refine Option.map_congr fun b hb => (Node.linkedTo_concat_of_not fun hbnamed => ?_).symm
    obtain ⟨hbquantity, hbname⟩ := Node.isQuantityNamed_iff.1 hbnamed
    exact quantityId?_eq_none hid hb hbquantity hbname
  · rw [if_neg (by omega), if_pos rfl, if_neg (by omega), node?_withEquation_equation,
      node?_withEquation_equation, map_placeOf_concat, hplace]
    rfl
  · rw [if_neg (show net.size + 1 + k ≠ net.size by omega), node?_withEquation_new,
      node?_withEquation_new, newNames_concat_of_none hid]
    rcases Nat.lt_trichotomy k (net.newNames names).length with hk | rfl | hk
    · rw [if_neg (by omega), if_neg (by omega), List.getElem?_append_left hk]
    · rw [if_pos rfl, if_pos rfl, List.getElem?_concat_length]
      rfl
    · rw [if_neg (by omega), if_neg (by omega), List.getElem?_eq_none (by omega),
        List.getElem?_eq_none (by rw [List.length_append, List.length_singleton]; omega)]

/-- **One more leaf** leads to the network with one more name. -/
theorem attach_withEquation (hnet : net.Wired) (hnew : leaf ∉ names) :
    attach net.size (net.withEquation name body names) leaf =
      net.withEquation name body (names ++ [leaf]) := by
  cases hid : net.quantityId? leaf with
  | some id => exact attach_of_some hnet hnew hid
  | none => exact attach_of_none hnew hid

theorem withEquation_nil (net : Network) (name : String) (body : Expr) :
    net.withEquation name body [] = (net.push (.equation name body [])).1 := by
  have hnodes : net.nodes.map (Node.linkedTo net.size []) = net.nodes :=
    (List.map_congr_left fun a _ => a.linkedTo_nil net.size).trans (List.map_id' _)
  simp [withEquation, push, newNames, hnodes]

/-- **All leaves** lead to the network with all names. -/
theorem attachAll_eq (hnet : net.Wired) (hnodup : names.Nodup) :
    names.foldl (attach net.size) (net.push (.equation name body [])).1 =
      net.withEquation name body names := by
  -- From the end, since the network after some leaves is told by the one before all of them.
  induction names using List.reverseRecOn with
  | nil => rw [withEquation_nil, List.foldl_nil]
  | append_singleton names leaf ih =>
    obtain ⟨hnames, -, hdisjoint⟩ := List.nodup_append.1 hnodup
    have hnew : leaf ∉ names := fun hmem =>
      hdisjoint leaf hmem leaf (List.mem_singleton_self leaf) rfl
    rw [List.foldl_append, ih hnames, List.foldl_cons, List.foldl_nil,
      attach_withEquation hnet hnew]

/-! ## Adding an equation -/

/-- Adding an equation at once. -/
theorem addEquation_eq (hnet : net.Wired) (name : String) (body : Expr) :
    net.addEquation name body =
      if name ∈ net.equationNames then .error (.duplicate name)
      else if body.isEquation = false then .error (.notAnEquation name)
      else if body.leafNames.length < 2 then .error (.degenerate name body.leafNames.length)
      else .ok (net.withEquation name body body.leafNames, net.size) := by
  have hall : body.leafNames.foldl (attach net.size) (net.push (.equation name body [])).1 =
      net.withEquation name body body.leafNames := attachAll_eq hnet (nodup_eraseDups _)
  rw [← hall]
  simp only [addEquation, mem_equationNames, Bool.not_eq_true']
  rfl

/-- **What adding an equation does.**  The equation is refused if its name is that of another one,
else if it has no `=` at the root, else if it has fewer than two leaves of different names, and then
the network stays as it is.  Otherwise the equation comes after all nodes, and after it come
quantities of those of its leaves that had none, in order; the nodes before them stay, but for the
quantities of its leaves, which are linked to it and take their numbers from their names, if these
are numerals.  These are the numbers that a text gives to the leaves. -/
theorem addEquation_effect {p : Expr → Prop} {net : Network} (hnet : net.Reachable p)
    (name : String) (body : Expr) :
    net.addEquation name body =
        (if name ∈ net.equationNames then .error (.duplicate name)
        else if body.isEquation = false then .error (.notAnEquation name)
        else if body.leafNames.length < 2 then .error (.degenerate name body.leafNames.length)
        else .ok (net.withEquation name body body.leafNames, net.size)) ∧
      (∀ error, net.addEquation name body = .error error →
        net.perform (.addEquation name body) = net) ∧
      (body.IsRead → ∀ t ∈ body.leaves, t.value? = Decimal.numeral? t.lexeme ∧
        (t.value?.isSome = true ↔ t.kind = .number)) := by
  refine ⟨addEquation_eq hnet.consistent.toWired name body, fun error herror => ?_, ?_⟩
  · rw [perform, herror]
  · rintro ⟨limit, text, hread⟩ t ht
    have hoperand := (wellFormed_of_read hread).legible.isOperand t ht
    exact ⟨Token.value?_eq_numeral? hoperand.kind, hoperand.isSome_value?_iff⟩

/-- The quantity of `2` was given another number, and an equation with a `2` gives it its own. -/
theorem addEquation_effect_product :
    ∃ (net : Network) (body : Expr), net.Reachable (fun _ => True) ∧ body.IsRead ∧
      net.quantityNames = ["y", "x", "2"] ∧ net.value? "2" = some 5 ∧
      net.addEquation "product" body =
        .ok (net.withEquation "product" body ["z", "x", "2"], 4) ∧
      (net.withEquation "product" body ["z", "x", "2"]).nodes.map Node.name =
        ["sum", "y", "x", "2", "product", "z"] ∧
      (net.withEquation "product" body ["z", "x", "2"]).nodes.map Node.links =
        [[1, 2, 3], [0], [0, 4], [0, 4], [5, 2, 3], [4]] ∧
      (net.withEquation "product" body ["z", "x", "2"]).nodes.map Node.number? =
        [none, none, some 1, some 2, none, none] ∧
      (∀ t ∈ body.leaves, t.value? = Decimal.numeral? t.lexeme ∧
        (t.value?.isSome = true ↔ t.kind = .number)) := by
  let sum : Expr := .binary .equals ⟨.equals, "=", ⟨3, 3⟩⟩ (.leaf ⟨.name, "y", ⟨1, 1⟩⟩)
    (.binary .add ⟨.operator, "+", ⟨7, 7⟩⟩ (.leaf ⟨.name, "x", ⟨5, 5⟩⟩)
      (.leaf ⟨.number, "2", ⟨9, 9⟩⟩))
  let body : Expr := .binary .equals ⟨.equals, "=", ⟨3, 3⟩⟩ (.leaf ⟨.name, "z", ⟨1, 1⟩⟩)
    (.binary .mul ⟨.operator, "*", ⟨7, 7⟩⟩ (.leaf ⟨.name, "x", ⟨5, 5⟩⟩)
      (.leaf ⟨.number, "2", ⟨9, 9⟩⟩))
  let net := (empty .default).performAll
    [.addEquation "sum" sum, .setQuantity "x" 1, .setQuantity "2" 5]
  have hnet : net.Reachable fun _ => True :=
    (Reachable.empty .default).performAll fun op _ => op.admits_true
  have hread : body.IsRead := ⟨256, "z = x * 2", by decide +kernel⟩
  have hname : "product" ∉ net.equationNames := by decide +kernel
  have hleafNames : body.leafNames = ["z", "x", "2"] := by decide +kernel
  have hsize : net.size = 4 := by decide +kernel
  obtain ⟨hadd, -, hleaves⟩ := addEquation_effect hnet "product" body
  rw [if_neg hname, if_neg (by decide), hleafNames, if_neg (by decide), hsize] at hadd
  exact ⟨net, body, hnet, hread, by decide +kernel, by decide +kernel, hadd, by decide +kernel,
    by decide +kernel, by decide +kernel, hleaves hread⟩

end Network

end EquationNetwork
