import EquationNetwork.Proofs.Network.Laws

/-!
# Histories

What a network is like after operations that add equations and quantities and set numbers.  Its laws
come from the equations alone, and its numbers from the last number given to each name, so it does
not matter when a number was given.

* `Operation.Plain`, `Operation.law?`, `Operation.given?` — what an operation adds.
* `Network.laws_performAll` — the laws after operations.
* `Network.value?_performAll`, `Network.value?_numeral` — the number of a name after operations.
* `Network.resolve_performAll` — **when a number is given does not matter.**
-/

namespace EquationNetwork

/-! ## What operations add -/

namespace Operation

/-- The operation adds an equation, or it adds a quantity or sets its number and does not name a
numeral. -/
def Plain : Operation → Prop
  | addQuantity name _ => Decimal.numeral? name = none
  | setQuantity name _ => Decimal.numeral? name = none
  | addEquation _ _ => True
  | record _ => False
  | configure _ => False

/-- The equation that the operation adds. -/
def law? : Operation → Option (String × Expr)
  | addEquation name body => some (name, body)
  | _ => none

/-- The number that the operation gives to a name. -/
def given? (name : String) : Operation → Option Float
  | addQuantity quantity number => if quantity = name then number else none
  | setQuantity quantity number => if quantity = name then some number else none
  | _ => none

end Operation

namespace Network

variable {net : Network}

/-! ## Laws -/

theorem map_modify_of {α β : Type} {f : α → β} {g : α → α} (h : ∀ a, f (g a) = f a) (l : List α)
    (i : Nat) : (l.modify i g).map f = l.map f := by
  refine List.ext_getElem? fun j => ?_
  rw [List.getElem?_map, List.getElem?_map, List.getElem?_modify]
  by_cases hij : i = j
  · cases l[j]? <;> simp [hij, h]
  · cases l[j]? <;> simp [hij]

theorem laws_push (net : Network) (node : Node) :
    (net.push node).1.laws = net.laws ++ node.law?.toList := by
  rw [laws, push, List.filterMap_append]
  cases hlaw : node.law? with
  | none => rw [List.filterMap_cons_none hlaw]; rfl
  | some law => rw [List.filterMap_cons_some hlaw]; rfl

theorem laws_modify (net : Network) (id : Nat) {f : Node → Node} (hf : ∀ a, (f a).law? = a.law?) :
    (net.modify id f).laws = net.laws := by
  have hmap : ∀ nodes : List Node, nodes.filterMap Node.law? =
      (nodes.map Node.law?).filterMap fun law => law := fun nodes => by
    rw [List.filterMap_map]
    rfl
  rw [laws, laws, hmap, hmap, modify, map_modify_of hf]

theorem law?_addLink (id : Nat) (a : Node) : (a.addLink id).law? = a.law? := by cases a <;> rfl

theorem law?_setNumber (x : Float) (a : Node) : (a.setNumber x).law? = a.law? := by cases a <;> rfl

theorem laws_addQuantity (net : Network) (name : String) (number : Option Float) :
    (net.addQuantity name number).1.laws = net.laws := by
  unfold addQuantity
  split
  · rw [laws_push]
    exact List.append_nil _
  · cases number with
    | none => rfl
    | some x => exact laws_modify net _ (law?_setNumber x)

/-- What adding a quantity and adding a link keep, linking an equation to its leaves keeps. -/
theorem attachAll_induction {P : Network → Prop}
    (hquantity : ∀ net name number, P net → P (Network.addQuantity net name number).1)
    (hlink : ∀ net id other, P net → P (Network.modify net id (Node.addLink other)))
    (equation : Nat) (names : List String) (h : P net) : P (names.foldl (attach equation) net) := by
  refine List.foldlRecOn names (attach equation) h fun before hbefore name _ => ?_
  rw [attach_eq, link]
  apply hlink
  apply hlink
  exact hquantity before name _ hbefore

theorem laws_attachAll (equation : Nat) (names : List String) (net : Network) :
    (names.foldl (attach equation) net).laws = net.laws := by
  apply attachAll_induction (P := fun grown => grown.laws = net.laws)
  · intro before name number hbefore
    rw [laws_addQuantity, hbefore]
  · intro before id other hbefore
    rw [laws_modify before id (law?_addLink other), hbefore]
  · rfl

/-- An equation that is added is a law from then on. -/
theorem laws_addEquation {equation : String} {body : Expr} {grown : Network} {id : Nat}
    (hadd : net.addEquation equation body = .ok (grown, id)) :
    grown.laws = net.laws ++ [(equation, body)] := by
  obtain ⟨-, -, -, -, rfl⟩ := addEquation_ok hadd
  rw [laws_attachAll, laws_push]
  rfl

/-- Laws with one more, if it is an equation between two quantities at least and its name is new. -/
def enact (laws : List (String × Expr)) (law : String × Expr) : List (String × Expr) :=
  if laws.any (·.1 == law.1) || !law.2.isEquation || law.2.leafNames.length < 2 then laws
  else laws ++ [law]

theorem isSome_equationId? (net : Network) (name : String) :
    (net.equationId? name).isSome = net.laws.any (·.1 == name) := by
  rw [equationId?, List.findIdx?_isSome, laws, List.any_filterMap]
  congr 1
  funext a
  cases a <;> rfl

theorem laws_perform (net : Network) (op : Operation) :
    (net.perform op).laws = op.law?.elim net.laws (enact net.laws) := by
  cases op with
  | addQuantity name number => exact laws_addQuantity net name number
  | setQuantity name number => exact laws_addQuantity net name (some number)
  | addEquation name body =>
    show _ = enact net.laws (name, body)
    rw [perform, enact, ← isSome_equationId?]
    cases hadd : net.addEquation name body with
    | ok grown =>
      obtain ⟨hfresh, hequation, hlength, -, -⟩ := addEquation_ok hadd
      have hmany : ¬ body.leafNames.length < 2 := by omega
      rw [if_neg (by simp [hfresh, hequation, hmany])]
      exact laws_addEquation hadd
    | error error =>
      -- An equation is refused for one of three reasons, and each of them keeps it from the laws.
      rw [addEquation] at hadd
      refine (if_pos ?_).symm
      by_contra hnot
      simp only [Bool.or_eq_true, not_or, Bool.not_eq_true, decide_eq_true_eq] at hnot
      obtain ⟨⟨hfresh, hequation⟩, hlength⟩ := hnot
      simp [hfresh, hequation, hlength] at hadd
  | record resolutions =>
    exact record_induction (P := fun grown => grown.laws = net.laws)
      (fun before name x h => (laws_addQuantity before name (some x)).trans h) rfl
  | configure settings => rfl

/-- The laws after operations come from the equations that were added. -/
theorem laws_performAll {ops : List Operation} :
    ∀ net : Network,
      (net.performAll ops).laws = (ops.filterMap Operation.law?).foldl enact net.laws := by
  induction ops with
  | nil => exact fun _ => rfl
  | cons op ops ih =>
    intro net
    have hstep := laws_perform net op
    rw [performAll, List.foldl_cons, ← performAll, ih, hstep]
    cases hlaw : op.law? with
    | none => rw [List.filterMap_cons_none hlaw]; rfl
    | some law => rw [List.filterMap_cons_some hlaw]; rfl

/-! ## Numbers -/

theorem quantityId?_push (net : Network) (node : Node) (name : String) :
    (net.push node).1.quantityId? name =
      (net.quantityId? name).or (if node.isQuantityNamed name then some net.size else none) := by
  rw [quantityId?, push, List.findIdx?_append, List.findIdx?_singleton]
  cases node.isQuantityNamed name <;> simp [quantityId?, size]

theorem quantityId?_modify (net : Network) (id : Nat) {f : Node → Node} (name : String)
    (hf : ∀ a, (f a).isQuantityNamed name = a.isQuantityNamed name) :
    (net.modify id f).quantityId? name = net.quantityId? name := by
  have hmap : ∀ nodes : List Node, nodes.findIdx? (Node.isQuantityNamed name) =
      (nodes.map (Node.isQuantityNamed name)).findIdx? fun named => named := fun nodes => by
    rw [List.findIdx?_map]
    rfl
  rw [quantityId?, quantityId?, hmap, hmap, modify, map_modify_of hf]

/-- A change that keeps the sort and the name of a node keeps the numbers of all names but that of
the node, and that one, too, if it keeps the node's number. -/
theorem value?_modify (net : Network) (id : Nat) {f : Node → Node} (name : String)
    (hf : ∀ a, (f a).isQuantityNamed name = a.isQuantityNamed name)
    (hnumber : ∀ a, net.node? id = some a → a.isQuantityNamed name = true →
      (f a).number? = a.number?) :
    (net.modify id f).value? name = net.value? name := by
  rw [value?, value?, quantityId?_modify net id name hf]
  cases hid : net.quantityId? name with
  | none => rfl
  | some i =>
    obtain ⟨a, ha, hquantity, hname⟩ := quantityId?_eq_some hid
    have hnamed : a.isQuantityNamed name = true := Node.isQuantityNamed_iff.2 ⟨hquantity, hname⟩
    show (net.modify id f).numberOf? i = net.numberOf? i
    rw [numberOf?, numberOf?, node?_modify, ha]
    by_cases hi : i = id
    · rw [if_pos hi]
      exact hnumber a (hi ▸ ha) hnamed
    · rw [if_neg hi]

theorem value?_addLink (net : Network) (id j : Nat) (name : String) :
    (net.modify id (Node.addLink j)).value? name = net.value? name :=
  value?_modify net id name (fun a => by simp [Node.isQuantityNamed]) fun a _ _ => by
    cases a <;> rfl

/-- A node that is pushed brings its number, if its name is new. -/
theorem value?_push (net : Network) (node : Node) (name : String) :
    (net.push node).1.value? name =
      if (net.quantityId? name).isSome then net.value? name
      else if node.isQuantityNamed name then node.number? else none := by
  rw [value?, quantityId?_push]
  cases hid : net.quantityId? name with
  | some i =>
    obtain ⟨a, ha, -⟩ := quantityId?_eq_some hid
    have hi : i ≠ net.size := Nat.ne_of_lt (nodes_lt ha)
    show (net.push node).1.numberOf? i = _
    rw [numberOf?, node?_push, if_neg hi, value?, hid]
    rfl
  | none =>
    cases hnamed : node.isQuantityNamed name with
    | false => simp
    | true =>
      show (net.push node).1.numberOf? net.size = _
      rw [numberOf?, node?_push, if_pos rfl]
      rfl

theorem value?_addQuantity (net : Network) (quantity : String) (number : Option Float)
    (name : String) :
    (net.addQuantity quantity number).1.value? name =
      (if quantity = name then number else none).or (net.value? name) := by
  have hpushed : (Node.quantity quantity number []).isQuantityNamed name = (quantity == name) := rfl
  unfold addQuantity
  cases hid : net.quantityId? quantity with
  | none =>
    show (net.push _).1.value? name = _
    rw [value?_push, hpushed]
    by_cases hname : quantity = name
    · subst hname
      simp [hid, value?, Node.number?]
    · have hsame : (if (net.quantityId? name).isSome then net.value? name else none) =
          net.value? name := by
        cases hother : net.quantityId? name <;> simp [value?, hother]
      simp [hname, hsame]
  | some id =>
    cases number with
    | none => simp
    | some x =>
      show (net.modify id (Node.setNumber x)).value? name = _
      by_cases hname : quantity = name
      · subst hname
        obtain ⟨a, ha, hquantity, -⟩ := quantityId?_eq_some hid
        rw [value?, quantityId?_modify net id quantity fun a => by simp [Node.isQuantityNamed], hid]
        show (net.modify id (Node.setNumber x)).numberOf? id = _
        rw [numberOf?, node?_modify, if_pos rfl, ha]
        cases a with
        | quantity name number links => simp [Node.setNumber, Node.number?]
        | equation name body links => exact absurd hquantity (by simp [Node.isQuantity])
      · rw [if_neg hname, Option.none_or]
        refine value?_modify net id name (fun a => by simp [Node.isQuantityNamed]) ?_
        intro a ha hnamed
        obtain ⟨a', ha', -, hname'⟩ := quantityId?_eq_some hid
        obtain rfl : a = a' := Option.some.inj (ha.symm.trans ha')
        exact absurd (hname'.symm.trans (Node.isQuantityNamed_iff.1 hnamed).2) hname

/-- Linking an equation gives a number to the numerals among the names and to no other. -/
theorem value?_attachAll (equation : Nat) {names : List String} (name : String) :
    ∀ net : Network, (names.foldl (attach equation) net).value? name =
      (if name ∈ names then Decimal.numeral? name else none).or (net.value? name) := by
  induction names with
  | nil => intro net; simp
  | cons first names ih =>
    intro net
    rw [List.foldl_cons, ih, attach_eq, link, value?_addLink, value?_addLink, value?_addQuantity]
    by_cases hfirst : first = name
    · subst hfirst
      cases Decimal.numeral? first with
      | none => simp
      | some x => by_cases hmem : first ∈ names <;> simp [hmem]
    · have hfirst' : name ≠ first := fun h => hfirst h.symm
      simp [hfirst, hfirst']

/-- Adding an equation gives a number to the numerals among its leaves and to no other name. -/
theorem value?_addEquation {equation : String} {body : Expr} {grown : Network} {id : Nat}
    (hadd : net.addEquation equation body = .ok (grown, id)) (name : String) :
    grown.value? name =
      (if name ∈ body.leafNames then Decimal.numeral? name else none).or (net.value? name) := by
  obtain ⟨-, -, -, -, rfl⟩ := addEquation_ok hadd
  have hpush : (net.push (.equation equation body [])).1.value? name = net.value? name := by
    have hnot : (Node.equation equation body []).isQuantityNamed name = false := rfl
    rw [value?_push, hnot]
    cases hid : net.quantityId? name <;> simp [value?, hid]
  rw [value?_attachAll, hpush]

/-- A name that is no numeral has the number that it was given last. -/
theorem value?_performAll {name : String} (hname : Decimal.numeral? name = none)
    {ops : List Operation} (hops : ∀ op ∈ ops, op.Plain) (settings : Settings) :
    ((empty settings).performAll ops).value? name =
      (ops.filterMap (Operation.given? name)).getLast? := by
  induction ops using List.reverseRecOn with
  | nil => rfl
  | append_singleton ops op ih =>
    have hbefore := ih fun op hop => hops op (List.mem_append_left _ hop)
    have hop := hops op (List.mem_append_right _ (List.mem_singleton_self op))
    have hstep : (((empty settings).performAll ops).perform op).value? name =
        (op.given? name).or (((empty settings).performAll ops).value? name) := by
      cases op with
      | addQuantity quantity number => exact value?_addQuantity _ quantity number name
      | setQuantity quantity number => exact value?_addQuantity _ quantity (some number) name
      | addEquation equation body =>
        rw [perform]
        cases hadd : ((empty settings).performAll ops).addEquation equation body with
        | ok grown =>
          have hgrown := value?_addEquation hadd name
          simpa [hname, Operation.given?] using hgrown
        | error error => rfl
      | record resolutions => exact hop.elim
      | configure settings => exact hop.elim
    rw [performAll, List.foldl_append, List.filterMap_append]
    show (((empty settings).performAll ops).perform op).value? name = _
    rw [hstep, hbefore]
    cases hgiven : op.given? name with
    | none => simp [hgiven]
    | some x => simp [hgiven]

/-- A numeral has its number as soon as an equation mentions it. -/
theorem value?_numeral {name : String} {x : Float} (hname : Decimal.numeral? name = some x)
    {ops : List Operation} (hops : ∀ op ∈ ops, op.Plain) (settings : Settings) :
    ((empty settings).performAll ops).value? name =
      if ((empty settings).performAll ops).mentions name then some x else none := by
  induction ops using List.reverseRecOn with
  | nil => rfl
  | append_singleton ops op ih =>
    have hbefore := ih fun op hop => hops op (List.mem_append_left _ hop)
    have hop := hops op (List.mem_append_right _ (List.mem_singleton_self op))
    rw [performAll, List.foldl_append]
    show (((empty settings).performAll ops).perform op).value? name =
      if (((empty settings).performAll ops).perform op).mentions name then some x else none
    have hother : ∀ quantity, Decimal.numeral? quantity = none → quantity ≠ name := by
      rintro quantity hnone rfl
      exact absurd hname (by simp [hnone])
    cases op with
    | addQuantity quantity number =>
      rw [perform, value?_addQuantity, if_neg (hother quantity hop), Option.none_or, mentions,
        laws_addQuantity]
      exact hbefore
    | setQuantity quantity number =>
      rw [perform, setQuantity, value?_addQuantity, if_neg (hother quantity hop), Option.none_or,
        mentions, laws_addQuantity]
      exact hbefore
    | addEquation equation body =>
      rw [perform]
      cases hadd : ((empty settings).performAll ops).addEquation equation body with
      | ok grown =>
        have hvalue := value?_addEquation hadd name
        have hlaws := laws_addEquation hadd
        dsimp only at hvalue ⊢
        rw [hvalue, hbefore, hname, mentions, mentions, hlaws, List.any_append, List.any_cons,
          List.any_nil, Bool.or_false]
        by_cases hleaf : name ∈ body.leafNames
        · simp [hleaf]
        · have hcontains : body.leafNames.contains name = false := by simpa using hleaf
          rw [if_neg hleaf, Option.none_or, hcontains, Bool.or_false]
      | error error => exact hbefore
    | record resolutions => exact hop.elim
    | configure settings => exact hop.elim

theorem settings_addQuantity (net : Network) (name : String) (number : Option Float) :
    (net.addQuantity name number).1.settings = net.settings := by
  unfold addQuantity
  split
  · rfl
  · cases number <;> rfl

theorem settings_attachAll (equation : Nat) (names : List String) (net : Network) :
    (names.foldl (attach equation) net).settings = net.settings := by
  apply attachAll_induction (P := fun grown => grown.settings = net.settings)
  · intro before name number hbefore
    rw [settings_addQuantity, hbefore]
  · intro before id other hbefore
    exact hbefore
  · rfl

theorem settings_addEquation {equation : String} {body : Expr} {grown : Network} {id : Nat}
    (hadd : net.addEquation equation body = .ok (grown, id)) : grown.settings = net.settings := by
  obtain ⟨-, -, -, -, rfl⟩ := addEquation_ok hadd
  rw [settings_attachAll]
  rfl

theorem settings_performAll {ops : List Operation} (hops : ∀ op ∈ ops, op.Plain) :
    (net.performAll ops).settings = net.settings := by
  refine List.foldlRecOn (motive := fun before => before.settings = net.settings) ops perform rfl
    fun before hbefore op hop => ?_
  have hplain := hops op hop
  rw [← hbefore]
  cases op with
  | addQuantity name number => exact settings_addQuantity before name number
  | setQuantity name number => exact settings_addQuantity before name (some number)
  | addEquation name body =>
    rw [perform]
    cases hadd : before.addEquation name body with
    | ok grown => exact settings_addEquation hadd
    | error error => rfl
  | record resolutions => exact hplain.elim
  | configure settings => exact hplain.elim

/-! ## Answers -/

/-- **When a number is given does not matter.**  Two histories that add the same equations in the
same order and give every name the same number last lead to networks with the same answers. -/
theorem resolve_performAll (settings : Settings) {ops ops' : List Operation}
    (hops : ∀ op ∈ ops, op.Plain) (hops' : ∀ op ∈ ops', op.Plain)
    (hequations : ops'.filterMap Operation.law? = ops.filterMap Operation.law?)
    (hgiven : ∀ name, (ops'.filterMap (Operation.given? name)).getLast? =
      (ops.filterMap (Operation.given? name)).getLast?) (name : String) :
    ((empty settings).performAll ops').resolve name =
      ((empty settings).performAll ops).resolve name := by
  have hnet := consistent_performAll settings ops
  have hnet' := consistent_performAll settings ops'
  have hlaws :
      ((empty settings).performAll ops').laws = ((empty settings).performAll ops).laws := by
    rw [laws_performAll, laws_performAll, hequations]
  refine resolve_eq_of_laws hnet hnet' ?_ hlaws (fun name => ?_) name
  · rw [settings_performAll hops, settings_performAll hops']
  · cases hname : Decimal.numeral? name with
    | none => rw [value?_performAll hname hops', value?_performAll hname hops, hgiven]
    | some x =>
      rw [value?_numeral hname hops', value?_numeral hname hops, mentions, mentions, hlaws]

/-- The number of `x` may be given before the equation and changed later, or once after it. -/
theorem resolve_performAll_early_and_late :
    ∃ ops ops' : List Operation, (∀ op ∈ ops, op.Plain) ∧ (∀ op ∈ ops', op.Plain) ∧
      ops'.filterMap Operation.law? = ops.filterMap Operation.law? ∧
      (∀ name, (ops'.filterMap (Operation.given? name)).getLast? =
        (ops.filterMap (Operation.given? name)).getLast?) ∧
      ((empty .default).performAll ops).quantityId? "y" = some 2 ∧
      ((empty .default).performAll ops').quantityId? "y" = some 1 ∧
      ((empty .default).performAll ops').resolve "y" =
        ((empty .default).performAll ops).resolve "y" := by
  let sum : Expr := .binary .add ⟨.operator, "+", ⟨7, 7⟩⟩ (.leaf ⟨.name, "x", ⟨5, 5⟩⟩)
    (.leaf ⟨.number, "3", ⟨9, 9⟩⟩)
  let body : Expr := .binary .equals ⟨.equals, "=", ⟨3, 3⟩⟩ (.leaf ⟨.name, "y", ⟨1, 1⟩⟩) sum
  let ops : List Operation := [.setQuantity "x" 1, .addEquation "sum" body, .addQuantity "z" none,
    .setQuantity "x" 2]
  let ops' : List Operation := [.addEquation "sum" body, .addQuantity "x" (some 2)]
  have hx : Decimal.numeral? "x" = none := by decide +kernel
  have hz : Decimal.numeral? "z" = none := by decide +kernel
  have hops : ∀ op ∈ ops, op.Plain := by simp [ops, Operation.Plain, hx, hz]
  have hops' : ∀ op ∈ ops', op.Plain := by simp [ops', Operation.Plain, hx]
  have hgiven : ∀ name, (ops'.filterMap (Operation.given? name)).getLast? =
      (ops.filterMap (Operation.given? name)).getLast? := by
    intro name
    by_cases hname : "x" = name
    · simp [ops, ops', Operation.given?, hname, List.filterMap_cons]
    · simp [ops, ops', Operation.given?, hname]
  exact ⟨ops, ops', hops, hops', rfl, hgiven, by decide +kernel, by decide +kernel,
    resolve_performAll .default hops hops' rfl hgiven "y"⟩

end Network

end EquationNetwork
