import EquationNetwork.Proofs.Network.Representation
import EquationNetwork.Proofs.Network.Search

/-!
# Running a problem

A run answers the names that are asked for, all in the network as it is before the run, and then
stores the numbers found.  What stores a number would add a quantity that is not there and would
replace a number that is.  A run does neither, because of what an answer can be: a name without a
quantity has no answer, and the answer for a quantity with a number is that number.

* `Network.resolve_of_quantityId?_none`, `Network.resolve_of_value?` — the answers for names that
  are absent and for names that are known.
* `Network.settle` — the network with the answers for some names in place of missing numbers.
* `Network.Wired.record_resolveAll` — **storing the answers settles the names asked**, in any order
  and however often each is asked.
* `Network.Settled` — what settling changes, and all that stays.
* `Problem.run_settles` — **a run changes nothing but the numbers that it answers.**
-/

namespace EquationNetwork

/-! ## Nodes -/

namespace Node

variable (answer? : String → Option Float)

/-- The quantity with the answer for its name, if it has no number. -/
def settle : Node → Node
  | quantity name number links => quantity name (number.or (answer? name)) links
  | node => node

@[simp] theorem isQuantity_settle (a : Node) : (a.settle answer?).isQuantity = a.isQuantity := by
  cases a <;> rfl

@[simp] theorem name_settle (a : Node) : (a.settle answer?).name = a.name := by cases a <;> rfl

@[simp] theorem links_settle (a : Node) : (a.settle answer?).links = a.links := by cases a <;> rfl

@[simp] theorem body?_settle (a : Node) : (a.settle answer?).body? = a.body? := by cases a <;> rfl

theorem number?_settle (a : Node) : (a.settle answer?).number? =
    if a.isQuantity then a.number?.or (answer? a.name) else none := by cases a <;> rfl

variable {answer?} {answer?' : String → Option Float}

/-- Only the answer for the node's own name matters. -/
theorem settle_congr {a : Node} (h : a.isQuantity = true → answer? a.name = answer?' a.name) :
    a.settle answer? = a.settle answer?' := by
  cases a with
  | quantity name number links =>
    have hname : answer? name = answer?' name := h rfl
    rw [settle, settle, hname]
  | equation name body links => rfl

/-- To set the number that the node has, or gets by its answer, is to give the answer. -/
theorem setNumber_settle {a : Node} {x : Float} (h : a.number?.or (answer?' a.name) = some x) :
    (a.settle answer?).setNumber x = a.settle answer?' := by
  cases a with
  | quantity name number links =>
    have hx : number.or (answer?' name) = some x := h
    rw [settle, settle, hx]
    rfl
  | equation name body links => rfl

end Node

namespace Network

variable {net : Network} {names : List String} {name : String} {x : Float}

/-! ## Answers that take no search -/

theorem resolve_of_quantityId?_none (h : net.quantityId? name = none) :
    net.resolve name = .unresolved := by
  rw [resolve, request, h]

/-- A number that is stored is the answer. -/
theorem resolve_of_value? (h : net.value? name = some x) : net.resolve name = .resolved x := by
  obtain ⟨id, hid, hnumber⟩ := Option.bind_eq_some_iff.1 h
  have hknown : net.known? .start id = some x := by rw [known?, hnumber, Option.some_or]
  rw [resolve, request, hid]
  dsimp only
  rw [requestFuel, seek_known hknown]

/-! ## Settling -/

/-- The number found for a name, if it is one of those asked. -/
def answer? (net : Network) (names : List String) (name : String) : Option Float :=
  if name ∈ names then (net.resolve name).number? else none

/-- The network in which the names asked have their answers, as far as they had no number. -/
def settle (net : Network) (names : List String) : Network :=
  { net with nodes := net.nodes.map (Node.settle (net.answer? names)) }

theorem answer?_eq_some_iff :
    net.answer? names name = some x ↔ name ∈ names ∧ net.resolve name = .resolved x := by
  unfold answer?
  cases net.resolve name <;> simp [Resolution.number?]

theorem answer?_concat_of_ne {other : String} (h : other ≠ name) :
    net.answer? (names ++ [name]) other = net.answer? names other := by
  simp [answer?, h]

theorem node?_settle (net : Network) (names : List String) (id : Nat) :
    (net.settle names).node? id = (net.node? id).map (Node.settle (net.answer? names)) :=
  List.getElem?_map ..

theorem settle_nil (net : Network) : net.settle [] = net := by
  have hnode : Node.settle (net.answer? []) = id := by
    funext a
    cases a with
    | quantity name number links => simp [Node.settle, answer?]
    | equation name body links => rfl
  rw [settle, hnode, List.map_id]

/-- A node is found where it was, if it is not looked for by its number. -/
theorem findIdx?_settle {p : Node → Bool}
    (hp : ∀ a : Node, p (a.settle (net.answer? names)) = p a) :
    (net.settle names).nodes.findIdx? p = net.nodes.findIdx? p := by
  rw [settle, List.findIdx?_map]
  exact congrArg (List.findIdx? · net.nodes) (funext hp)

theorem quantityId?_settle (net : Network) (names : List String) (name : String) :
    (net.settle names).quantityId? name = net.quantityId? name :=
  findIdx?_settle fun a => by simp [Node.isQuantityNamed]

theorem equationId?_settle (net : Network) (names : List String) (name : String) :
    (net.settle names).equationId? name = net.equationId? name :=
  findIdx?_settle fun a => by simp [Node.isEquationNamed]

/-- A name that has no answer is settled without a change. -/
theorem settle_concat_of_unresolved (h : net.resolve name = .unresolved) :
    net.settle (names ++ [name]) = net.settle names := by
  have hanswer : net.answer? (names ++ [name]) = net.answer? names := by
    funext other
    by_cases hother : other = name
    · simp [answer?, hother, h, Resolution.number?]
    · exact answer?_concat_of_ne hother
  rw [settle, settle, hanswer]

/-- The number of the quantity asked for is the answer, whether it was stored before or not. -/
theorem number?_or_answer? {id : Nat} {a : Node} (hid : net.quantityId? name = some id)
    (ha : net.node? id = some a) (h : net.resolve name = .resolved x) (hname : name ∈ names) :
    a.number?.or (net.answer? names name) = some x := by
  cases hstored : a.number? with
  | none => exact answer?_eq_some_iff.2 ⟨hname, h⟩
  | some y =>
    have hvalue : net.value? name = some y := by
      rw [value?, hid, Option.bind_some, numberOf?, ha]
      exact hstored
    have hanswer := resolve_of_value? hvalue
    rw [Option.some_or, Resolution.resolved.inj (hanswer.symm.trans h)]

/-- A name that has an answer is settled by storing the answer. -/
theorem Wired.setQuantity_settle (hnet : net.Wired) (h : net.resolve name = .resolved x) :
    ((net.settle names).setQuantity name x).1 = net.settle (names ++ [name]) := by
  cases hid : net.quantityId? name with
  | none => exact absurd h (by simp [resolve_of_quantityId?_none hid])
  | some id =>
    obtain ⟨a, ha, hsort, hname⟩ := quantityId?_eq_some hid
    rw [setQuantity, Network.addQuantity, quantityId?_settle, hid]
    dsimp only
    have hnodes : ∀ j, ((net.settle names).modify id (Node.setNumber x)).node? j =
        (net.settle (names ++ [name])).node? j := by
      intro j
      rw [node?_modify, node?_settle, node?_settle]
      by_cases hj : j = id
      · have hnumber : a.number?.or (net.answer? (names ++ [name]) a.name) = some x := by
          rw [hname]
          exact number?_or_answer? hid ha h List.mem_concat_self
        rw [if_pos hj, hj, ha]
        exact congrArg some (Node.setNumber_settle hnumber)
      · -- No other quantity has the name, so all of them have the answers that they had.
        rw [if_neg hj]
        refine Option.map_congr fun b hb => Node.settle_congr fun hbsort => ?_
        refine (answer?_concat_of_ne ?_).symm
        rintro rfl
        exact hj (hnet.distinct hb ha (hbsort.trans hsort.symm) hname.symm)
    exact congrArg (Network.mk · net.settings) (List.ext_getElem? hnodes)

/-! ## Storing answers -/

theorem record_concat (net : Network) (resolutions : Resolutions) (name : String)
    (resolution : Resolution) : net.record (resolutions ++ [(name, resolution)]) =
      match resolution with
      | .resolved x => ((net.record resolutions).setQuantity name x).1
      | .unresolved => net.record resolutions :=
  List.foldl_concat ..

/-- **Storing the answers settles the names asked.** -/
theorem Wired.record_resolveAll (hnet : net.Wired) (names : List String) :
    net.record (net.resolveAll names) = net.settle names := by
  induction names using List.reverseRecOn with
  | nil => exact (settle_nil net).symm
  | append_singleton names name ih =>
    rw [resolveAll, List.map_append, ← resolveAll, List.map_singleton, record_concat, ih]
    cases h : net.resolve name with
    | resolved x => exact hnet.setQuantity_settle h
    | unresolved => exact (settle_concat_of_unresolved h).symm

/-! ## What a run leaves as it is -/

/-- The network `net'` is `net` with the answers for the names asked. -/
structure Settled (net : Network) (names : List String) (net' : Network) : Prop where
  settings : net'.settings = net.settings
  /-- No node is added. -/
  size : net'.size = net.size
  quantityId? : ∀ name, net'.quantityId? name = net.quantityId? name
  equationId? : ∀ name, net'.equationId? name = net.equationId? name
  isQuantity : ∀ id, net'.IsQuantity id ↔ net.IsQuantity id
  nameOf : ∀ id, net'.nameOf id = net.nameOf id
  linksOf : ∀ id, net'.linksOf id = net.linksOf id
  bodyOf? : ∀ id, net'.bodyOf? id = net.bodyOf? id
  /-- A number that is stored stays. -/
  kept : ∀ {id : Nat} {x : Float}, net.numberOf? id = some x → net'.numberOf? id = some x
  /-- A number is new exactly if it is the answer for a quantity that was asked for. -/
  found : ∀ {id : Nat} {x : Float}, net.numberOf? id = none →
    (net'.numberOf? id = some x ↔
      net.IsQuantity id ∧ net.nameOf id ∈ names ∧ net.resolve (net.nameOf id) = .resolved x)
  /-- The unknowns that are not asked for, or have no answer, are unknown still. -/
  unknowns : net'.unknowns =
    net.unknowns.filter fun name => !(decide (name ∈ names) && (net.resolve name).isResolved)

theorem isNone_answer? : (net.answer? names name).isNone =
    !(decide (name ∈ names) && (net.resolve name).isResolved) := by
  unfold answer?
  by_cases hname : name ∈ names <;> simp [hname, Resolution.isResolved]

theorem unknowns_settle (net : Network) (names : List String) :
    (net.settle names).unknowns =
      net.unknowns.filter fun name => (net.answer? names name).isNone := by
  rw [unknowns, unknowns, settle, List.filter_map, List.map_map, List.filter_map,
    List.filter_filter]
  congr 1
  · funext a
    exact Node.name_settle _ a
  · refine List.filter_congr fun a _ => ?_
    cases a with
    | quantity name number links =>
      simp [Node.settle, Node.isQuantity, Node.number?, Node.name, Bool.and_comm]
    | equation name body links => simp [Node.settle, Node.isQuantity]

theorem numberOf?_settle (net : Network) (names : List String) {id : Nat} {a : Node}
    (ha : net.node? id = some a) : (net.settle names).numberOf? id =
      if a.isQuantity then (net.numberOf? id).or (net.answer? names a.name) else none := by
  rw [numberOf?, numberOf?, node?_settle, ha]
  exact a.number?_settle _

theorem settled_settle (net : Network) (names : List String) :
    net.Settled names (net.settle names) where
  settings := rfl
  size := List.length_map _
  quantityId? := net.quantityId?_settle names
  equationId? := net.equationId?_settle names
  isQuantity id := by
    rw [IsQuantity, IsQuantity, node?_settle]
    cases net.node? id <;> simp
  nameOf id := by
    rw [nameOf, nameOf, node?_settle]
    cases net.node? id <;> simp
  linksOf id := by
    rw [linksOf, linksOf, node?_settle]
    cases net.node? id <;> simp
  bodyOf? id := by
    rw [bodyOf?, bodyOf?, node?_settle]
    cases net.node? id <;> simp
  kept {id x} hx := by
    obtain ⟨a, ha, hnumber⟩ := Option.bind_eq_some_iff.1 hx
    have hsort : a.isQuantity = true := by
      cases a with
      | quantity name number links => rfl
      | equation name body links => exact absurd hnumber (by simp [Node.number?])
    rw [numberOf?_settle net names ha, if_pos hsort, hx, Option.some_or]
  found {id x} hnone := by
    cases ha : net.node? id with
    | none => simp [numberOf?, IsQuantity, node?_settle, ha]
    | some a =>
      rw [numberOf?_settle net names ha, hnone, Option.none_or, nameOf_eq ha]
      cases hsort : a.isQuantity with
      | false => simp [IsQuantity, ha, hsort]
      | true => simp [IsQuantity, ha, hsort, answer?_eq_some_iff]
  unknowns := by
    rw [unknowns_settle]
    exact List.filter_congr fun name _ => isNone_answer?

end Network

/-! ## Problems -/

namespace Problem

/-- **A run changes nothing but the numbers that it answers.**  It answers every target in turn, or
every unknown if there is no target, with what the network answered before the run; and it leaves
the network as it was but for the numbers of those that had none, were asked for and have an
answer. -/
theorem run_settles {p : Expr → Prop} {problem : Problem} (h : problem.network.Reachable p) :
    (problem.targets ≠ [] → problem.run.1 =
        problem.targets.map fun name => (name, problem.network.resolve name)) ∧
      (problem.targets = [] → problem.run.1 =
        problem.network.unknowns.map fun name => (name, problem.network.resolve name)) ∧
      problem.run.2.targets = problem.targets ∧
      problem.network.Settled problem.asked problem.run.2.network := by
  refine ⟨fun htargets => ?_, fun htargets => ?_, rfl, ?_⟩
  · have hasked : problem.asked = problem.targets := if_neg (by simpa using htargets)
    rw [run, hasked]
    rfl
  · have hasked : problem.asked = problem.network.unknowns := if_pos (by simpa using htargets)
    rw [run, hasked]
    rfl
  · have hrecord := h.consistent.toWired.record_resolveAll problem.asked
    rw [run, hrecord]
    exact problem.network.settled_settle problem.asked

/-- Targets that are derived, known, repeated and absent.  The number of `y` is needed for `z`, and
`y` stays unknown. -/
theorem run_settles_on_the_way :
    ∃ problem : Problem, problem.network.Reachable Expr.IsRead ∧
      problem.targets = ["z", "x", "z", "w"] ∧ problem.network.unknowns = ["y", "z"] ∧
      problem.run.1.map (fun answer => (answer.1, answer.2.text)) =
        [("z", "10"), ("x", "2"), ("z", "10"), ("w", "unresolved")] ∧
      problem.network.Settled ["z", "x", "z", "w"] problem.run.2.network ∧
      problem.run.2.network.unknowns = ["y"] := by
  let plan : Plan := ⟨.default, [("f", "y = x + 3"), ("g", "z = y * 2")], [("x", "2")], []⟩
  have hplan : (plan.network.toOption.any fun net =>
      net.unknowns == ["y", "z"] && (net.resolve "z").text == "10" &&
        (net.resolve "x").text == "2" && (net.resolve "w").text == "unresolved" &&
        (net.resolve "z").isResolved) = true := by decide +kernel
  cases hnet : plan.network with
  | error error => exact absurd hplan (by simp [hnet, Except.toOption])
  | ok net =>
    have hreachable := Plan.reachable_network hnet
    simp only [hnet, Except.toOption, Option.any_some, Bool.and_eq_true, beq_iff_eq] at hplan
    obtain ⟨⟨⟨⟨hunknowns, hz⟩, hx⟩, hw⟩, hresolved⟩ := hplan
    let problem : Problem := ⟨net, ["z", "x", "z", "w"]⟩
    have hnetwork : problem.network.Reachable Expr.IsRead := hreachable
    obtain ⟨hanswers, -, -, hsettled⟩ := run_settles hnetwork
    refine ⟨problem, hreachable, rfl, hunknowns, ?_, hsettled, ?_⟩
    · rw [hanswers (List.cons_ne_nil _ _)]
      simp [problem, hz, hx, hw]
    · rw [hsettled.unknowns, hunknowns]
      simp [problem, asked, hresolved]

end Problem

end EquationNetwork
