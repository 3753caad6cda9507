import Mathlib.Tactic
import EquationNetwork.Problem

/-!
# Building networks

Which networks there are, and what the steps of building do to the nodes.

* `Operation` and `Network.perform` — what can be done to a network.
* `Network.Reachable` — the networks that operations lead to, adding only equations of a given sort.
* `Network.addEntries_induction`, `Network.setEntries_induction` — what the entries of a document
  do, one by one and then all together.
* `Plan.reachable_network` — **the network of a document** is one of them.
* `Network.node?_push`, `Network.node?_modify` — the nodes after a step of building.
* `Network.Keeps` — every node keeps its place, its sort, its name and its expression.
-/

namespace EquationNetwork

/-! ## Operations -/

/-- What can be done to a network. -/
inductive Operation where
  | addQuantity (name : String) (number : Option Float)
  | setQuantity (name : String) (number : Float)
  | addEquation (name : String) (body : Expr)
  | record (resolutions : Resolutions)
  | configure (settings : Settings)

/-- An equation that the operation adds is of the given sort. -/
def Operation.Admits (p : Expr → Prop) : Operation → Prop
  | addEquation _ body => p body
  | _ => True

namespace Network

/-- The network after an operation.  An equation that is refused changes nothing. -/
def perform (net : Network) : Operation → Network
  | .addQuantity name number => (net.addQuantity name number).1
  | .setQuantity name number => (net.setQuantity name number).1
  | .addEquation name body =>
      match net.addEquation name body with
      | .ok (grown, _) => grown
      | .error _ => net
  | .record resolutions => net.record resolutions
  | .configure settings => { net with settings := settings }

/-- The networks that operations lead to from the empty one, adding only equations of a sort. -/
inductive Reachable (p : Expr → Prop) : Network → Prop where
  | empty (settings : Settings) : Reachable p (.empty settings)
  | perform {net : Network} {op : Operation} (h : Reachable p net) (hop : op.Admits p) :
      Reachable p (net.perform op)

/-- The network after operations, one after the other. -/
def performAll (net : Network) (ops : List Operation) : Network := ops.foldl perform net

end Network

theorem Network.Reachable.performAll {p : Expr → Prop} {ops : List Operation} {net : Network}
    (h : net.Reachable p) (hops : ∀ op ∈ ops, op.Admits p) : (net.performAll ops).Reachable p :=
  List.foldlRecOn ops _ h fun _ hnet op hop => hnet.perform (hops op hop)

/-- Any operations lead to a reachable network, if nothing is asked of the equations. -/
theorem Operation.admits_true (op : Operation) : op.Admits fun _ => True := by
  cases op <;> trivial

theorem Operation.Admits.mono {p q : Expr → Prop} (hpq : ∀ e, p e → q e) {op : Operation}
    (h : op.Admits p) : op.Admits q := by
  cases op with
  | addEquation name body => exact hpq body h
  | _ => trivial

theorem Network.Reachable.mono {p q : Expr → Prop} (hpq : ∀ e, p e → q e) {net : Network}
    (h : net.Reachable p) : net.Reachable q := by
  induction h with
  | empty settings => exact .empty settings
  | perform _ hop ih => exact ih.perform (hop.mono hpq)

/-! ## Networks of documents -/

/-- The expression is read from a text. -/
def Expr.IsRead (e : Expr) : Prop := ∃ limit text, Expr.read limit text = .ok e

/-- Where two steps in a row succeed, each of them does. -/
theorem exists_of_bind_eq_ok {α β ε : Type} {x : Except ε α} {f : α → Except ε β} {b : β}
    (h : x >>= f = .ok b) : ∃ a, x = .ok a ∧ f a = .ok b := by
  cases x with
  | error error => exact absurd h (by simp [bind, Except.bind])
  | ok a => exact ⟨a, rfl, h⟩

/-- What every step keeps, for the members done so far and what came of them, a run that succeeds
keeps. -/
theorem foldlM_induction {α β ε : Type} {P : List α → β → Prop} {f : β → α → Except ε β}
    (hstep : ∀ {done : List α} {b b' : β} {a : α}, f b a = .ok b' → P done b → P (done ++ [a]) b')
    {as : List α} : ∀ {done : List α} {b last : β}, as.foldlM f b = .ok last → P done b →
      P (done ++ as) last := by
  induction as with
  | nil =>
    intro done b last h hb
    cases h
    rwa [List.append_nil]
  | cons a as ih =>
    intro done b last h hb
    rw [List.foldlM_cons] at h
    obtain ⟨next, hnext, hrest⟩ := exists_of_bind_eq_ok h
    have hlast := ih hrest (hstep hnext hb)
    rwa [List.append_assoc, List.singleton_append] at hlast

/-- Two runs go side by side if their steps do, from everything that the first run may reach. -/
theorem foldlM_map {α β γ ε : Type} {P : β → Prop} {g : β → γ} {f : β → α → Except ε β}
    {f' : γ → α → Except ε γ} (hstep : ∀ {b : β} (a : α), P b → (f b a).map g = f' (g b) a)
    (hkeep : ∀ {b b' : β} {a : α}, f b a = .ok b' → P b → P b') {as : List α} :
    ∀ {b : β}, P b → (as.foldlM f b).map g = as.foldlM f' (g b) ∧
      ∀ last, as.foldlM f b = .ok last → P last := by
  induction as with
  | nil =>
    intro b hb
    refine ⟨rfl, fun last hlast => ?_⟩
    cases hlast
    exact hb
  | cons a as ih =>
    intro b hb
    rw [List.foldlM_cons, List.foldlM_cons, ← hstep a hb]
    cases hnext : f b a with
    | error error => exact ⟨rfl, fun last hlast => nomatch hlast⟩
    | ok next => exact ih (hkeep hnext hb)

namespace Network

variable {net net' : Network}

/-- What it takes to add the equation of an entry. -/
theorem addEntry_ok {entry : Document.Entry} {id : Nat}
    (h : net.addEntry entry = .ok (net', id)) :
    ∃ body, Expr.read net.settings.maxNestingDepth entry.2 = .ok body ∧
      net.addEquation entry.1 body = .ok (net', id) := by
  unfold addEntry at h
  split at h
  · exact absurd h (by simp)
  · rename_i body hbody
    refine ⟨body, hbody, ?_⟩
    cases hadd : net.addEquation entry.1 body with
    | error error => exact absurd h (by simp [hadd, Except.mapError])
    | ok grown => simpa [hadd, Except.mapError] using h

/-- What it takes to set the number of an entry. -/
theorem setEntry_ok {entry : Document.Entry} (h : net.setEntry entry = .ok net') :
    ∃ x, Decimal.readNumber entry.2.toList = some x ∧ net' = (net.setQuantity entry.1 x).1 := by
  unfold setEntry at h
  split at h
  · rename_i x hx
    exact ⟨x, hx, (Except.ok.inj h).symm⟩
  · exact absurd h (by simp)

/-- What adding one equation keeps, for the entries done so far, adding those of all entries
keeps. -/
theorem addEntries_induction {P : List Document.Entry → Network → Prop}
    (hstep : ∀ {done : List Document.Entry} {net net' : Network} {entry : Document.Entry}
      {body : Expr} {id : Nat}, Expr.read net.settings.maxNestingDepth entry.2 = .ok body →
        net.addEquation entry.1 body = .ok (net', id) → P done net → P (done ++ [entry]) net')
    {entries : List Document.Entry} (h : net.addEntries entries = .ok net') (hnet : P [] net) :
    P entries net' := by
  refine foldlM_induction (P := P) ?_ h hnet
  intro done net next entry hnext hnet
  cases hadd : net.addEntry entry with
  | error error => exact absurd hnext (by simp [hadd, Except.map])
  | ok added =>
    obtain rfl : added.1 = next := by simpa [hadd, Except.map] using hnext
    obtain ⟨body, hbody, hgrown⟩ := addEntry_ok hadd
    exact hstep hbody hgrown hnet

/-- What setting one number keeps, for the entries done so far, setting those of all entries
keeps. -/
theorem setEntries_induction {P : List Document.Entry → Network → Prop}
    (hstep : ∀ {done : List Document.Entry} {net : Network} {entry : Document.Entry} {x : Float},
      Decimal.readNumber entry.2.toList = some x → P done net →
        P (done ++ [entry]) (net.setQuantity entry.1 x).1)
    {entries : List Document.Entry} (h : net.setEntries entries = .ok net') (hnet : P [] net) :
    P entries net' := by
  refine foldlM_induction (P := P) ?_ h hnet
  intro done net next entry hnext hnet
  obtain ⟨x, hx, rfl⟩ := setEntry_ok hnext
  exact hstep hx hnet

end Network

/-- What it takes to build the network of a plan. -/
theorem Plan.network_ok {plan : Plan} {net : Network} (h : plan.network = .ok net) :
    ∃ grown, (Network.empty plan.settings).addEntries plan.equations = .ok grown ∧
      grown.setEntries plan.values = .ok net :=
  exists_of_bind_eq_ok h

/-- **The network of a document is reachable.** -/
theorem Plan.reachable_network {plan : Plan} {net : Network} (h : plan.network = .ok net) :
    net.Reachable Expr.IsRead := by
  obtain ⟨grown, hentries, hvalues⟩ := network_ok h
  refine Network.setEntries_induction (P := fun _ net => net.Reachable Expr.IsRead) ?_ hvalues ?_
  · intro done net entry x _ hnet
    have hstep : (net.perform (.setQuantity entry.1 x)).Reachable Expr.IsRead :=
      hnet.perform trivial
    exact hstep
  · refine Network.addEntries_induction (P := fun _ net => net.Reachable Expr.IsRead) ?_ hentries
      (.empty _)
    intro done net net' entry body id hbody hadd hnet
    have hstep : (net.perform (.addEquation entry.1 body)).Reachable Expr.IsRead :=
      hnet.perform ⟨_, _, hbody⟩
    rwa [Network.perform, hadd] at hstep

/-! ## Nodes -/

/-- A list with one more member, read at a place. -/
theorem getElem?_concat {α : Type} (l : List α) (a : α) (i : Nat) :
    (l ++ [a])[i]? = if i = l.length then some a else l[i]? := by
  rw [List.getElem?_append]
  by_cases hlt : i < l.length
  · rw [if_pos hlt, if_neg (Nat.ne_of_lt hlt)]
  · rw [if_neg hlt, List.getElem?_singleton, List.getElem?_eq_none (Nat.le_of_not_lt hlt)]
    congr 1
    exact propext (by omega)

namespace Node

@[simp] theorem isQuantity_setNumber (x : Float) (a : Node) :
    (a.setNumber x).isQuantity = a.isQuantity := by cases a <;> rfl

@[simp] theorem name_setNumber (x : Float) (a : Node) : (a.setNumber x).name = a.name := by
  cases a <;> rfl

@[simp] theorem links_setNumber (x : Float) (a : Node) : (a.setNumber x).links = a.links := by
  cases a <;> rfl

@[simp] theorem body?_setNumber (x : Float) (a : Node) : (a.setNumber x).body? = a.body? := by
  cases a <;> rfl

@[simp] theorem isQuantity_addLink (id : Nat) (a : Node) :
    (a.addLink id).isQuantity = a.isQuantity := by cases a <;> rfl

@[simp] theorem name_addLink (id : Nat) (a : Node) : (a.addLink id).name = a.name := by
  cases a <;> rfl

@[simp] theorem links_addLink (id : Nat) (a : Node) : (a.addLink id).links = a.links ++ [id] := by
  cases a <;> rfl

@[simp] theorem body?_addLink (id : Nat) (a : Node) : (a.addLink id).body? = a.body? := by
  cases a <;> rfl

theorem isQuantityNamed_iff {name : String} {a : Node} :
    a.isQuantityNamed name = true ↔ a.isQuantity = true ∧ a.name = name := by
  rw [isQuantityNamed, Bool.and_eq_true, beq_iff_eq]

theorem isEquationNamed_iff {name : String} {a : Node} :
    a.isEquationNamed name = true ↔ a.isQuantity = false ∧ a.name = name := by
  rw [isEquationNamed, Bool.and_eq_true, beq_iff_eq, Bool.not_eq_true']

theorem isQuantity_eq_not_isSome_body? (a : Node) : a.isQuantity = !a.body?.isSome := by
  cases a <;> rfl

theorem number?_of_body? {a : Node} {body : Expr} (h : a.body? = some body) : a.number? = none := by
  cases a with
  | quantity name number links => exact absurd h (by simp [body?])
  | equation name body links => rfl

end Node

namespace Network

variable {net net' : Network}

theorem nodes_lt {id : Nat} {a : Node} (h : net.node? id = some a) : id < net.size :=
  (List.getElem?_eq_some_iff.1 h).1

@[simp] theorem node?_empty (settings : Settings) (id : Nat) : (empty settings).node? id = none :=
  rfl

theorem node?_push (net : Network) (node : Node) (id : Nat) :
    (net.push node).1.node? id = if id = net.size then some node else net.node? id := by
  show (net.nodes ++ [node])[id]? = _
  rw [getElem?_concat]
  rfl

theorem node?_modify (net : Network) (changed id : Nat) (f : Node → Node) :
    (net.modify changed f).node? id =
      if id = changed then (net.node? id).map f else net.node? id := by
  show (net.nodes.modify changed f)[id]? = _
  rw [List.getElem?_modify]
  by_cases hid : id = changed
  · rw [if_pos hid, hid]
    simp [node?]
  · rw [if_neg hid]
    simp [node?, Ne.symm hid]

/-! ## Names -/

theorem quantityId?_eq_some {name : String} {id : Nat} (h : net.quantityId? name = some id) :
    ∃ a, net.node? id = some a ∧ a.isQuantity = true ∧ a.name = name := by
  obtain ⟨hid, hnamed, -⟩ := List.findIdx?_eq_some_iff_getElem.1 h
  exact ⟨net.nodes[id], List.getElem?_eq_getElem hid, Node.isQuantityNamed_iff.1 hnamed⟩

theorem quantityId?_eq_none {name : String} (h : net.quantityId? name = none) {id : Nat} {a : Node}
    (ha : net.node? id = some a) (hquantity : a.isQuantity = true) : a.name ≠ name := by
  rintro rfl
  have hnot := List.findIdx?_eq_none_iff.1 h a (List.mem_of_getElem? ha)
  exact absurd (Node.isQuantityNamed_iff.2 ⟨hquantity, rfl⟩) (by simp [hnot])

theorem equationId?_eq_none {name : String} (h : (net.equationId? name).isSome = false) {id : Nat}
    {a : Node} (ha : net.node? id = some a) (hequation : a.isQuantity = false) : a.name ≠ name := by
  rintro rfl
  rw [Option.isSome_eq_false_iff, Option.isNone_iff_eq_none] at h
  have hnot := List.findIdx?_eq_none_iff.1 h a (List.mem_of_getElem? ha)
  exact absurd (Node.isEquationNamed_iff.2 ⟨hequation, rfl⟩) (by simp [hnot])

theorem nameOf_eq {id : Nat} {a : Node} (h : net.node? id = some a) : net.nameOf id = a.name := by
  rw [nameOf, h]
  rfl

theorem linksOf_eq {id : Nat} {a : Node} (h : net.node? id = some a) :
    net.linksOf id = a.links := by
  rw [linksOf, h]
  rfl

/-- What it takes to add an equation, and what comes of it. -/
theorem addEquation_ok {name : String} {body : Expr} {grown : Network} {id : Nat}
    (h : net.addEquation name body = .ok (grown, id)) :
    (net.equationId? name).isSome = false ∧ body.isEquation = true ∧ 2 ≤ body.leafNames.length ∧
      id = net.size ∧
      grown = body.leafNames.foldl (attach net.size) (net.push (.equation name body [])).1 := by
  rw [addEquation] at h
  split at h
  · exact absurd h (by simp)
  · rename_i hfresh
    split at h
    · exact absurd h (by simp)
    · rename_i hequation
      split at h
      · exact absurd h (by simp)
      · rename_i hlength
        cases h
        exact ⟨by simpa using hfresh, by simpa using hequation, by omega, rfl, rfl⟩

/-! ## What stays -/

/-- The nodes are still there: they keep their place, their sort, their name and their
expression. -/
def Keeps (net net' : Network) : Prop :=
  ∀ id a, net.node? id = some a → ∃ a', net'.node? id = some a' ∧
    a'.isQuantity = a.isQuantity ∧ a'.name = a.name ∧ a'.body? = a.body?

theorem Keeps.nameOf (h : Keeps net net') {id : Nat} {a : Node} (ha : net.node? id = some a) :
    net'.nameOf id = net.nameOf id := by
  obtain ⟨a', ha', -, hname, -⟩ := h id a ha
  rw [nameOf_eq ha, nameOf_eq ha', hname]

theorem Keeps.trans {net'' : Network} (h : Keeps net net') (h' : Keeps net' net'') :
    Keeps net net'' := by
  intro id a ha
  obtain ⟨a', ha', hsort, hname, hbody⟩ := h id a ha
  obtain ⟨a'', ha'', hsort', hname', hbody'⟩ := h' id a' ha'
  exact ⟨a'', ha'', hsort'.trans hsort, hname'.trans hname, hbody'.trans hbody⟩

end Network

end EquationNetwork
