import EquationNetwork.Proofs.Distinct
import EquationNetwork.Proofs.Network.Building

/-!
# Consistent networks

What all networks that can be built have in common.

* `Network.Wired` — no two nodes of one sort share a name, and links join nodes of both sorts, both
  ways and once; the links of a quantity are in the order in which its equations were added.
* `Network.FaithfulAt` — an equation is linked to the quantities that are its leaves.
* `Network.Consistent` — wired, and faithful at every node.
* `Network.Reachable.consistent` — **every reachable network is consistent**.
-/

namespace EquationNetwork.Network

variable {net net' : Network}

/-! ## The invariant -/

/-- The names and the links of a network are in order. -/
structure Wired (net : Network) : Prop where
  /-- Nodes of one sort have different names. -/
  distinct : ∀ {i j : Nat} {a b : Node}, net.node? i = some a → net.node? j = some b →
    a.isQuantity = b.isQuantity → a.name = b.name → i = j
  /-- A link joins nodes of both sorts, both ways. -/
  joined : ∀ {i j : Nat} {a : Node}, net.node? i = some a → j ∈ a.links →
    ∃ b, net.node? j = some b ∧ b.isQuantity = !a.isQuantity ∧ i ∈ b.links
  /-- Two nodes are joined by one link at most. -/
  nodup : ∀ {i : Nat} {a : Node}, net.node? i = some a → a.links.Nodup
  /-- A quantity is linked to its equations in the order in which they were added. -/
  rising : ∀ {i : Nat} {a : Node}, net.node? i = some a → a.isQuantity = true →
    a.links.Pairwise (· < ·)

/-- If the node is an equation, then it is linked to the quantities that are its leaves, two at
least. -/
def FaithfulAt (net : Network) (id : Nat) : Prop :=
  ∀ a body, net.node? id = some a → a.body? = some body →
    body.isEquation = true ∧ 2 ≤ a.links.length ∧ a.links.map net.nameOf = body.leafNames

/-- The names and links are in order, and every equation is linked to its leaves. -/
structure Consistent (net : Network) : Prop extends net.Wired where
  faithful : ∀ id, net.FaithfulAt id

/-! ## More links -/

/-- Every node is still there, with more links after those it had. -/
def Extended (net net' : Network) (more : Nat → List Nat) : Prop :=
  ∃ f : Nat → Node → Node, (∀ i, net'.node? i = (net.node? i).map (f i)) ∧
    ∀ i a, (f i a).isQuantity = a.isQuantity ∧ (f i a).name = a.name ∧ (f i a).body? = a.body? ∧
      (f i a).links = a.links ++ more i

theorem Extended.keeps {more : Nat → List Nat} (h : Extended net net' more) : Keeps net net' := by
  obtain ⟨f, hnode, hf⟩ := h
  intro i a ha
  obtain ⟨hsort, hname, hbody, -⟩ := hf i a
  exact ⟨f i a, by rw [hnode, ha]; rfl, hsort, hname, hbody⟩

theorem Extended.exists_node {more : Nat → List Nat} (h : Extended net net' more) {i : Nat}
    {a' : Node} (ha' : net'.node? i = some a') : ∃ a, net.node? i = some a ∧
      a'.isQuantity = a.isQuantity ∧ a'.name = a.name ∧ a'.body? = a.body? ∧
      a'.links = a.links ++ more i := by
  obtain ⟨f, hnode, hf⟩ := h
  rw [hnode] at ha'
  obtain ⟨a, ha, rfl⟩ := Option.map_eq_some_iff.1 ha'
  exact ⟨a, ha, hf i a⟩

theorem Extended.links {more : Nat → List Nat} (h : Extended net net' more) {i : Nat}
    {a : Node} (ha : net.node? i = some a) : ∃ a', net'.node? i = some a' ∧
      a'.links = a.links ++ more i := by
  obtain ⟨f, hnode, hf⟩ := h
  exact ⟨f i a, by rw [hnode, ha]; rfl, (hf i a).2.2.2⟩

/-- The wiring stays in order if the new links are. -/
theorem Wired.extended {more : Nat → List Nat} (h : net.Wired) (hmore : Extended net net' more)
    (hjoined : ∀ {i j : Nat} {a : Node}, net.node? i = some a → j ∈ more i →
      ∃ b, net.node? j = some b ∧ b.isQuantity = !a.isQuantity ∧ i ∈ more j)
    (hnodup : ∀ {i : Nat} {a : Node}, net.node? i = some a → (a.links ++ more i).Nodup)
    (hrising : ∀ {i : Nat} {a : Node}, net.node? i = some a → a.isQuantity = true →
      (a.links ++ more i).Pairwise (· < ·)) : net'.Wired := by
  constructor
  · intro i j a' b' ha' hb' hsort hname
    obtain ⟨a, ha, hasort, haname, -⟩ := hmore.exists_node ha'
    obtain ⟨b, hb, hbsort, hbname, -⟩ := hmore.exists_node hb'
    exact h.distinct ha hb (by rw [← hasort, hsort, hbsort]) (by rw [← haname, hname, hbname])
  · intro i j a' ha' hj
    obtain ⟨a, ha, hasort, -, -, halinks⟩ := hmore.exists_node ha'
    have hfound : ∃ b, net.node? j = some b ∧ b.isQuantity = !a.isQuantity ∧
        i ∈ b.links ++ more j := by
      rw [halinks] at hj
      rcases List.mem_append.1 hj with hj | hj
      · obtain ⟨b, hb, hbsort, hi⟩ := h.joined ha hj
        exact ⟨b, hb, hbsort, List.mem_append_left _ hi⟩
      · obtain ⟨b, hb, hbsort, hi⟩ := hjoined ha hj
        exact ⟨b, hb, hbsort, List.mem_append_right _ hi⟩
    obtain ⟨b, hb, hbsort, hi⟩ := hfound
    obtain ⟨b', hb', hbsort', -, -⟩ := hmore.keeps j b hb
    obtain ⟨b'', hb'', hblinks⟩ := hmore.links hb
    obtain rfl : b' = b'' := Option.some.inj (hb'.symm.trans hb'')
    exact ⟨b', hb', by rw [hbsort', hbsort, hasort], by rw [hblinks]; exact hi⟩
  · intro i a' ha'
    obtain ⟨a, ha, -, -, -, halinks⟩ := hmore.exists_node ha'
    rw [halinks]
    exact hnodup ha
  · intro i a' ha' hquantity
    obtain ⟨a, ha, hasort, -, -, halinks⟩ := hmore.exists_node ha'
    rw [halinks]
    exact hrising ha (hasort ▸ hquantity)

/-- An equation stays faithful as long as it gets no links. -/
theorem FaithfulAt.extended {more : Nat → List Nat} (hwired : net.Wired)
    (hmore : Extended net net' more) {i : Nat} (hi : more i = []) (h : net.FaithfulAt i) :
    net'.FaithfulAt i := by
  intro a' body ha' hbody
  obtain ⟨a, ha, -, -, habody, halinks⟩ := hmore.exists_node ha'
  rw [hi, List.append_nil] at halinks
  obtain ⟨hequation, hlength, hnames⟩ := h a body ha (habody ▸ hbody)
  refine ⟨hequation, halinks ▸ hlength, ?_⟩
  rw [halinks, ← hnames]
  refine List.map_congr_left fun j hj => ?_
  obtain ⟨b, hb, -⟩ := hwired.joined ha hj
  exact hmore.keeps.nameOf hb

/-! ## One more node -/

theorem keeps_push (net : Network) (node : Node) : Keeps net (net.push node).1 := by
  intro i a ha
  have hi : i ≠ net.size := Nat.ne_of_lt (nodes_lt ha)
  exact ⟨a, by rw [node?_push, if_neg hi, ha], rfl, rfl, rfl⟩

/-- A node without links may be added under a name that is new to its sort. -/
theorem Wired.push (h : net.Wired) {node : Node} (hlinks : node.links = [])
    (hfresh : ∀ {i : Nat} {a : Node}, net.node? i = some a → a.isQuantity = node.isQuantity →
      a.name ≠ node.name) : (net.push node).1.Wired := by
  have hnode : ∀ {i : Nat} {a : Node}, (net.push node).1.node? i = some a →
      (i = net.size ∧ a = node) ∨ net.node? i = some a := by
    intro i a ha
    rw [node?_push] at ha
    split at ha
    · rename_i hi
      exact .inl ⟨hi, (Option.some.inj ha).symm⟩
    · exact .inr ha
  constructor
  · intro i j a b ha hb hsort hname
    rcases hnode ha with ⟨rfl, rfl⟩ | hold
    · rcases hnode hb with ⟨rfl, rfl⟩ | hold
      · rfl
      · exact absurd hname.symm (hfresh hold hsort.symm)
    · rcases hnode hb with ⟨rfl, rfl⟩ | hold'
      · exact absurd hname (hfresh hold hsort)
      · exact h.distinct hold hold' hsort hname
  · intro i j a ha hj
    rcases hnode ha with ⟨rfl, rfl⟩ | ha
    · exact absurd hj (by simp [hlinks])
    · obtain ⟨b, hb, hsort, hi⟩ := h.joined ha hj
      have hj : j ≠ net.size := Nat.ne_of_lt (nodes_lt hb)
      exact ⟨b, by rw [node?_push, if_neg hj, hb], hsort, hi⟩
  · intro i a ha
    rcases hnode ha with ⟨rfl, rfl⟩ | ha
    · simp [hlinks]
    · exact h.nodup ha
  · intro i a ha hquantity
    rcases hnode ha with ⟨rfl, rfl⟩ | ha
    · simp [hlinks]
    · exact h.rising ha hquantity

theorem FaithfulAt.push (hwired : net.Wired) {node : Node} {i : Nat} (hi : i ≠ net.size)
    (h : net.FaithfulAt i) : (net.push node).1.FaithfulAt i := by
  intro a body ha hbody
  rw [node?_push, if_neg hi] at ha
  obtain ⟨hequation, hlength, hnames⟩ := h a body ha hbody
  refine ⟨hequation, hlength, ?_⟩
  rw [← hnames]
  refine List.map_congr_left fun j hj => ?_
  obtain ⟨b, hb, -⟩ := hwired.joined ha hj
  exact (keeps_push net node).nameOf hb

/-! ## Quantities -/

theorem extended_setNumber (net : Network) (id : Nat) (x : Float) :
    Extended net (net.modify id (Node.setNumber x)) fun _ => [] := by
  refine ⟨fun i a => if i = id then a.setNumber x else a, fun i => ?_, fun i a => ?_⟩
  · rw [node?_modify]
    by_cases hi : i = id <;> simp [hi]
  · by_cases hi : i = id <;> simp [hi]

/-- A quantity is added as a new node, or it was there and gets a number at most. -/
theorem addQuantity_cases (net : Network) (name : String) (number : Option Float) :
    (net.quantityId? name = none ∧
        net.addQuantity name number = net.push (.quantity name number [])) ∨
      (∃ id, net.quantityId? name = some id ∧ (net.addQuantity name number).2 = id ∧
        Extended net (net.addQuantity name number).1 fun _ => []) := by
  unfold addQuantity
  cases hid : net.quantityId? name with
  | none => exact .inl ⟨rfl, rfl⟩
  | some id =>
    refine .inr ⟨id, rfl, ?_⟩
    cases number with
    | none => exact ⟨rfl, fun _ a => a, fun i => by simp, fun i a => by simp⟩
    | some x => exact ⟨rfl, extended_setNumber net id x⟩

theorem Wired.same (h : net.Wired) (hsame : Extended net net' fun _ => []) : net'.Wired := by
  refine h.extended hsame (fun _ hj => absurd hj (by simp)) ?_ ?_
  · intro i a ha
    rw [List.append_nil]
    exact h.nodup ha
  · intro i a ha hquantity
    rw [List.append_nil]
    exact h.rising ha hquantity

theorem keeps_addQuantity (net : Network) (name : String) (number : Option Float) :
    Keeps net (net.addQuantity name number).1 := by
  rcases net.addQuantity_cases name number with ⟨-, hadd⟩ | ⟨id, -, -, hsame⟩
  · rw [hadd]
    exact keeps_push net _
  · exact hsame.keeps

/-- The quantity of the name, whether it is new or not. -/
theorem addQuantity_quantity (net : Network) (name : String) (number : Option Float) :
    ∃ b, (net.addQuantity name number).1.node? (net.addQuantity name number).2 = some b ∧
      b.isQuantity = true ∧ b.name = name := by
  rcases net.addQuantity_cases name number with ⟨-, hadd⟩ | ⟨id, hid, hplace, hsame⟩
  · rw [hadd]
    exact ⟨_, by rw [node?_push]; exact if_pos rfl, rfl, rfl⟩
  · obtain ⟨a, ha, hquantity, hname⟩ := quantityId?_eq_some hid
    obtain ⟨a', ha', hsort', hname', -⟩ := hsame.keeps id a ha
    exact ⟨a', by rw [hplace, ha'], hsort'.trans hquantity, hname'.trans hname⟩

/-- The equations and their links are as they were. -/
theorem addQuantity_equation (net : Network) (name : String) (number : Option Float) {i : Nat}
    {a' : Node} (ha' : (net.addQuantity name number).1.node? i = some a')
    (hsort : a'.isQuantity = false) :
    ∃ a, net.node? i = some a ∧ a.isQuantity = false ∧ a'.links = a.links := by
  rcases net.addQuantity_cases name number with ⟨-, hadd⟩ | ⟨id, -, -, hsame⟩
  · rw [hadd, node?_push] at ha'
    split at ha'
    · cases ha'
      exact absurd hsort (by simp [Node.isQuantity])
    · exact ⟨a', ha', hsort, rfl⟩
  · obtain ⟨a, ha, hasort, -, -, hlinks⟩ := hsame.exists_node ha'
    exact ⟨a, ha, hasort ▸ hsort, by rw [hlinks, List.append_nil]⟩

theorem Wired.addQuantity (h : net.Wired) (name : String) (number : Option Float) :
    (net.addQuantity name number).1.Wired := by
  rcases net.addQuantity_cases name number with ⟨hnone, hadd⟩ | ⟨id, -, -, hsame⟩
  · rw [hadd]
    exact h.push rfl fun ha hsort => quantityId?_eq_none hnone ha hsort
  · exact h.same hsame

theorem FaithfulAt.addQuantity (hwired : net.Wired) {i : Nat} (h : net.FaithfulAt i)
    (name : String) (number : Option Float) : (net.addQuantity name number).1.FaithfulAt i := by
  rcases net.addQuantity_cases name number with ⟨-, hadd⟩ | ⟨id, -, -, hsame⟩
  · rw [hadd]
    by_cases hi : i = net.size
    · intro a body ha hbody
      rw [node?_push, if_pos hi] at ha
      cases ha
      exact absurd hbody (by simp [Node.body?])
    · exact h.push hwired hi
  · exact h.extended hwired hsame rfl

/-- **Adding a quantity keeps a network consistent.** -/
theorem Consistent.addQuantity (h : net.Consistent) (name : String) (number : Option Float) :
    (net.addQuantity name number).1.Consistent :=
  ⟨h.toWired.addQuantity name number, fun i => (h.faithful i).addQuantity h.toWired name number⟩

/-! ## Equations -/

/-- The network with a link between an equation and a quantity. -/
def link (net : Network) (equation quantity : Nat) : Network :=
  (net.modify equation (Node.addLink quantity)).modify quantity (Node.addLink equation)

theorem attach_eq (equation : Nat) (net : Network) (name : String) :
    attach equation net name =
      (net.addQuantity name (Decimal.numeral? name)).1.link equation
        (net.addQuantity name (Decimal.numeral? name)).2 := rfl

/-- The links that a link adds to a node. -/
def linkEnds (equation quantity i : Nat) : List Nat :=
  if i = equation then [quantity] else if i = quantity then [equation] else []

theorem linkEnds_equation (equation quantity : Nat) :
    linkEnds equation quantity equation = [quantity] := if_pos rfl

theorem linkEnds_quantity {equation quantity : Nat} (hne : equation ≠ quantity) :
    linkEnds equation quantity quantity = [equation] := by
  rw [linkEnds, if_neg hne.symm, if_pos rfl]

theorem linkEnds_other {equation quantity i : Nat} (he : i ≠ equation) (hq : i ≠ quantity) :
    linkEnds equation quantity i = [] := by
  rw [linkEnds, if_neg he, if_neg hq]

theorem extended_link {equation quantity : Nat} (hne : equation ≠ quantity) :
    Extended net (net.link equation quantity) (linkEnds equation quantity) := by
  refine ⟨fun i a => if i = equation then a.addLink quantity else
    if i = quantity then a.addLink equation else a, fun i => ?_, fun i a => ?_⟩
  · rw [link, node?_modify, node?_modify]
    rcases eq_or_ne i equation with rfl | hi
    · simp [hne]
    · rcases eq_or_ne i quantity with rfl | hi'
      · simp [hi]
      · simp [hi, hi']
  · rcases eq_or_ne i equation with rfl | hi
    · simp [linkEnds_equation]
    · rcases eq_or_ne i quantity with rfl | hi'
      · simp [hi, linkEnds_quantity hne]
      · simp [hi, hi', linkEnds_other hi hi']

/-- An equation may be linked to a quantity that it is not yet linked to, if it was added after all
equations that the quantity is linked to. -/
theorem Wired.link (h : net.Wired) {equation quantity : Nat} {a b : Node}
    (ha : net.node? equation = some a) (hequation : a.isQuantity = false)
    (hb : net.node? quantity = some b) (hquantity : b.isQuantity = true)
    (hnew : quantity ∉ a.links) (hlast : ∀ j ∈ b.links, j ≤ equation) :
    (net.link equation quantity).Wired := by
  have hne : equation ≠ quantity := by
    rintro rfl
    obtain rfl : a = b := Option.some.inj (ha.symm.trans hb)
    exact absurd hequation (by simp [hquantity])
  have hnew' : equation ∉ b.links := by
    intro hmem
    obtain ⟨a', ha', -, hmem'⟩ := h.joined hb hmem
    obtain rfl : a = a' := Option.some.inj (ha.symm.trans ha')
    exact hnew hmem'
  refine h.extended (extended_link hne) ?_ ?_ ?_
  · intro i j c hc hj
    rcases eq_or_ne i equation with rfl | hi
    · rw [linkEnds_equation, List.mem_singleton] at hj
      subst hj
      obtain rfl : a = c := Option.some.inj (ha.symm.trans hc)
      exact ⟨b, hb, by rw [hequation, hquantity]; rfl, by simp [linkEnds_quantity hne]⟩
    · rcases eq_or_ne i quantity with rfl | hi'
      · rw [linkEnds_quantity hne, List.mem_singleton] at hj
        subst hj
        obtain rfl : b = c := Option.some.inj (hb.symm.trans hc)
        exact ⟨a, ha, by rw [hequation, hquantity]; rfl, by simp [linkEnds_equation]⟩
      · rw [linkEnds_other hi hi'] at hj
        exact absurd hj (by simp)
  · intro i c hc
    rcases eq_or_ne i equation with rfl | hi
    · obtain rfl : a = c := Option.some.inj (ha.symm.trans hc)
      rw [linkEnds_equation]
      exact (h.nodup ha).append (List.nodup_singleton _) (by simpa using hnew)
    · rcases eq_or_ne i quantity with rfl | hi'
      · obtain rfl : b = c := Option.some.inj (hb.symm.trans hc)
        rw [linkEnds_quantity hne]
        exact (h.nodup hb).append (List.nodup_singleton _) (by simpa using hnew')
      · rw [linkEnds_other hi hi', List.append_nil]
        exact h.nodup hc
  · intro i c hc hsort
    rcases eq_or_ne i equation with rfl | hi
    · obtain rfl : a = c := Option.some.inj (ha.symm.trans hc)
      exact absurd hequation (by simp [hsort])
    · rcases eq_or_ne i quantity with rfl | hi'
      · obtain rfl : b = c := Option.some.inj (hb.symm.trans hc)
        rw [linkEnds_quantity hne]
        refine List.pairwise_append.2 ⟨h.rising hb hquantity, List.pairwise_singleton _ _, ?_⟩
        intro j hj k hk
        obtain rfl := List.mem_singleton.1 hk
        exact Nat.lt_of_le_of_ne (hlast j hj) fun heq => hnew' (heq ▸ hj)
      · rw [linkEnds_other hi hi', List.append_nil]
        exact h.rising hc hsort

/-- A network in which an equation is being linked to the quantities that are its leaves; it was
added last and is linked to the quantities of some names so far. -/
structure Attaching (net : Network) (equation : Nat) (body : Expr) (names : List String) :
    Prop where
  wired : net.Wired
  last : ∀ {i : Nat} {a : Node}, net.node? i = some a → a.isQuantity = false → i ≤ equation
  faithful : ∀ i, i ≠ equation → net.FaithfulAt i
  node : ∃ a, net.node? equation = some a ∧ a.body? = some body ∧ a.links.map net.nameOf = names

/-- A quantity may be added while the equation is being linked. -/
theorem Attaching.addQuantity {equation : Nat} {body : Expr} {names : List String}
    (h : net.Attaching equation body names) (name : String) (number : Option Float) :
    (net.addQuantity name number).1.Attaching equation body names := by
  obtain ⟨a, ha, hbody, hnames⟩ := h.node
  have hkeeps := net.keeps_addQuantity name number
  obtain ⟨a', ha', hsort', -, hbody'⟩ := hkeeps equation a ha
  refine ⟨h.wired.addQuantity name number, ?_,
    fun i hi => (h.faithful i hi).addQuantity h.wired name number, ?_⟩
  · intro i c hc hsort
    obtain ⟨c', hc', hsort', -⟩ := net.addQuantity_equation name number hc hsort
    exact h.last hc' hsort'
  · have hequation : a'.isQuantity = false := by
      rw [Node.isQuantity_eq_not_isSome_body?, hbody', hbody]
      rfl
    obtain ⟨a'', ha'', -, hlinks⟩ := net.addQuantity_equation name number ha' hequation
    obtain rfl : a = a'' := Option.some.inj (ha.symm.trans ha'')
    refine ⟨a', ha', hbody'.trans hbody, ?_⟩
    rw [hlinks, ← hnames]
    refine List.map_congr_left fun j hj => ?_
    obtain ⟨c, hc, -⟩ := h.wired.joined ha hj
    exact hkeeps.nameOf hc

/-- The equation is linked to one more quantity. -/
theorem Attaching.link {equation quantity : Nat} {body : Expr} {names : List String} {b : Node}
    (h : net.Attaching equation body names) (hb : net.node? quantity = some b)
    (hquantity : b.isQuantity = true) (hnew : b.name ∉ names) :
    (net.link equation quantity).Attaching equation body (names ++ [b.name]) := by
  obtain ⟨a, ha, hbody, hnames⟩ := h.node
  have hequation : a.isQuantity = false := by
    rw [Node.isQuantity_eq_not_isSome_body?, hbody]
    rfl
  have hne : equation ≠ quantity := by
    rintro rfl
    obtain rfl : a = b := Option.some.inj (ha.symm.trans hb)
    exact absurd hequation (by simp [hquantity])
  have hnot : quantity ∉ a.links := by
    intro hmem
    refine hnew ?_
    rw [← hnames, ← nameOf_eq hb]
    exact List.mem_map_of_mem hmem
  have hlast : ∀ j ∈ b.links, j ≤ equation := by
    intro j hj
    obtain ⟨c, hc, hsort, -⟩ := h.wired.joined hb hj
    rw [hquantity] at hsort
    exact h.last hc hsort
  have hextended := @extended_link net equation quantity hne
  refine ⟨h.wired.link ha hequation hb hquantity hnot hlast, ?_, ?_, ?_⟩
  · intro i c hc hsort
    obtain ⟨c', hc', hcsort, -⟩ := hextended.exists_node hc
    exact h.last hc' (hcsort ▸ hsort)
  · intro i hi
    rcases eq_or_ne i quantity with rfl | hi'
    · intro c cbody hc hcbody
      obtain ⟨c', hc', -, -, hcbody', -⟩ := hextended.exists_node hc
      obtain rfl : b = c' := Option.some.inj (hb.symm.trans hc')
      rw [Node.isQuantity_eq_not_isSome_body?, ← hcbody', hcbody] at hquantity
      exact absurd hquantity (by simp)
    · exact (h.faithful i hi).extended h.wired hextended (linkEnds_other hi hi')
  · obtain ⟨c, hc, -, -, hcbody⟩ := hextended.keeps equation a ha
    obtain ⟨c', hc', hclinks⟩ := hextended.links ha
    obtain rfl : c = c' := Option.some.inj (hc.symm.trans hc')
    refine ⟨c, hc, hcbody.trans hbody, ?_⟩
    rw [hclinks, linkEnds_equation, List.map_append, List.map_singleton, hextended.keeps.nameOf hb,
      nameOf_eq hb, ← hnames]
    congr 1
    refine List.map_congr_left fun j hj => ?_
    obtain ⟨d, hd, -⟩ := h.wired.joined ha hj
    exact hextended.keeps.nameOf hd

/-- One more quantity is linked, after it was added if need be. -/
theorem Attaching.attach {equation : Nat} {body : Expr} {names : List String} {name : String}
    (h : net.Attaching equation body names) (hnew : name ∉ names) :
    (Network.attach equation net name).Attaching equation body (names ++ [name]) := by
  rw [attach_eq]
  obtain ⟨b, hb, hquantity, rfl⟩ := net.addQuantity_quantity name (Decimal.numeral? name)
  exact (h.addQuantity _ _).link hb hquantity hnew

/-- All quantities are linked. -/
theorem Attaching.foldl {equation : Nat} {body : Expr} {todo : List String} :
    ∀ {net : Network} {done : List String}, net.Attaching equation body done →
      (done ++ todo).Nodup →
      (todo.foldl (Network.attach equation) net).Attaching equation body (done ++ todo) := by
  induction todo with
  | nil =>
    intro net done h _
    rw [List.append_nil]
    exact h
  | cons name todo ih =>
    intro net done h hnodup
    rw [List.append_cons] at hnodup ⊢
    refine ih (h.attach ?_) hnodup
    have hdone := (List.nodup_append.1 (List.nodup_append.1 hnodup).1).2.2
    intro hmem
    exact hdone name hmem name (List.mem_singleton_self name) rfl

/-- **Adding an equation keeps a network consistent.** -/
theorem Consistent.addEquation (h : net.Consistent) {name : String} {body : Expr} {grown : Network}
    {id : Nat} (hadd : net.addEquation name body = .ok (grown, id)) : grown.Consistent := by
  obtain ⟨hfresh, hequation, hlength, -, rfl⟩ := addEquation_ok hadd
  have hstart : (net.push (.equation name body [])).1.Attaching net.size body [] := by
    refine ⟨h.toWired.push rfl fun ha hsort => equationId?_eq_none hfresh ha hsort, ?_,
      fun i hi => (h.faithful i).push h.toWired hi, _, by rw [node?_push]; exact if_pos rfl, rfl,
      rfl⟩
    intro i a ha _
    have hlt : i < (net.push (.equation name body [])).1.size := nodes_lt ha
    have hsize : (net.push (.equation name body [])).1.size = net.size + 1 := List.length_append
    omega
  have hend : (body.leafNames.foldl (Network.attach net.size)
      (net.push (.equation name body [])).1).Attaching net.size body body.leafNames :=
    hstart.foldl (nodup_eraseDups _)
  refine ⟨hend.wired, fun i => ?_⟩
  rcases eq_or_ne i net.size with rfl | hi
  · obtain ⟨a, ha, hbody, hnames⟩ := hend.node
    intro a' body' ha' hbody'
    obtain rfl : a = a' := Option.some.inj (ha.symm.trans ha')
    obtain rfl : body = body' := Option.some.inj (hbody.symm.trans hbody')
    refine ⟨hequation, ?_, hnames⟩
    rw [← List.length_map, hnames]
    exact hlength
  · exact hend.faithful i hi

/-! ## All operations -/

/-- What storing a number keeps, recording answers keeps. -/
theorem record_induction {P : Network → Prop} (hstep : ∀ net name x, P net →
    P (Network.setQuantity net name x).1) {resolutions : Resolutions} :
    ∀ {net : Network}, P net → P (net.record resolutions) := by
  unfold Network.record
  induction resolutions with
  | nil =>
    intro net h
    exact h
  | cons found rest ih =>
    intro net h
    obtain ⟨name, resolution⟩ := found
    rw [List.foldl_cons]
    refine ih ?_
    cases resolution with
    | resolved x => exact hstep net name x h
    | unresolved => exact h

/-- **Every operation keeps a network consistent.** -/
theorem Consistent.perform (h : net.Consistent) (op : Operation) :
    (net.perform op).Consistent := by
  cases op with
  | addQuantity name number => exact h.addQuantity name number
  | setQuantity name number => exact h.addQuantity name (some number)
  | addEquation name body =>
    rw [Network.perform]
    cases hadd : net.addEquation name body with
    | ok grown => exact h.addEquation hadd
    | error error => exact h
  | record resolutions => exact record_induction (fun _ name x h => h.addQuantity name (some x)) h
  | configure settings => exact ⟨⟨h.distinct, h.joined, h.nodup, h.rising⟩, h.faithful⟩

/-- **Every reachable network is consistent.** -/
theorem Reachable.consistent {p : Expr → Prop} (h : net.Reachable p) : net.Consistent := by
  induction h with
  | empty settings =>
    exact ⟨⟨fun ha => absurd ha (by simp), fun ha => absurd ha (by simp),
      fun ha => absurd ha (by simp), fun ha => absurd ha (by simp)⟩,
      fun i a body ha => absurd ha (by simp)⟩
  | perform _ _ ih => exact ih.perform _

/-- **Whatever is done to a network**, it stays consistent. -/
theorem consistent_performAll (settings : Settings) (ops : List Operation) :
    ((empty settings).performAll ops).Consistent :=
  ((Reachable.empty settings).performAll fun op _ => op.admits_true).consistent

/-! ## Quantities and equations of a consistent network -/

/-- There is a quantity at this place. -/
def IsQuantity (net : Network) (id : Nat) : Prop :=
  ∃ a, net.node? id = some a ∧ a.isQuantity = true

/-- There is a quantity at this place, and it has no number. -/
def Unknown (net : Network) (id : Nat) : Prop := net.IsQuantity id ∧ net.numberOf? id = none

theorem bodyOf?_eq_some {id : Nat} {body : Expr} :
    net.bodyOf? id = some body ↔ ∃ a, net.node? id = some a ∧ a.body? = some body :=
  Option.bind_eq_some_iff

theorem isQuantity_of_quantityId? {name : String} {id : Nat} (h : net.quantityId? name = some id) :
    net.IsQuantity id ∧ net.nameOf id = name := by
  obtain ⟨a, ha, hquantity, hname⟩ := quantityId?_eq_some h
  exact ⟨⟨a, ha, hquantity⟩, (nameOf_eq ha).trans hname⟩

theorem bodyOf?_of_isQuantity {id : Nat} (h : net.IsQuantity id) : net.bodyOf? id = none := by
  obtain ⟨a, ha, hquantity⟩ := h
  rw [bodyOf?, ha]
  cases a with
  | quantity name number links => rfl
  | equation name body links => exact absurd hquantity (by simp [Node.isQuantity])

/-- An equation has no number. -/
theorem numberOf?_of_bodyOf? {id : Nat} {body : Expr} (h : net.bodyOf? id = some body) :
    net.numberOf? id = none := by
  obtain ⟨a, ha, hbody⟩ := bodyOf?_eq_some.1 h
  rw [numberOf?, ha]
  exact Node.number?_of_body? hbody

namespace Wired

theorem mem_linksOf_comm (h : net.Wired) {i j : Nat} : j ∈ net.linksOf i ↔ i ∈ net.linksOf j := by
  have hone : ∀ {i j : Nat}, j ∈ net.linksOf i → i ∈ net.linksOf j := by
    intro i j hj
    cases ha : net.node? i with
    | none => exact absurd hj (by simp [linksOf, ha])
    | some a =>
      rw [linksOf_eq ha] at hj
      obtain ⟨b, hb, -, hi⟩ := h.joined ha hj
      rw [linksOf_eq hb]
      exact hi
  exact ⟨hone, hone⟩

/-- A quantity is linked to equations. -/
theorem exists_body (h : net.Wired) {quantity equation : Nat} (hquantity : net.IsQuantity quantity)
    (hlink : equation ∈ net.linksOf quantity) : ∃ body, net.bodyOf? equation = some body := by
  obtain ⟨a, ha, hsort⟩ := hquantity
  rw [linksOf_eq ha] at hlink
  obtain ⟨b, hb, hbsort, -⟩ := h.joined ha hlink
  rw [hsort] at hbsort
  cases b with
  | quantity name number links => exact absurd hbsort (by simp [Node.isQuantity])
  | equation name body links => exact ⟨body, bodyOf?_eq_some.2 ⟨_, hb, rfl⟩⟩

/-- An equation is linked to quantities. -/
theorem isQuantity_of_link (h : net.Wired) {quantity equation : Nat} {body : Expr}
    (hbody : net.bodyOf? equation = some body) (hlink : quantity ∈ net.linksOf equation) :
    net.IsQuantity quantity := by
  obtain ⟨a, ha, habody⟩ := bodyOf?_eq_some.1 hbody
  rw [linksOf_eq ha] at hlink
  obtain ⟨b, hb, hbsort, -⟩ := h.joined ha hlink
  refine ⟨b, hb, ?_⟩
  rw [hbsort, Node.isQuantity_eq_not_isSome_body?, habody]
  rfl

/-- A quantity is found by its name. -/
theorem quantityId?_nameOf (h : net.Wired) {id : Nat} (hid : net.IsQuantity id) :
    net.quantityId? (net.nameOf id) = some id := by
  obtain ⟨a, ha, hsort⟩ := hid
  rw [nameOf_eq ha]
  cases hfound : net.quantityId? a.name with
  | none => exact absurd rfl (quantityId?_eq_none hfound ha hsort)
  | some id' =>
    obtain ⟨b, hb, hbsort, hname⟩ := quantityId?_eq_some hfound
    rw [h.distinct hb ha (hbsort.trans hsort.symm) hname]

/-- Quantities with one name are one quantity. -/
theorem eq_of_nameOf_eq (h : net.Wired) {i j : Nat} (hi : net.IsQuantity i)
    (hj : net.IsQuantity j) (hname : net.nameOf i = net.nameOf j) : i = j := by
  have hi' := h.quantityId?_nameOf hi
  rw [hname, h.quantityId?_nameOf hj] at hi'
  exact (Option.some.inj hi').symm

/-- Equations with one name are one equation. -/
theorem equation_eq_of_nameOf_eq (h : net.Wired) {i j : Nat} {body body' : Expr}
    (hi : net.bodyOf? i = some body) (hj : net.bodyOf? j = some body')
    (hname : net.nameOf i = net.nameOf j) : i = j := by
  obtain ⟨a, ha, habody⟩ := bodyOf?_eq_some.1 hi
  obtain ⟨b, hb, hbbody⟩ := bodyOf?_eq_some.1 hj
  rw [nameOf_eq ha, nameOf_eq hb] at hname
  refine h.distinct ha hb ?_ hname
  rw [Node.isQuantity_eq_not_isSome_body?, Node.isQuantity_eq_not_isSome_body?, habody, hbbody]
  rfl

end Wired

/-- An equation is linked to the quantities that are its leaves. -/
theorem Consistent.linkNames_eq (h : net.Consistent) {id : Nat} {body : Expr}
    (hbody : net.bodyOf? id = some body) : net.linkNames id = body.leafNames := by
  obtain ⟨a, ha, habody⟩ := bodyOf?_eq_some.1 hbody
  rw [linkNames, linksOf_eq ha]
  exact (h.faithful id a body ha habody).2.2

/-! ## The sort of the equations -/

/-- All equations of the network are of a sort. -/
def Bodies (p : Expr → Prop) (net : Network) : Prop :=
  ∀ id a body, net.node? id = some a → a.body? = some body → p body

variable {p : Expr → Prop}

theorem Bodies.modify (h : net.Bodies p) (changed : Nat) {f : Node → Node}
    (hf : ∀ a, (f a).body? = a.body?) : (net.modify changed f).Bodies p := by
  intro i a' body ha' hbody
  rw [node?_modify] at ha'
  split at ha'
  · obtain ⟨a, ha, rfl⟩ := Option.map_eq_some_iff.1 ha'
    exact h i a body ha (hf a ▸ hbody)
  · exact h i a' body ha' hbody

theorem Bodies.push (h : net.Bodies p) {node : Node}
    (hnode : ∀ body, node.body? = some body → p body) : (net.push node).1.Bodies p := by
  intro i a body ha hbody
  rw [node?_push] at ha
  split at ha
  · cases ha
    exact hnode body hbody
  · exact h i a body ha hbody

theorem Bodies.addQuantity (h : net.Bodies p) (name : String) (number : Option Float) :
    (net.addQuantity name number).1.Bodies p := by
  unfold Network.addQuantity
  split
  · exact h.push fun body hbody => absurd hbody (by simp [Node.body?])
  · cases number with
    | none => exact h
    | some x => exact h.modify _ (Node.body?_setNumber x)

theorem Bodies.attach (h : net.Bodies p) (equation : Nat) (name : String) :
    (Network.attach equation net name).Bodies p :=
  ((h.addQuantity name _).modify _ (Node.body?_addLink _)).modify _ (Node.body?_addLink _)

theorem Bodies.perform (h : net.Bodies p) {op : Operation} (hop : op.Admits p) :
    (net.perform op).Bodies p := by
  cases op with
  | addQuantity name number => exact h.addQuantity name number
  | setQuantity name number => exact h.addQuantity name (some number)
  | addEquation name body =>
    rw [Network.perform]
    cases hadd : net.addEquation name body with
    | ok grown =>
      obtain ⟨-, -, -, -, hgrown⟩ := addEquation_ok hadd
      show grown.1.Bodies p
      rw [hgrown]
      refine List.foldlRecOn _ _ ?_ fun net hnet name _ => hnet.attach _ name
      exact h.push fun body' hbody' => Option.some.inj hbody' ▸ hop
    | error error => exact h
  | record resolutions => exact record_induction (fun _ name x h => h.addQuantity name (some x)) h
  | configure settings => exact h

theorem Bodies.performAll (h : net.Bodies p) {ops : List Operation}
    (hops : ∀ op ∈ ops, op.Admits p) : (net.performAll ops).Bodies p :=
  List.foldlRecOn ops _ h fun _ hnet op hop => hnet.perform (hops op hop)

/-- The equations of a reachable network are of the sort that was added. -/
theorem Reachable.bodies (h : net.Reachable p) : net.Bodies p := by
  induction h with
  | empty settings => exact fun i a body ha => absurd ha (by simp)
  | perform _ hop ih => exact ih.perform hop

end EquationNetwork.Network
