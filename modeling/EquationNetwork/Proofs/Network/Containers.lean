import EquationNetwork.Proofs.Network.Laws
import EquationNetwork.Proofs.Network.Refinement

/-!
# What the containers of a store say of one another

The cells with their expressions, the links and the two tables of names are written apart, and a
quantity may be added in the middle of linking an equation.  After every operation they agree again.
What is said here of the tables is shown of the containers themselves; what is said of the links is
read off the network that they keep.

* `Store.Represented` — what cells, links, tables and expressions say of one another.
* `Store.Coherent.represented` — coherent containers of a consistent network represent it.
* `Store.Coherent.unlinked_network` — the quantities without links, read from the table.
* `Store.represented_performAll` — **whatever is done to a store**, its containers agree, and every
  cell keeps the place that it got when it was added.
-/

namespace EquationNetwork.Store

variable {store : Store}

/-- What the containers of a store say of one another. -/
structure Represented (store : Store) : Prop where
  /-- There is a place for links for every cell, and no other. -/
  length : store.adjacency.length = store.cells.length
  /-- The table of the quantities leads from a name to the quantity that has it, and to nothing
  else. -/
  quantityIds : ∀ {name : String} {id : Nat}, store.quantityIds[name]? = some id ↔
    ∃ number, store.cells[id]? = some (.quantity name number)
  /-- The table of the equations leads from a name to the equation that has it, and to nothing
  else. -/
  equationIds : ∀ {name : String} {id : Nat}, store.equationIds[name]? = some id ↔
    ∃ body, store.cells[id]? = some (.equation name body)
  /-- Cells of one sort have different names. -/
  distinct : ∀ {i j : Nat} {c d : Cell}, store.cells[i]? = some c → store.cells[j]? = some d →
    c.isQuantity = d.isQuantity → c.name = d.name → i = j
  /-- Links are between cells that are there. -/
  inside : ∀ {i j : Nat}, j ∈ store.linksOf i → i < store.cells.length ∧ j < store.cells.length
  /-- A link joins its ends both ways. -/
  symmetric : ∀ {i j : Nat}, j ∈ store.linksOf i ↔ i ∈ store.linksOf j
  /-- Two cells are joined by one link at most. -/
  nodup : ∀ id, (store.linksOf id).Nodup
  /-- A link joins a quantity with an equation. -/
  bipartite : ∀ {i j : Nat} {c d : Cell}, j ∈ store.linksOf i → store.cells[i]? = some c →
    store.cells[j]? = some d → d.isQuantity = !c.isQuantity
  /-- An equation has an `=` at its root.  It is linked to two quantities at least, and these are
  its leaves, each once and in order of first occurrence. -/
  equation : ∀ {id : Nat} {name : String} {body : Expr},
    store.cells[id]? = some (.equation name body) → body.isEquation = true ∧
      2 ≤ (store.linksOf id).length ∧ store.linkNames id = body.leafNames
  /-- A quantity is linked to the equations of which it is a leaf, in the order in which they were
  added. -/
  quantity : ∀ {id : Nat} {name : String} {number : Option Float},
    store.cells[id]? = some (.quantity name number) → (store.linksOf id).Pairwise (· < ·) ∧
      ∀ e, e ∈ store.linksOf id ↔ ∃ equation body,
        store.cells[e]? = some (.equation equation body) ∧ name ∈ body.leafNames

/-! ## Cells and tables -/

theorem exists_quantity_iff {cells : List Cell} {id : Nat} {name : String} :
    (∃ c, cells[id]? = some c ∧ c.isQuantity = true ∧ c.name = name) ↔
      ∃ number, cells[id]? = some (.quantity name number) := by
  constructor
  · rintro ⟨c, hc, hsort, rfl⟩
    cases c with
    | quantity name number => exact ⟨number, hc⟩
    | equation name body => exact Bool.noConfusion hsort
  · rintro ⟨number, hc⟩
    exact ⟨_, hc, rfl, rfl⟩

theorem exists_equation_iff {cells : List Cell} {id : Nat} {name : String} :
    (∃ c, cells[id]? = some c ∧ c.isQuantity = false ∧ c.name = name) ↔
      ∃ body, cells[id]? = some (.equation name body) := by
  constructor
  · rintro ⟨c, hc, hsort, rfl⟩
    cases c with
    | quantity name number => exact Bool.noConfusion hsort
    | equation name body => exact ⟨body, hc⟩
  · rintro ⟨body, hc⟩
    exact ⟨_, hc, rfl, rfl⟩

/-- The tables tell cells of one sort apart by their names. -/
theorem Coherent.eq_of_name_eq (h : store.Coherent) {i j : Nat} {c d : Cell}
    (hc : store.cells[i]? = some c) (hd : store.cells[j]? = some d)
    (hsort : c.isQuantity = d.isQuantity) (hname : c.name = d.name) : i = j := by
  cases hquantity : d.isQuantity with
  | true =>
    exact h.quantities.eq_of_name_eq ⟨c, hc, hsort.trans hquantity, hname⟩ ⟨d, hd, hquantity, rfl⟩
  | false =>
    exact h.equations.eq_of_name_eq ⟨c, hc, hsort.trans hquantity, hname⟩ ⟨d, hd, hquantity, rfl⟩

/-! ## Cells and links -/

theorem bodyOf?_eq_some {id : Nat} {body : Expr} :
    store.bodyOf? id = some body ↔ ∃ name, store.cells[id]? = some (.equation name body) := by
  rw [bodyOf?, cell?]
  cases store.cells[id]? with
  | none => simp
  | some c => cases c <;> simp [Cell.body?, eq_comm]

theorem Coherent.isQuantity_network (h : store.Coherent) {id : Nat} {name : String}
    {number : Option Float} (hc : store.cells[id]? = some (.quantity name number)) :
    store.network.IsQuantity id ∧ store.network.nameOf id = name := by
  have hnode := h.node?_network id
  rw [show store.cell? id = some (.quantity name number) from hc] at hnode
  exact ⟨⟨_, hnode, rfl⟩, Network.nameOf_eq hnode⟩

/-- Coherent containers of a consistent network represent it. -/
theorem Coherent.represented (h : store.Coherent) (hnet : store.network.Consistent) :
    store.Represented where
  length := h.length
  quantityIds := h.quantities.eq_some_iff.trans exists_quantity_iff
  equationIds := h.equations.eq_some_iff.trans exists_equation_iff
  distinct := h.eq_of_name_eq
  inside := by
    intro i j hj
    rw [← h.linksOf_network] at hj
    obtain ⟨a, b, ha, hb, -⟩ := hnet.toWired.exists_link hj
    have hsize : store.network.size = store.cells.length := h.size_network
    rw [← hsize]
    exact ⟨Network.nodes_lt ha, Network.nodes_lt hb⟩
  symmetric := by
    intro i j
    rw [← h.linksOf_network, ← h.linksOf_network]
    exact hnet.toWired.mem_linksOf_comm
  nodup := by
    intro id
    rw [← h.linksOf_network]
    exact hnet.toWired.nodup_linksOf id
  bipartite := by
    intro i j c d hj hc hd
    rw [← h.linksOf_network] at hj
    obtain ⟨a, b, ha, hb, hsort⟩ := hnet.toWired.exists_link hj
    rw [h.node?_network, cell?, hc] at ha
    rw [h.node?_network, cell?, hd] at hb
    cases ha
    cases hb
    simpa using hsort
  equation := by
    intro id name body hc
    have hbody : store.network.bodyOf? id = some body := by
      rw [h.bodyOf?_network]
      exact bodyOf?_eq_some.2 ⟨name, hc⟩
    have hequation := hnet.isEquation_of_body hbody
    have hnames := hnet.linkNames_eq hbody
    rw [h.linksOf_network] at hequation
    rw [h.linkNames_network] at hnames
    exact ⟨hequation.1, hequation.2, hnames⟩
  quantity := by
    intro id name number hc
    obtain ⟨hid, hname⟩ := h.isQuantity_network hc
    rw [← h.linksOf_network]
    refine ⟨hnet.toWired.pairwise_linksOf hid, fun e => ?_⟩
    rw [hnet.mem_linksOf_iff hid, hname, h.bodyOf?_network]
    simp only [bodyOf?_eq_some]
    constructor
    · rintro ⟨body, ⟨equation, he⟩, hleaf⟩
      exact ⟨equation, body, he, hleaf⟩
    · rintro ⟨equation, body, he, hleaf⟩
      exact ⟨body, ⟨equation, he⟩, hleaf⟩

/-! ## Quantities without links -/

/-- The numbers in the table, sorted, are the places of the quantities in order. -/
theorem Coherent.mergeSort_quantityIds (h : store.Coherent) (p : Nat → Bool) :
    ((store.quantityIds.toList.map Prod.snd).filter p).mergeSort =
      (List.range store.size).filter fun id => (store.cell? id).any Cell.isQuantity && p id := by
  have hsorted : (((store.quantityIds.toList.map Prod.snd).filter p).mergeSort).Pairwise
      (· < ·) := by
    have hle : (((store.quantityIds.toList.map Prod.snd).filter p).mergeSort).Pairwise (· ≤ ·) :=
      List.sortedLE_mergeSort.pairwise
    have hne : (((store.quantityIds.toList.map Prod.snd).filter p).mergeSort).Nodup :=
      (List.mergeSort_perm _ _).nodup_iff.2 (h.quantities.nodup_ids.filter p)
    exact (hle.and hne).imp fun hij => Nat.lt_of_le_of_ne hij.1 hij.2
  refine List.Pairwise.eq_of_mem_iff hsorted (List.pairwise_lt_range.filter _) fun id => ?_
  rw [List.mem_mergeSort, List.mem_filter, List.mem_filter, List.mem_range, Bool.and_eq_true,
    ← and_assoc]
  refine and_congr_left fun _ => ?_
  rw [h.quantities.mem_ids_iff, Option.any_eq_true]
  constructor
  · rintro ⟨c, hc, hsort⟩
    exact ⟨(List.getElem?_eq_some_iff.1 hc).1, c, hc, hsort⟩
  · exact And.right

/-- The quantities that no equation mentions, read from the table, are those read from the nodes. -/
theorem Coherent.unlinked_network (h : store.Coherent) :
    store.network.unlinked = store.unlinked := by
  show (store.network.nodes.filter fun a => a.isQuantity && a.links.isEmpty).map Node.name =
    ((store.quantityIds.toList.map Prod.snd).filter
      fun id => (store.linksOf id).isEmpty).mergeSort.map store.nameOf
  have hsize : store.network.nodes.length = store.size := h.size_network
  rw [h.mergeSort_quantityIds, ← List.filterMap_eq_map, ← List.filterMap_eq_filter,
    List.filterMap_filterMap, Network.filterMap_eq_range, hsize, ← List.filterMap_eq_map,
    ← List.filterMap_eq_filter, List.filterMap_filterMap]
  refine List.filterMap_congr fun id _ => ?_
  have hnode : store.network.nodes[id]? = store.network.node? id := rfl
  rw [hnode, h.node?_network]
  cases hc : store.cell? id with
  | none => simp [hc, Option.guard]
  | some c =>
    have hname : store.nameOf id = c.name := by
      rw [nameOf, hc]
      rfl
    by_cases hfree : c.isQuantity = true ∧ store.linksOf id = []
    · simp [hc, hname, hfree, Option.guard]
    · simp [hc, hfree, Option.guard]

/-! ## All operations -/

/-- The cells are still there: they keep their place, their sort, their name and their
expression. -/
def Keeps (store store' : Store) : Prop :=
  ∀ (id : Nat) (c : Cell), store.cells[id]? = some c → ∃ c' : Cell, store'.cells[id]? = some c' ∧
    c'.isQuantity = c.isQuantity ∧ c'.name = c.name ∧ c'.body? = c.body?

theorem Coherent.keeps {store' : Store} (h : store.Coherent) (h' : store'.Coherent)
    (hkeeps : store.network.Keeps store'.network) : store.Keeps store' := by
  intro id c hc
  have hnode : store.network.node? id = some (c.node (store.linksOf id)) := by
    rw [h.node?_network, cell?, hc]
    rfl
  obtain ⟨a, ha, hsort, hname, hbody⟩ := hkeeps id _ hnode
  rw [h'.node?_network] at ha
  obtain ⟨c', hc', rfl⟩ := Option.map_eq_some_iff.1 ha
  simp only [Cell.isQuantity_node, Cell.name_node, Cell.body?_node] at hsort hname hbody
  exact ⟨c', hc', hsort, hname, hbody⟩

/-- Operations that add only what was read lead to coherent containers, and they do to the network
what they do to the store. -/
theorem performAll_empty (settings : Settings) {ops : List Operation}
    (hops : ∀ op ∈ ops, op.Admits Expr.IsRead) :
    ((empty settings).performAll ops).Coherent ∧
      ((empty settings).performAll ops).network = (Network.empty settings).performAll ops :=
  (coherent_empty settings).performAll fun op hop => (hops op hop).mono fun _ hread => hread.spelled

/-- **Whatever is done to a store**, if the equations that are added were read, its containers
agree, and every cell that was there before some of the operations is still there after them. -/
theorem represented_performAll (settings : Settings) {ops : List Operation}
    (hops : ∀ op ∈ ops, op.Admits Expr.IsRead) :
    ((empty settings).performAll ops).Represented ∧
      ∀ before after, ops = before ++ after →
        Keeps ((empty settings).performAll before) ((empty settings).performAll ops) := by
  obtain ⟨hcoherent, hnetwork⟩ := performAll_empty settings hops
  constructor
  · apply hcoherent.represented
    rw [hnetwork]
    exact Network.consistent_performAll settings ops
  · rintro before after rfl
    obtain ⟨hbefore, hbefore'⟩ :=
      performAll_empty settings fun op hop => hops op (List.mem_append_left after hop)
    have happend : (Network.empty settings).performAll (before ++ after) =
        ((Network.empty settings).performAll before).performAll after := List.foldl_append
    apply hbefore.keeps hcoherent
    rw [hnetwork, hbefore', happend]
    exact Network.keeps_performAll _ after

/-- Two equations that share a quantity and a numeral.  The numeral had been given another number,
an equation under the name of the first is refused, and a number that was found is recorded. -/
theorem represented_performAll_product :
    ∃ ops : List Operation, (∀ op ∈ ops, op.Admits Expr.IsRead) ∧
      ((empty .default).performAll ops).Represented ∧
      Keeps ((empty .default).performAll (ops.take 2)) ((empty .default).performAll ops) ∧
      ((empty .default).performAll ops).cells.map Cell.name =
        ["x", "sum", "y", "2", "product", "z"] ∧
      ((empty .default).performAll ops).cells.map Cell.number? =
        [some 1, none, some 3, some 2, none, none] ∧
      ((empty .default).performAll ops).adjacency =
        [[1, 4], [2, 0, 3], [1], [1, 4], [5, 0, 3], [4]] ∧
      ((empty .default).performAll ops).quantityIds.toList =
        [("2", 3), ("x", 0), ("y", 2), ("z", 5)] ∧
      ((empty .default).performAll ops).equationIds.toList = [("product", 4), ("sum", 1)] := by
  let sum : Expr := .binary .equals ⟨.equals, "=", ⟨3, 3⟩⟩ (.leaf ⟨.name, "y", ⟨1, 1⟩⟩)
    (.binary .add ⟨.operator, "+", ⟨7, 7⟩⟩ (.leaf ⟨.name, "x", ⟨5, 5⟩⟩)
      (.leaf ⟨.number, "2", ⟨9, 9⟩⟩))
  let product : Expr := .binary .equals ⟨.equals, "=", ⟨3, 3⟩⟩ (.leaf ⟨.name, "z", ⟨1, 1⟩⟩)
    (.binary .mul ⟨.operator, "*", ⟨7, 7⟩⟩ (.leaf ⟨.name, "x", ⟨5, 5⟩⟩)
      (.leaf ⟨.number, "2", ⟨9, 9⟩⟩))
  have hsum : sum.IsRead := ⟨256, "y = x + 2", by decide +kernel⟩
  have hproduct : product.IsRead := ⟨256, "z = x * 2", by decide +kernel⟩
  let ops : List Operation := [.setQuantity "x" 1, .addEquation "sum" sum, .setQuantity "2" 5,
    .addEquation "sum" product, .record [("y", .resolved 3), ("x", .unresolved)],
    .configure .default, .addEquation "product" product]
  have hops : ∀ op ∈ ops, op.Admits Expr.IsRead := by
    intro op hop
    simp only [ops, List.mem_cons, List.not_mem_nil, or_false] at hop
    rcases hop with rfl | rfl | rfl | rfl | rfl | rfl | rfl
    · trivial
    · exact hsum
    · trivial
    · exact hproduct
    · trivial
    · trivial
    · exact hproduct
  have h := represented_performAll .default hops
  exact ⟨ops, hops, h.1, h.2 (ops.take 2) (ops.drop 2) rfl, by decide +kernel, by decide +kernel,
    by decide +kernel, by decide +kernel, by decide +kernel⟩

end EquationNetwork.Store
