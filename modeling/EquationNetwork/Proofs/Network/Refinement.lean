import EquationNetwork.Network.Store
import EquationNetwork.Proofs.Expr.WellFormed
import EquationNetwork.Proofs.Network.Representation

/-!
# Stores refine networks

A store writes its four containers one by one.  Its tables are coherent with its lists after every
operation, and the network that the lists keep goes through the operations on networks.

* `Store.Indexes` — a table leads from names to the cells of a sort, and to nothing else.
* `Store.Coherent` — the lists are of one length, and the tables lead to the cells.
* `Store.Coherent.node?_network`, `Store.Coherent.quantityId?_network` and their kind — what is read
  from a store is what is read from its network.
* `Store.Coherent.network_addQuantity`, `Store.Coherent.network_addEquation` — an operation on a
  store is the operation on its network, refusals and places included.
* `Store.Coherent.performAll` — **whatever is done to a store**, it stays coherent, and the same is
  done to its network.
* `Plan.map_network_store` — the store of a document keeps the network of the document.
-/

namespace EquationNetwork

/-! ## Cells -/

namespace Cell

@[simp] theorem isQuantity_node (links : List Nat) (c : Cell) :
    (c.node links).isQuantity = c.isQuantity := by cases c <;> rfl

@[simp] theorem name_node (links : List Nat) (c : Cell) : (c.node links).name = c.name := by
  cases c <;> rfl

@[simp] theorem number?_node (links : List Nat) (c : Cell) :
    (c.node links).number? = c.number? := by cases c <;> rfl

@[simp] theorem body?_node (links : List Nat) (c : Cell) : (c.node links).body? = c.body? := by
  cases c <;> rfl

@[simp] theorem links_node (links : List Nat) (c : Cell) : (c.node links).links = links := by
  cases c <;> rfl

theorem node_setNumber (x : Float) (links : List Nat) (c : Cell) :
    (c.setNumber x).node links = (c.node links).setNumber x := by cases c <;> rfl

theorem node_concat (id : Nat) (links : List Nat) (c : Cell) :
    c.node (links ++ [id]) = (c.node links).addLink id := by cases c <;> rfl

@[simp] theorem isQuantity_setNumber (x : Float) (c : Cell) :
    (c.setNumber x).isQuantity = c.isQuantity := by cases c <;> rfl

@[simp] theorem name_setNumber (x : Float) (c : Cell) : (c.setNumber x).name = c.name := by
  cases c <;> rfl

end Cell

/-! ## Lists side by side -/

section Pairs

variable {α β γ : Type}

/-- A member changed on the left is a pair changed. -/
theorem zipWith_modify_left {f : α → β → γ} {g : α → α} {k : γ → γ}
    (h : ∀ a b, f (g a) b = k (f a b)) (as : List α) (bs : List β) (i : Nat) :
    List.zipWith f (as.modify i g) bs = (List.zipWith f as bs).modify i k := by
  refine List.ext_getElem? fun j => ?_
  rw [List.getElem?_zipWith, List.getElem?_modify, List.getElem?_modify, List.getElem?_zipWith]
  cases as[j]? <;> cases bs[j]? <;> by_cases hij : i = j <;> simp [hij, h]

/-- A member changed on the right is a pair changed. -/
theorem zipWith_modify_right {f : α → β → γ} {g : β → β} {k : γ → γ}
    (h : ∀ a b, f a (g b) = k (f a b)) (as : List α) (bs : List β) (i : Nat) :
    List.zipWith f as (bs.modify i g) = (List.zipWith f as bs).modify i k := by
  refine List.ext_getElem? fun j => ?_
  rw [List.getElem?_zipWith, List.getElem?_modify, List.getElem?_modify, List.getElem?_zipWith]
  cases as[j]? <;> cases bs[j]? <;> by_cases hij : i = j <;> simp [hij, h]

end Pairs

/-! ## Leaves with numbers -/

/-- The numbers of the leaves are those that their lexemes spell. -/
def Expr.Spelled (e : Expr) : Prop := ∀ t ∈ e.leaves, t.value? = Decimal.numeral? t.lexeme

/-- The numbers of what is read are spelled. -/
theorem Expr.IsRead.spelled {e : Expr} (h : e.IsRead) : e.Spelled := by
  obtain ⟨limit, text, hread⟩ := h
  intro t ht
  exact Token.value?_eq_numeral? ((wellFormed_of_read hread).legible.isOperand t ht).kind

theorem Expr.map_fst_numberedLeaves (e : Expr) : e.numberedLeaves.map Prod.fst = e.leafNames := by
  have h := eraseDupsBy_map (Prod.fst : String × Option Float → String) (· == ·)
    (e.leaves.map fun t => (t.lexeme, t.value?))
  rw [List.map_map] at h
  exact h.symm

theorem Expr.length_numberedLeaves (e : Expr) : e.numberedLeaves.length = e.leafNames.length := by
  rw [← e.map_fst_numberedLeaves, List.length_map]

/-- The leaves of a spelled expression are told by their names. -/
theorem Expr.Spelled.numberedLeaves_eq {e : Expr} (h : e.Spelled) :
    e.numberedLeaves = e.leafNames.map fun name => (name, Decimal.numeral? name) := by
  have hleaves : (e.leaves.map fun t => (t.lexeme, t.value?)) =
      (e.leaves.map Token.lexeme).map fun name => (name, Decimal.numeral? name) := by
    rw [List.map_map]
    refine List.map_congr_left fun t ht => ?_
    show (t.lexeme, t.value?) = (t.lexeme, Decimal.numeral? t.lexeme)
    rw [h t ht]
  rw [numberedLeaves, hleaves, eraseDupsBy_map]
  rfl

namespace Store

variable {store : Store}

/-! ## Tables -/

section Tables

variable {table : Std.TreeMap String Nat} {quantity : Bool} {cells : List Cell}

/-- A table leads from a name to the only cell of a sort that has it, and to nothing else. -/
structure Indexes (table : Std.TreeMap String Nat) (quantity : Bool) (cells : List Cell) :
    Prop where
  eq_some_iff : ∀ {name : String} {id : Nat}, table[name]? = some id ↔
    ∃ c, cells[id]? = some c ∧ c.isQuantity = quantity ∧ c.name = name

/-- A cell of the other sort needs no entry. -/
theorem Indexes.concat_other (h : Indexes table quantity cells) {c : Cell}
    (hc : c.isQuantity ≠ quantity) : Indexes table quantity (cells ++ [c]) := by
  constructor
  intro name id
  rw [h.eq_some_iff, getElem?_concat]
  by_cases hid : id = cells.length
  · simp [hid, hc]
  · rw [if_neg hid]

/-- A cell under a new name needs an entry for this name. -/
theorem Indexes.concat (h : Indexes table quantity cells) {c : Cell}
    (hc : c.isQuantity = quantity) (hnew : table[c.name]? = none) :
    Indexes (table.insert c.name cells.length) quantity (cells ++ [c]) := by
  constructor
  intro name id
  rw [Std.TreeMap.getElem?_insert, getElem?_concat]
  simp only [Std.compare_eq_iff_eq]
  by_cases hname : c.name = name
  · subst hname
    rw [if_pos rfl]
    by_cases hid : id = cells.length
    · simp [hid, hc]
    · -- No cell before the new one has its name, since the table had no entry for it.
      rw [if_neg hid, ← h.eq_some_iff, hnew]
      simp [Ne.symm hid]
  · rw [if_neg hname, h.eq_some_iff]
    by_cases hid : id = cells.length
    · simp [hid, hname]
    · rw [if_neg hid]

/-- A table minds the sorts and the names of the cells alone. -/
theorem Indexes.modify (h : Indexes table quantity cells) (changed : Nat) {f : Cell → Cell}
    (hf : ∀ c, (f c).isQuantity = c.isQuantity ∧ (f c).name = c.name) :
    Indexes table quantity (cells.modify changed f) := by
  constructor
  intro name id
  rw [h.eq_some_iff, List.getElem?_modify]
  cases cells[id]? with
  | none => simp
  | some c => by_cases hid : changed = id <;> simp [hid, hf]

/-- A table leads to no two cells. -/
theorem Indexes.eq_of_name_eq (h : Indexes table quantity cells) {name : String} {i j : Nat}
    (hi : ∃ c, cells[i]? = some c ∧ c.isQuantity = quantity ∧ c.name = name)
    (hj : ∃ c, cells[j]? = some c ∧ c.isQuantity = quantity ∧ c.name = name) : i = j := by
  rw [← h.eq_some_iff] at hi hj
  exact Option.some.inj (hi.symm.trans hj)

/-- The entries of a table. -/
theorem Indexes.mem_toList_iff (h : Indexes table quantity cells) {name : String} {id : Nat} :
    (name, id) ∈ table.toList ↔
      ∃ c, cells[id]? = some c ∧ c.isQuantity = quantity ∧ c.name = name := by
  rw [Std.TreeMap.mem_toList_iff_getElem?_eq_some]
  exact h.eq_some_iff

/-- A table leads to every cell of its sort. -/
theorem Indexes.mem_ids_iff (h : Indexes table quantity cells) {id : Nat} :
    id ∈ table.toList.map Prod.snd ↔ ∃ c, cells[id]? = some c ∧ c.isQuantity = quantity := by
  rw [List.mem_map]
  constructor
  · rintro ⟨⟨name, id⟩, hentry, rfl⟩
    obtain ⟨c, hc, hsort, -⟩ := h.mem_toList_iff.1 hentry
    exact ⟨c, hc, hsort⟩
  · rintro ⟨c, hc, hsort⟩
    exact ⟨(c.name, id), h.mem_toList_iff.2 ⟨c, hc, hsort, rfl⟩, rfl⟩

/-- A table leads to every cell by one name. -/
theorem Indexes.nodup_ids (h : Indexes table quantity cells) :
    (table.toList.map Prod.snd).Nodup := by
  rw [List.Nodup, List.pairwise_map]
  refine Std.TreeMap.distinct_keys_toList.imp_of_mem fun {a b} ha hb hne hsame => hne ?_
  obtain ⟨c, hc, -, hname⟩ := h.mem_toList_iff.1 ha
  obtain ⟨d, hd, -, hname'⟩ := h.mem_toList_iff.1 hb
  rw [hsame] at hc
  obtain rfl : c = d := Option.some.inj (hc.symm.trans hd)
  show compare a.1 b.1 = .eq
  rw [Std.compare_eq_iff_eq, ← hname, ← hname']

end Tables

/-! ## The invariant -/

/-- The containers agree on which nodes there are. -/
structure Coherent (store : Store) : Prop where
  /-- There is a place for links for every cell, and no other. -/
  length : store.adjacency.length = store.cells.length
  quantities : Indexes store.quantityIds true store.cells
  equations : Indexes store.equationIds false store.cells

theorem coherent_empty (settings : Settings) : (empty settings).Coherent where
  length := rfl
  quantities := ⟨by simp [empty]⟩
  equations := ⟨by simp [empty]⟩

/-! ## Reading -/

namespace Coherent

theorem node?_network (h : store.Coherent) (id : Nat) :
    store.network.node? id = (store.cell? id).map fun c => c.node (store.linksOf id) := by
  show (List.zipWith (fun c links => c.node links) store.cells store.adjacency)[id]? = _
  rw [List.getElem?_zipWith, cell?, linksOf]
  cases hc : store.cells[id]? with
  | none => rfl
  | some c =>
    have hid : id < store.adjacency.length := by
      rw [h.length]
      exact (List.getElem?_eq_some_iff.1 hc).1
    rw [List.getElem?_eq_getElem hid]
    rfl

theorem size_network (h : store.Coherent) : store.network.size = store.size := by
  show (List.zipWith _ store.cells store.adjacency).length = store.cells.length
  rw [List.length_zipWith, h.length, Nat.min_self]

theorem nameOf_network (h : store.Coherent) (id : Nat) :
    store.network.nameOf id = store.nameOf id := by
  rw [Network.nameOf, nameOf, h.node?_network]
  cases store.cell? id <;> simp

theorem numberOf?_network (h : store.Coherent) (id : Nat) :
    store.network.numberOf? id = store.numberOf? id := by
  rw [Network.numberOf?, numberOf?, h.node?_network]
  cases store.cell? id <;> simp

theorem bodyOf?_network (h : store.Coherent) (id : Nat) :
    store.network.bodyOf? id = store.bodyOf? id := by
  rw [Network.bodyOf?, bodyOf?, h.node?_network]
  cases store.cell? id <;> simp

theorem linksOf_network (h : store.Coherent) (id : Nat) :
    store.network.linksOf id = store.linksOf id := by
  rw [Network.linksOf, h.node?_network]
  cases hc : store.cell? id with
  | some c => simp
  | none =>
    -- Past the cells there are no links either.
    have hid : store.adjacency.length ≤ id := by
      rw [h.length]
      exact List.getElem?_eq_none_iff.1 hc
    rw [linksOf, List.getElem?_eq_none hid]
    rfl

theorem linkNames_network (h : store.Coherent) (id : Nat) :
    store.network.linkNames id = store.linkNames id := by
  rw [Network.linkNames, linkNames, h.linksOf_network]
  exact List.map_congr_left fun other _ => h.nameOf_network other

theorem exists_node_iff (h : store.Coherent) {p : Bool → String → Prop} {id : Nat} :
    (∃ a, store.network.node? id = some a ∧ p a.isQuantity a.name) ↔
      ∃ c, store.cells[id]? = some c ∧ p c.isQuantity c.name := by
  rw [h.node?_network, cell?]
  cases store.cells[id]? <;> simp

/-- A table finds what a search through the nodes finds. -/
theorem findIdx?_network (h : store.Coherent) {table : Std.TreeMap String Nat} {quantity : Bool}
    (htable : Indexes table quantity store.cells) {named : String → Node → Bool}
    (hnamed : ∀ {name : String} {a : Node}, named name a = true ↔
      a.isQuantity = quantity ∧ a.name = name) (name : String) :
    store.network.nodes.findIdx? (named name) = table[name]? := by
  have hiff : ∀ {i : Nat}, (∃ a, store.network.node? i = some a ∧ named name a = true) ↔
      ∃ c, store.cells[i]? = some c ∧ c.isQuantity = quantity ∧ c.name = name := by
    simp only [hnamed]
    exact h.exists_node_iff (p := fun sort found => sort = quantity ∧ found = name)
  refine Option.ext fun id => ?_
  rw [htable.eq_some_iff, ← hiff]
  apply Network.findIdx?_eq_some_iff
  intro i j a b ha hb hp hp'
  exact htable.eq_of_name_eq (hiff.1 ⟨a, ha, hp⟩) (hiff.1 ⟨b, hb, hp'⟩)

theorem quantityId?_network (h : store.Coherent) (name : String) :
    store.network.quantityId? name = store.quantityId? name :=
  h.findIdx?_network h.quantities Node.isQuantityNamed_iff name

theorem equationId?_network (h : store.Coherent) (name : String) :
    store.network.equationId? name = store.equationId? name :=
  h.findIdx?_network h.equations Node.isEquationNamed_iff name

theorem value?_network (h : store.Coherent) (name : String) :
    store.network.value? name = store.value? name := by
  rw [Network.value?, value?, h.quantityId?_network]
  cases store.quantityId? name with
  | none => rfl
  | some id => exact h.numberOf?_network id

end Coherent

/-! ## Quantities -/

theorem Coherent.length_push (h : store.Coherent) (c : Cell) :
    (store.push c).1.adjacency.length = (store.push c).1.cells.length := by
  show (store.adjacency ++ [[]]).length = (store.cells ++ [c]).length
  rw [List.length_append, List.length_append, h.length]
  rfl

theorem network_push (hlength : store.adjacency.length = store.cells.length) (c : Cell) :
    (store.push c).1.network = (store.network.push (c.node [])).1 := by
  show Network.mk (List.zipWith _ (store.cells ++ [c]) (store.adjacency ++ [[]])) _ = _
  rw [List.zipWith_append hlength.symm]
  rfl

theorem network_addLink (store : Store) (id other : Nat) :
    (store.addLink id other).network = store.network.modify id (Node.addLink other) := by
  show Network.mk (List.zipWith _ store.cells (store.adjacency.modify id _)) _ = _
  rw [zipWith_modify_right fun c links => c.node_concat other links]
  rfl

theorem Coherent.addLink (h : store.Coherent) (id other : Nat) :
    (store.addLink id other).Coherent := by
  refine ⟨?_, h.quantities, h.equations⟩
  show (store.adjacency.modify id _).length = store.cells.length
  rw [List.length_modify, h.length]

/-- **Adding a quantity keeps the containers coherent.** -/
theorem Coherent.addQuantity (h : store.Coherent) (name : String) (number : Option Float) :
    (store.addQuantity name number).1.Coherent := by
  unfold Store.addQuantity
  cases hid : store.quantityIds[name]? with
  | none =>
    exact ⟨h.length_push _, h.quantities.concat (c := .quantity name number) rfl hid,
      h.equations.concat_other Bool.noConfusion⟩
  | some id =>
    cases number with
    | none => exact h
    | some x =>
      refine ⟨?_, h.quantities.modify id fun c => by simp, h.equations.modify id fun c => by simp⟩
      show store.adjacency.length = (store.cells.modify id _).length
      rw [List.length_modify, h.length]

/-- **Adding a quantity to a store** adds it to the network, at the same place. -/
theorem Coherent.network_addQuantity (h : store.Coherent) (name : String)
    (number : Option Float) :
    Prod.map network id (store.addQuantity name number) =
      store.network.addQuantity name number := by
  rw [Store.addQuantity, Network.addQuantity, h.quantityId?_network, quantityId?]
  cases hid : store.quantityIds[name]? with
  | none =>
    refine Prod.ext ?_ h.size_network.symm
    exact network_push h.length (.quantity name number)
  | some id =>
    cases number with
    | none => rfl
    | some x =>
      refine Prod.ext ?_ rfl
      show Network.mk (List.zipWith _ (store.cells.modify id _) store.adjacency) _ = _
      rw [zipWith_modify_left fun c links => c.node_setNumber x links]
      rfl

/-! ## Equations -/

theorem Coherent.attach (h : store.Coherent) (equation : Nat) (leaf : String × Option Float) :
    (Store.attach equation store leaf).Coherent :=
  ((h.addQuantity leaf.1 leaf.2).addLink _ _).addLink _ _

theorem Coherent.network_attach (h : store.Coherent) (equation : Nat) (name : String) :
    (Store.attach equation store (name, Decimal.numeral? name)).network =
      Network.attach equation store.network name := by
  rw [Network.attach, ← h.network_addQuantity, Store.attach, network_addLink, network_addLink]
  rfl

theorem Coherent.attachAll (h : store.Coherent) (equation : Nat)
    (leaves : List (String × Option Float)) :
    (leaves.foldl (Store.attach equation) store).Coherent :=
  List.foldlRecOn leaves _ h fun _ hbefore leaf _ => hbefore.attach equation leaf

theorem Coherent.network_attachAll (h : store.Coherent) (equation : Nat) (names : List String) :
    ((names.map fun name => (name, Decimal.numeral? name)).foldl
        (Store.attach equation) store).network =
      names.foldl (Network.attach equation) store.network := by
  induction names generalizing store with
  | nil => rfl
  | cons name names ih =>
    rw [List.map_cons, List.foldl_cons, List.foldl_cons, ih (h.attach equation _),
      h.network_attach]

/-- The store with an equation that is found by its name and not linked yet. -/
def pushEquation (store : Store) (name : String) (body : Expr) : Store :=
  { (store.push (.equation name body)).1 with
    equationIds := store.equationIds.insert name store.size }

theorem Coherent.pushEquation (h : store.Coherent) {name : String} (body : Expr)
    (hnew : store.equationId? name = none) : (store.pushEquation name body).Coherent :=
  ⟨h.length_push _, h.quantities.concat_other Bool.noConfusion,
    h.equations.concat (c := .equation name body) rfl hnew⟩

theorem contains_equationIds (store : Store) (name : String) :
    store.equationIds.contains name = (store.equationId? name).isSome :=
  Std.TreeMap.contains_eq_isSome_getElem?

theorem addEquation_eq (store : Store) (name : String) (body : Expr) :
    store.addEquation name body =
      if (store.equationId? name).isSome then .error (.duplicate name)
      else if !body.isEquation then .error (.notAnEquation name)
      else if body.leafNames.length < 2 then .error (.degenerate name body.leafNames.length)
      else .ok (body.numberedLeaves.foldl (attach store.size) (store.pushEquation name body),
        store.size) := by
  rw [addEquation, contains_equationIds, body.length_numberedLeaves]
  rfl

/-- **Adding an equation keeps the containers coherent.** -/
theorem Coherent.addEquation (h : store.Coherent) {name : String} {body : Expr} {grown : Store}
    {id : Nat} (hadd : store.addEquation name body = .ok (grown, id)) : grown.Coherent := by
  rw [addEquation_eq] at hadd
  split at hadd
  · exact absurd hadd (by simp)
  · rename_i hnew
    have hpushed := h.pushEquation body (by simpa using hnew)
    split at hadd
    · exact absurd hadd (by simp)
    · split at hadd
      · exact absurd hadd (by simp)
      · cases hadd
        exact hpushed.attachAll _ _

/-- **Adding an equation to a store** adds it to the network, at the same place, or it is refused
there for the same reason. -/
theorem Coherent.network_addEquation (h : store.Coherent) (name : String) {body : Expr}
    (hbody : body.Spelled) :
    (store.addEquation name body).map (Prod.map network id) =
      store.network.addEquation name body := by
  rw [addEquation_eq, Network.addEquation, h.equationId?_network]
  by_cases hnew : (store.equationId? name).isSome = true
  · rw [if_pos hnew, if_pos hnew]
    rfl
  · -- The name is entered in its table before the leaves are linked, which the network does not see.
    have hpushed := h.pushEquation body (by simpa using hnew)
    have hgrown : (body.numberedLeaves.foldl (Store.attach store.size)
        (store.pushEquation name body)).network =
          body.leafNames.foldl (Network.attach store.network.size)
            (store.network.push (.equation name body [])).1 := by
      rw [hbody.numberedLeaves_eq, hpushed.network_attachAll, h.size_network]
      congr 1
      exact network_push h.length (.equation name body)
    rw [if_neg hnew, if_neg hnew]
    split
    · rfl
    · split
      · rfl
      · exact congrArg Except.ok (Prod.ext hgrown h.size_network.symm)

/-! ## All operations -/

/-- The store after an operation.  An equation that is refused changes nothing. -/
def perform (store : Store) : Operation → Store
  | .addQuantity name number => (store.addQuantity name number).1
  | .setQuantity name number => (store.setQuantity name number).1
  | .addEquation name body =>
      match store.addEquation name body with
      | .ok (grown, _) => grown
      | .error _ => store
  | .record resolutions => store.record resolutions
  | .configure settings => { store with settings := settings }

/-- The store after operations, one after the other. -/
def performAll (store : Store) (ops : List Operation) : Store := ops.foldl perform store

/-- Recording answers keeps the containers coherent and records them in the network. -/
theorem Coherent.record (h : store.Coherent) (resolutions : Resolutions) :
    (store.record resolutions).Coherent ∧
      (store.record resolutions).network = store.network.record resolutions := by
  unfold Store.record Network.record
  induction resolutions generalizing store with
  | nil => exact ⟨h, rfl⟩
  | cons found rest ih =>
    obtain ⟨name, resolution⟩ := found
    rw [List.foldl_cons, List.foldl_cons]
    cases resolution with
    | resolved x =>
      have hset : (store.addQuantity name (some x)).1.network =
          (store.network.addQuantity name (some x)).1 :=
        congrArg Prod.fst (h.network_addQuantity name (some x))
      have hrest := ih (h.addQuantity name (some x))
      rw [hset] at hrest
      exact hrest
    | unresolved => exact ih h

/-- **Every operation keeps the containers coherent.** -/
theorem Coherent.perform (h : store.Coherent) (op : Operation) : (store.perform op).Coherent := by
  cases op with
  | addQuantity name number => exact h.addQuantity name number
  | setQuantity name number => exact h.addQuantity name (some number)
  | addEquation name body =>
    rw [Store.perform]
    cases hadd : store.addEquation name body with
    | ok grown => exact h.addEquation hadd
    | error error => exact h
  | record resolutions => exact (h.record resolutions).1
  | configure settings => exact ⟨h.length, h.quantities, h.equations⟩

/-- **An operation on a store** is the operation on its network. -/
theorem Coherent.network_perform (h : store.Coherent) {op : Operation}
    (hop : op.Admits Expr.Spelled) : (store.perform op).network = store.network.perform op := by
  cases op with
  | addQuantity name number => exact congrArg Prod.fst (h.network_addQuantity name number)
  | setQuantity name number => exact congrArg Prod.fst (h.network_addQuantity name (some number))
  | addEquation name body =>
    rw [Store.perform, Network.perform, ← h.network_addEquation name hop]
    cases store.addEquation name body <;> rfl
  | record resolutions => exact (h.record resolutions).2
  | configure settings => rfl

/-- **Whatever is done to a store**, it stays coherent, and the same is done to its network. -/
theorem Coherent.performAll (h : store.Coherent) {ops : List Operation}
    (hops : ∀ op ∈ ops, op.Admits Expr.Spelled) :
    (store.performAll ops).Coherent ∧
      (store.performAll ops).network = store.network.performAll ops := by
  induction ops generalizing store with
  | nil => exact ⟨h, rfl⟩
  | cons op ops ih =>
    have hrest := ih (h.perform op) fun op' hop' => hops op' (List.mem_cons_of_mem op hop')
    rw [h.network_perform (hops op List.mem_cons_self)] at hrest
    exact hrest

/-! ## Documents -/

namespace Coherent

theorem addEntry (h : store.Coherent) {entry : Document.Entry} {grown : Store} {id : Nat}
    (hadd : store.addEntry entry = .ok (grown, id)) : grown.Coherent := by
  unfold Store.addEntry at hadd
  split at hadd
  · exact absurd hadd (by simp)
  · rename_i body hbody
    cases hequation : store.addEquation entry.1 body with
    | error error => exact absurd hadd (by simp [hequation, Except.mapError])
    | ok added =>
      obtain rfl : added = (grown, id) := by simpa [hequation, Except.mapError] using hadd
      exact h.addEquation hequation

/-- The equation of an entry is added to the network, or it is refused there for the same reason. -/
theorem network_addEntry (h : store.Coherent) (entry : Document.Entry) :
    (store.addEntry entry).map (Prod.map network id) = store.network.addEntry entry := by
  have hsettings : store.network.settings = store.settings := rfl
  rw [Store.addEntry, Network.addEntry, hsettings]
  cases hread : Expr.read store.settings.maxNestingDepth entry.2 with
  | error error => rfl
  | ok body =>
    have hspelled : body.Spelled := Expr.IsRead.spelled ⟨_, _, hread⟩
    show ((store.addEquation entry.1 body).mapError _).map _ =
      (store.network.addEquation entry.1 body).mapError _
    rw [← h.network_addEquation entry.1 hspelled]
    cases store.addEquation entry.1 body <;> rfl

theorem network_setEntry (h : store.Coherent) (entry : Document.Entry) :
    (store.setEntry entry).map network = store.network.setEntry entry := by
  rw [Store.setEntry, Network.setEntry]
  cases Decimal.readNumber entry.2.toList with
  | none => rfl
  | some x =>
    exact congrArg (fun p => Except.ok p.1) (h.network_addQuantity entry.1 (some x))

theorem setEntry (h : store.Coherent) {entry : Document.Entry} {grown : Store}
    (hset : store.setEntry entry = .ok grown) : grown.Coherent := by
  unfold Store.setEntry at hset
  split at hset
  · cases hset
    exact h.addQuantity entry.1 _
  · exact absurd hset (by simp)

/-- Adding one entry, without the place of its equation. -/
theorem addEntry_map (h : store.Coherent) {entry : Document.Entry} {grown : Store}
    (hadd : (store.addEntry entry).map Prod.fst = .ok grown) : grown.Coherent := by
  cases hentry : store.addEntry entry with
  | error error => exact absurd hadd (by simp [hentry, Except.map])
  | ok added =>
    obtain rfl : added.1 = grown := by simpa [hentry, Except.map] using hadd
    exact h.addEntry hentry

end Coherent

end Store

/-- **The store of a plan** keeps the network of the plan, and what is wrong with one is wrong with
the other. -/
theorem Plan.map_network_store (plan : Plan) : plan.store.map Store.network = plan.network := by
  have hentries : ((Store.empty plan.settings).addEntries plan.equations).map Store.network =
      (Network.empty plan.settings).addEntries plan.equations ∧
      ∀ grown, (Store.empty plan.settings).addEntries plan.equations = .ok grown →
        grown.Coherent := by
    refine foldlM_map (P := Store.Coherent) (fun {store} entry hstore => ?_)
      (fun hadd hstore => hstore.addEntry_map hadd) (Store.coherent_empty plan.settings)
    rw [← hstore.network_addEntry]
    cases store.addEntry entry <;> rfl
  show ((Store.empty plan.settings).addEntries plan.equations >>= _).map _ =
    (Network.empty plan.settings).addEntries plan.equations >>= _
  rw [← hentries.1]
  cases hgrown : (Store.empty plan.settings).addEntries plan.equations with
  | error error => rfl
  | ok grown =>
    show (grown.setEntries plan.values).map Store.network = grown.network.setEntries plan.values
    have hgrown := hentries.2 grown hgrown
    exact (foldlM_map (P := Store.Coherent) (fun entry hstore => hstore.network_setEntry entry)
      (fun hset hstore => hstore.setEntry hset) hgrown).1

end EquationNetwork
