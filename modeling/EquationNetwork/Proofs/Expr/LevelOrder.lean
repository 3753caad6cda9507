import EquationNetwork.Expr.Parser
import EquationNetwork.Expr.Traversal
import EquationNetwork.Proofs.Expr.Paths

/-!
# Level order

The walk level by level keeps the nodes to come in a queue.  At every moment the queue holds the rest
of one level and after it the operands of what has been reported of that level, so a level ends where
the next one is complete.

* `Expr.nodesAt` — the nodes at a distance from the root, each with the path to it.  `mem_nodesAt`,
  `pairwise_nodesAt` — these are all of them, from left to right.
* `levelOrderFrom_append` — **the queue**: what stands first is reported first, and its operands
  come after all the rest.
* `levelOrderFrom_visitsAt` — from a whole level the walk goes through all levels below.
* `levelOrderFrom_perm` — what a queue stands for, as a walk depth first reports it.
* `levelOrder_levels` — **the walk reports every node once, level by level.**
-/

namespace EquationNetwork.Expr

/-! ## Levels -/

/-- A node below the operand on a side, as seen from the operation. -/
def beneath (side : Side) (v : Path × Expr) : Path × Expr := (side :: v.1, v.2)

/-- The nodes at a distance from the root, from left to right, each with the path to it. -/
def nodesAt : Expr → Nat → List (Path × Expr)
  | e, 0 => [([], e)]
  | leaf _, _ + 1 => []
  | binary _ _ l r, d + 1 =>
      (l.nodesAt d).map (beneath .left) ++ (r.nodesAt d).map (beneath .right)

@[simp] theorem nodesAt_zero (e : Expr) : e.nodesAt 0 = [([], e)] := by
  cases e <;> rfl

@[simp] theorem nodesAt_leaf (t : Token) (d : Nat) : (leaf t).nodesAt (d + 1) = [] := rfl

@[simp] theorem nodesAt_binary (op : Op) (t : Token) (l r : Expr) (d : Nat) :
    (binary op t l r).nodesAt (d + 1) =
      (l.nodesAt d).map (beneath .left) ++ (r.nodesAt d).map (beneath .right) := rfl

/-- A level holds the nodes at the end of the paths of its length. -/
theorem mem_nodesAt {e : Expr} {d : Nat} {path : Path} {node : Expr} :
    (path, node) ∈ e.nodesAt d ↔ path.length = d ∧ e.at? path = some node := by
  induction e generalizing d path with
  | leaf t =>
    cases path with
    | nil => cases d <;> simp [Expr.at?, eq_comm]
    | cons side path => cases d <;> simp
  | binary op t l r ihl ihr =>
    cases d with
    | zero => cases path <;> simp [Expr.at?, eq_comm]
    | succ d =>
      have hbeneath : ∀ (side : Side) (nodes : List (Path × Expr)),
          (path, node) ∈ nodes.map (beneath side) ↔
            ∃ rest, path = side :: rest ∧ (rest, node) ∈ nodes := by
        intro side nodes
        simp [beneath, and_comm, eq_comm]
      rw [nodesAt_binary, List.mem_append, hbeneath, hbeneath]
      simp only [ihl, ihr]
      cases path with
      | nil => simp
      | cons side path => cases side <;> simp [Expr.at?, child?]

/-- A level is listed from left to right. -/
theorem pairwise_nodesAt (e : Expr) (d : Nat) :
    (e.nodesAt d).Pairwise fun v w => Precedes v.1 w.1 := by
  induction e generalizing d with
  | leaf t => cases d <;> simp
  | binary op t l r ihl ihr =>
    cases d with
    | zero => simp
    | succ d =>
      rw [nodesAt_binary, List.pairwise_append, List.pairwise_map, List.pairwise_map]
      refine ⟨(ihl d).imp precedes_cons_iff.2, (ihr d).imp precedes_cons_iff.2, ?_⟩
      intro v hv w hw
      obtain ⟨v', -, rfl⟩ := List.mem_map.1 hv
      obtain ⟨w', -, rfl⟩ := List.mem_map.1 hw
      exact left_precedes_right v'.1 w'.1

theorem nodup_nodesAt (e : Expr) (d : Nat) : (e.nodesAt d).Nodup := by
  refine (e.pairwise_nodesAt d).imp ?_
  rintro v _ h rfl
  exact not_precedes_self v.1 h

/-- There are as many levels as the tree is deep. -/
theorem nodesAt_eq_nil_iff {e : Expr} {d : Nat} : e.nodesAt d = [] ↔ e.depth ≤ d := by
  induction e generalizing d with
  | leaf t => cases d <;> simp [depth]
  | binary op t l r ihl ihr =>
    cases d with
    | zero => simp [depth]
    | succ d =>
      simp only [nodesAt_binary, List.append_eq_nil_iff, List.map_eq_nil_iff, ihl, ihr, depth]
      omega

/-- All levels together hold the nodes of the tree. -/
theorem mem_levels {e : Expr} {path : Path} {node : Expr} :
    (path, node) ∈ (List.range e.depth).flatMap e.nodesAt ↔ e.at? path = some node := by
  simp only [List.mem_flatMap, List.mem_range, mem_nodesAt]
  constructor
  · rintro ⟨d, -, -, h⟩
    exact h
  · intro h
    refine ⟨path.length, ?_, rfl, h⟩
    have hlevel : (path, node) ∈ e.nodesAt path.length := mem_nodesAt.2 ⟨rfl, h⟩
    by_contra hnot
    rw [nodesAt_eq_nil_iff.2 (Nat.not_lt.1 hnot)] at hlevel
    exact absurd hlevel List.not_mem_nil

/-- No level holds a node of another one. -/
theorem nodup_levels (e : Expr) : ((List.range e.depth).flatMap e.nodesAt).Nodup := by
  refine List.nodup_flatMap.2 ⟨fun d _ => e.nodup_nodesAt d, List.nodup_range.imp ?_⟩
  rintro d d' hne ⟨path, node⟩ hmem hmem'
  exact hne ((mem_nodesAt.1 hmem).1.symm.trans (mem_nodesAt.1 hmem').1)

/-- A level as the walk reports it. -/
def visitsAt (e : Expr) (d : Nat) : List Visit := (e.nodesAt d).map fun v => (v.2, d)

/-- The operands of a level are the next one, wherever the levels are counted from. -/
theorem flatMap_operands_nodesAt (e : Expr) (d k : Nat) :
    ((e.nodesAt d).map fun v => (v.2, k)).flatMap operands =
      (e.nodesAt (d + 1)).map fun v => (v.2, k + 1) := by
  induction e generalizing d with
  | leaf t => cases d <;> simp [operands]
  | binary op t l r ihl ihr =>
    cases d with
    | zero => simp [operands, beneath]
    | succ d =>
      simpa [beneath, Function.comp_def] using congrArg₂ (· ++ ·) (ihl d) (ihr d)

/-! ## The queue -/

/-- **What stands first in the queue is reported first**, and its operands come after all the
rest. -/
theorem levelOrderFrom_append (first rest : List Visit) :
    levelOrderFrom (first ++ rest) = first ++ levelOrderFrom (rest ++ first.flatMap operands) := by
  induction first generalizing rest with
  | nil => simp
  | cons v first ih =>
    rw [List.cons_append, levelOrderFrom, List.append_assoc, ih, List.append_assoc,
      List.flatMap_cons, List.cons_append]

/-- From a whole level the walk goes through all levels below. -/
theorem levelOrderFrom_visitsAt {e : Expr} {n : Nat} :
    ∀ {d : Nat}, e.depth = d + n →
      levelOrderFrom (e.visitsAt d) = (List.range' d n).flatMap e.visitsAt := by
  induction n with
  | zero =>
    intro d hdepth
    have hnil : e.nodesAt d = [] := nodesAt_eq_nil_iff.2 (by omega)
    rw [visitsAt, hnil]
    exact levelOrderFrom.eq_1
  | succ n ih =>
    intro d hdepth
    have hnext : (e.visitsAt d).flatMap operands = e.visitsAt (d + 1) :=
      flatMap_operands_nodesAt e d d
    have hqueue := levelOrderFrom_append (e.visitsAt d) []
    rw [List.append_nil, List.nil_append, hnext] at hqueue
    rw [hqueue, ih (by omega), List.range'_succ, List.flatMap_cons]

/-- The walk level by level. -/
theorem levelOrder_eq (e : Expr) : e.levelOrder = (List.range e.depth).flatMap e.visitsAt := by
  have hroot : e.visitsAt 0 = [(e, 0)] := by simp [visitsAt]
  rw [levelOrder, ← hroot, levelOrderFrom_visitsAt (Nat.zero_add _).symm, List.range_eq_range']

/-! ## Level order and depth first -/

/-- A walk depth first reports a node and what it reports of its operands. -/
theorem walkFrom_perm (order : Order) (v : Visit) :
    (v.1.walkFrom order v.2).Perm (v :: (operands v).flatMap fun w => w.1.walkFrom order w.2) := by
  obtain ⟨e, d⟩ := v
  cases e with
  | leaf t => exact .refl _
  | binary op t l r =>
    simp only [walkFrom, operands, List.flatMap_cons, List.flatMap_nil, List.append_nil]
    cases order with
    | before => exact .refl _
    | between => exact List.perm_middle
    | after => exact List.perm_append_singleton _ _

/-- **What a queue stands for**, as a walk depth first reports it. -/
theorem levelOrderFrom_perm (order : Order) (queue : List Visit) :
    (levelOrderFrom queue).Perm (queue.flatMap fun v => v.1.walkFrom order v.2) := by
  fun_induction levelOrderFrom queue with
  | case1 => exact .refl _
  | case2 v queue ih =>
    rw [List.flatMap_append] at ih
    rw [List.flatMap_cons]
    refine ((ih.trans List.perm_append_comm).cons v).trans ?_
    exact ((walkFrom_perm order v).symm.append_right _)

/-- A walk that starts one deeper reports all depths one deeper. -/
theorem walkFrom_succ (order : Order) (e : Expr) (d : Nat) :
    e.walkFrom order (d + 1) = (e.walkFrom order d).map fun v => (v.1, v.2 + 1) := by
  induction e generalizing d with
  | leaf t => rfl
  | binary op t l r ihl ihr =>
    simp only [walkFrom]
    cases order <;> simp [ihl, ihr]

/-! ## The walk -/

/-- **The walk level by level reports every node once.**  It goes through the levels from the root
down and through each level from left to right; it reports the same nodes as a walk depth first in
any order, which counts depths from 1; and the greatest depth that it reports is that of the tree. -/
theorem levelOrder_levels (e : Expr) :
    e.levelOrder = (List.range e.depth).flatMap
        (fun d => (e.nodesAt d).map fun (_, node) => (node, d)) ∧
      (∀ d, (e.nodesAt d).Pairwise (fun v w => Precedes v.1 w.1) ∧
        ∀ path node, (path, node) ∈ e.nodesAt d ↔ path.length = d ∧ e.at? path = some node) ∧
      (∀ path node, ((List.range e.depth).flatMap e.nodesAt).count (path, node) =
        if e.at? path = some node then 1 else 0) ∧
      (∀ order, (e.levelOrder.map fun (node, d) => (node, d + 1)).Perm (e.walk order)) ∧
      (e.levelOrder.map fun (_, d) => d + 1).max? = some e.depth := by
  refine ⟨e.levelOrder_eq, fun d => ⟨e.pairwise_nodesAt d, fun _ _ => mem_nodesAt⟩,
    fun path node => ?_, fun order => ?_, List.max?_eq_some_iff.2 ⟨?_, ?_⟩⟩
  · rw [e.nodup_levels.count]
    exact if_congr mem_levels rfl rfl
  · have hperm := levelOrderFrom_perm order [(e, 0)]
    rw [List.flatMap_cons, List.flatMap_nil, List.append_nil] at hperm
    rw [walk, walkFrom_succ]
    exact hperm.map _
  · obtain ⟨d, hd⟩ : ∃ d, e.depth = d + 1 := Nat.exists_eq_add_one.2 e.depth_pos
    obtain ⟨v, hv⟩ := List.exists_mem_of_ne_nil (e.nodesAt d)
      fun hnil => by have hle := nodesAt_eq_nil_iff.1 hnil; omega
    rw [levelOrder_eq, List.mem_map]
    refine ⟨(v.2, d), List.mem_flatMap.2 ⟨d, List.mem_range.2 (by omega), ?_⟩, hd.symm⟩
    exact List.mem_map_of_mem hv
  · intro depth hdepth
    rw [levelOrder_eq, List.mem_map] at hdepth
    obtain ⟨w, hw, rfl⟩ := hdepth
    obtain ⟨d, hd, hw⟩ := List.mem_flatMap.1 hw
    obtain ⟨v, -, rfl⟩ := List.mem_map.1 hw
    exact List.mem_range.1 hd

/-- The levels of `a = b * c`. -/
example : ((read 256 "a = b * c").toOption.map fun e =>
      e.levelOrder.map fun (node, d) => (node.lexeme, d)) =
    some [("=", 0), ("a", 1), ("*", 1), ("b", 2), ("c", 2)] := by
  decide +kernel

end EquationNetwork.Expr
