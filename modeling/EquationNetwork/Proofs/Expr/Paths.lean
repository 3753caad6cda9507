import Mathlib.Tactic
import EquationNetwork.Expr.Basic

/-!
# Nodes and paths

What a search for a node finds, told by the paths of the tree.

* `forall_at?_binary` — a property of all nodes of an operation is one of the operation itself and
  of all nodes of both operands.
* `Precedes` — which of two paths comes first in pre-order.
* `firstPath?_eq_some_iff` — **the path found is the first in pre-order** to a node with the
  property that was looked for.
* `pathOf?_eq_some_iff`, `mem_variableNames_iff` — a variable is found at its first occurrence, and
  the names listed are those that are found.
* `turns` — the operators on the way down a path, with the turns taken there.
* `ancestors_getElem?` — the way up from a node passes each node on the way down to it.
* `misplacedEquals?_eq_none_iff` — no misplaced `=` is found exactly if `EqualsOnlyAtRoot` holds: no
  node below the root is an equation.  `exists_at?_of_misplacedEquals?` — what is found is one.
-/

namespace EquationNetwork.Expr

/-! ## Nodes at paths -/

@[simp] theorem leaf_at?_cons (t : Token) (side : Side) (path : Path) :
    (leaf t).at? (side :: path) = none := rfl

/-- The nodes of a leaf. -/
theorem forall_at?_leaf {P : Path → Expr → Prop} {t : Token} :
    (∀ path node, (leaf t).at? path = some node → P path node) ↔ P [] (leaf t) := by
  constructor
  · intro h
    exact h [] _ rfl
  · intro h path node hat
    cases path with
    | nil => cases hat; exact h
    | cons side path => exact absurd hat (by simp)

/-- The nodes of an operation are the operation and the nodes of its operands. -/
theorem forall_at?_binary {P : Path → Expr → Prop} {op : Op} {t : Token} {l r : Expr} :
    (∀ path node, (binary op t l r).at? path = some node → P path node) ↔
      P [] (binary op t l r) ∧ (∀ path node, l.at? path = some node → P (.left :: path) node) ∧
        ∀ path node, r.at? path = some node → P (.right :: path) node := by
  constructor
  · intro h
    exact ⟨h [] _ rfl, fun path node hat => h (.left :: path) node hat,
      fun path node hat => h (.right :: path) node hat⟩
  · rintro ⟨hroot, hl, hr⟩ path node hat
    cases path with
    | nil => cases hat; exact hroot
    | cons side path =>
      cases side with
      | left => exact hl path node hat
      | right => exact hr path node hat

theorem depth_pos (e : Expr) : 0 < e.depth := by
  cases e <;> simp only [depth] <;> omega

/-! ## Where `=` stands -/

/-- No node below the root is an equation. -/
def EqualsOnlyAtRoot (e : Expr) : Prop :=
  ∀ path node, e.at? path = some node → path ≠ [] → node.isEquation = false

@[simp] theorem isEquation_binary (op : Op) (t : Token) (l r : Expr) :
    (binary op t l r).isEquation = (op == .equals) := by
  cases op <;> rfl

/-- No `=` stands in an operation exactly if it is no equation and none stands in its operands. -/
theorem firstEquals?_binary_eq_none_iff {op : Op} {t : Token} {l r : Expr} :
    (binary op t l r).firstEquals? = none ↔
      op ≠ .equals ∧ l.firstEquals? = none ∧ r.firstEquals? = none := by
  cases op with
  | equals => exact iff_of_false (by simp [firstEquals?]) (fun h => h.1 rfl)
  | add | sub | mul | div | pow => simp [firstEquals?]

/-- No `=` is found exactly if no node is an equation. -/
theorem firstEquals?_eq_none_iff (e : Expr) :
    e.firstEquals? = none ↔ ∀ path node, e.at? path = some node → node.isEquation = false := by
  induction e with
  | leaf t =>
    rw [forall_at?_leaf (P := fun _ node => node.isEquation = false)]
    exact iff_of_true rfl rfl
  | binary op t l r ihl ihr =>
    rw [forall_at?_binary (P := fun _ node => node.isEquation = false), ← ihl, ← ihr,
      firstEquals?_binary_eq_none_iff, isEquation_binary, beq_eq_false_iff_ne]

/-- No misplaced `=` is found exactly if no node below the root is an equation. -/
theorem misplacedEquals?_eq_none_iff (e : Expr) :
    e.misplacedEquals? = none ↔ e.EqualsOnlyAtRoot := by
  unfold EqualsOnlyAtRoot
  cases e with
  | leaf t =>
    rw [forall_at?_leaf (P := fun path node => path ≠ [] → node.isEquation = false)]
    exact iff_of_true rfl (fun h => absurd rfl h)
  | binary op t l r =>
    rw [forall_at?_binary (P := fun path node => path ≠ [] → node.isEquation = false),
      misplacedEquals?, Option.or_eq_none_iff, firstEquals?_eq_none_iff, firstEquals?_eq_none_iff]
    simp

theorem EqualsOnlyAtRoot.of_firstEquals? {e : Expr} (h : e.firstEquals? = none) :
    e.EqualsOnlyAtRoot := fun path node hat _ => (firstEquals?_eq_none_iff e).1 h path node hat

/-- No `=` stands below an operation exactly if none stands in its operands. -/
theorem equalsOnlyAtRoot_binary_iff {op : Op} {t : Token} {l r : Expr} :
    (binary op t l r).EqualsOnlyAtRoot ↔ l.firstEquals? = none ∧ r.firstEquals? = none := by
  rw [← misplacedEquals?_eq_none_iff, misplacedEquals?, Option.or_eq_none_iff]

/-- The `=` found is the token of an equation of the tree. -/
theorem exists_at?_of_firstEquals? {e : Expr} {t : Token} (h : e.firstEquals? = some t) :
    ∃ path l r, e.at? path = some (binary .equals t l r) := by
  induction e with
  | leaf t' => exact absurd h (by simp [firstEquals?])
  | binary op t' l r ihl ihr =>
    by_cases hop : op = .equals
    · subst hop
      obtain rfl : t' = t := by simpa [firstEquals?] using h
      exact ⟨[], l, r, rfl⟩
    · have hor : l.firstEquals?.or r.firstEquals? = some t := by
        cases op with
        | equals => exact absurd rfl hop
        | add | sub | mul | div | pow => exact h
      rcases Option.or_eq_some_iff.1 hor with hl | ⟨-, hr⟩
      · obtain ⟨path, l', r', hat⟩ := ihl hl
        exact ⟨.left :: path, l', r', hat⟩
      · obtain ⟨path, l', r', hat⟩ := ihr hr
        exact ⟨.right :: path, l', r', hat⟩

/-- The misplaced `=` found is the token of an equation below the root. -/
theorem exists_at?_of_misplacedEquals? {e : Expr} {t : Token} (h : e.misplacedEquals? = some t) :
    ∃ path l r, path ≠ [] ∧ e.at? path = some (binary .equals t l r) := by
  cases e with
  | leaf t' => exact absurd h (by simp [misplacedEquals?])
  | binary op t' left right =>
    rcases Option.or_eq_some_iff.1 h with hl | ⟨-, hr⟩
    · obtain ⟨path, l, r, hat⟩ := exists_at?_of_firstEquals? hl
      exact ⟨.left :: path, l, r, by simp, hat⟩
    · obtain ⟨path, l, r, hat⟩ := exists_at?_of_firstEquals? hr
      exact ⟨.right :: path, l, r, by simp, hat⟩

/-! ## Pre-order -/

/-- The first path comes before the second in pre-order: it stops on the way to the second, or it
turns left where the second turns right. -/
def Precedes (first second : Path) : Prop :=
  List.Lex (fun a b => a = Side.left ∧ b = Side.right) first second

@[simp] theorem not_precedes_nil (path : Path) : ¬ Precedes path [] := nofun

@[simp] theorem nil_precedes_cons (side : Side) (path : Path) : Precedes [] (side :: path) := .nil

@[simp] theorem left_precedes_right (path path' : Path) :
    Precedes (.left :: path) (.right :: path') := .rel ⟨rfl, rfl⟩

@[simp] theorem not_right_precedes_left (path path' : Path) :
    ¬ Precedes (.right :: path) (.left :: path') := by
  intro h
  cases h with
  | rel h => exact absurd h.1 (by simp)

@[simp] theorem precedes_cons_iff {side : Side} {path path' : Path} :
    Precedes (side :: path) (side :: path') ↔ Precedes path path' := by
  refine ⟨fun h => ?_, .cons⟩
  cases h with
  | cons h => exact h
  | rel h => exact absurd (h.1.symm.trans h.2) (by simp)

theorem not_precedes_self (path : Path) : ¬ Precedes path path := by
  induction path with
  | nil => simp
  | cons side path ih => simpa using ih

/-- Of two different paths one comes first. -/
theorem precedes_or_eq (path : Path) : ∀ path' : Path,
    Precedes path path' ∨ path = path' ∨ Precedes path' path := by
  induction path with
  | nil => intro path'; cases path' <;> simp
  | cons side path ih =>
    intro path'
    cases path' with
    | nil => simp
    | cons side' path' =>
      cases side with
      | left => cases side' <;> simp [ih path']
      | right => cases side' <;> simp [ih path']

/-! ## Looking for a node -/

/-- Nothing is found exactly if no node has the property. -/
theorem firstPath?_eq_none_iff {p : Expr → Bool} (e : Expr) :
    e.firstPath? p = none ↔ ∀ path node, e.at? path = some node → p node = false := by
  induction e with
  | leaf t =>
    rw [forall_at?_leaf (P := fun _ node => p node = false), firstPath?]
    cases p (leaf t) <;> simp
  | binary op t l r ihl ihr =>
    rw [forall_at?_binary (P := fun _ node => p node = false), firstPath?, ← ihl, ← ihr]
    cases p (binary op t l r) <;> simp

/-- The path found leads to a node that has the property. -/
theorem firstPath?_spec {p : Expr → Bool} {e : Expr} {path : Path}
    (h : e.firstPath? p = some path) : ∃ node, e.at? path = some node ∧ p node = true := by
  induction e generalizing path with
  | leaf t =>
    unfold firstPath? at h
    split at h
    · rename_i hp
      cases h
      exact ⟨_, rfl, hp⟩
    · exact absurd h (by simp)
  | binary op t l r ihl ihr =>
    unfold firstPath? at h
    split at h
    · rename_i hp
      cases h
      exact ⟨_, rfl, hp⟩
    · rcases Option.or_eq_some_iff.1 h with h | ⟨-, h⟩
      · obtain ⟨rest, hrest, rfl⟩ := Option.map_eq_some_iff.1 h
        exact ihl hrest
      · obtain ⟨rest, hrest, rfl⟩ := Option.map_eq_some_iff.1 h
        exact ihr hrest

/-- No node before the one found has the property. -/
theorem firstPath?_first {p : Expr → Bool} {e : Expr} {path : Path}
    (h : e.firstPath? p = some path) :
    ∀ other node, e.at? other = some node → Precedes other path → p node = false := by
  induction e generalizing path with
  | leaf t =>
    unfold firstPath? at h
    split at h
    · cases h
      exact fun other node _ hother => absurd hother (not_precedes_nil other)
    · exact absurd h (by simp)
  | binary op t l r ihl ihr =>
    unfold firstPath? at h
    split at h
    · cases h
      exact fun other node _ hother => absurd hother (not_precedes_nil other)
    · rename_i hroot
      rw [forall_at?_binary (P := fun other node => Precedes other path → p node = false)]
      refine ⟨fun _ => Bool.eq_false_iff.2 hroot, ?_⟩
      rcases Option.or_eq_some_iff.1 h with h | ⟨hnone, h⟩
      · obtain ⟨rest, hrest, rfl⟩ := Option.map_eq_some_iff.1 h
        exact ⟨fun other node hat hother => ihl hrest other node hat (precedes_cons_iff.1 hother),
          fun other node _ hother => absurd hother (not_right_precedes_left other rest)⟩
      · obtain ⟨rest, hrest, rfl⟩ := Option.map_eq_some_iff.1 h
        rw [Option.map_eq_none_iff, firstPath?_eq_none_iff] at hnone
        exact ⟨fun other node hat _ => hnone other node hat,
          fun other node hat hother => ihr hrest other node hat (precedes_cons_iff.1 hother)⟩

/-- **The path found is the first to a node with the property.** -/
theorem firstPath?_eq_some_iff {p : Expr → Bool} {e : Expr} {path : Path} :
    e.firstPath? p = some path ↔ (∃ node, e.at? path = some node ∧ p node = true) ∧
      ∀ other node, e.at? other = some node → Precedes other path → p node = false := by
  constructor
  · exact fun h => ⟨firstPath?_spec h, firstPath?_first h⟩
  · rintro ⟨⟨node, hat, hnode⟩, hfirst⟩
    cases hfound : e.firstPath? p with
    | none =>
      have hnot := (firstPath?_eq_none_iff e).1 hfound path node hat
      exact absurd hnode (by simp [hnot])
    | some found =>
      obtain ⟨node', hat', hnode'⟩ := firstPath?_spec hfound
      rcases precedes_or_eq found path with hbefore | rfl | hafter
      · have hnot := hfirst found node' hat' hbefore
        exact absurd hnode' (by simp [hnot])
      · rfl
      · have hnot := firstPath?_first hfound path node hat hafter
        exact absurd hnode (by simp [hnot])

/-- Properties that every node has both of or none are found at the same path. -/
theorem firstPath?_congr {p q : Expr → Bool} {e : Expr} :
    (∀ path node, e.at? path = some node → p node = q node) → e.firstPath? p = e.firstPath? q := by
  induction e with
  | leaf t =>
    intro h
    rw [firstPath?, firstPath?, h [] _ rfl]
  | binary op t l r ihl ihr =>
    intro h
    obtain ⟨hroot, hl, hr⟩ := forall_at?_binary.1 h
    rw [firstPath?, firstPath?, hroot, ihl hl, ihr hr]

/-! ## Variables -/

/-- The path leads to the first leaf, in pre-order, that is the variable of this name. -/
structure FirstOccurrence (e : Expr) (name : String) (path : Path) : Prop where
  occurs : ∃ node, e.at? path = some node ∧ node.isVariable name = true
  first : ∀ other node, e.at? other = some node → Precedes other path →
    node.isVariable name = false

/-- A variable is found at its first occurrence. -/
theorem pathOf?_eq_some_iff {e : Expr} {name : String} {path : Path} :
    e.pathOf? name = some path ↔ e.FirstOccurrence name path :=
  firstPath?_eq_some_iff.trans ⟨fun ⟨h, h'⟩ => ⟨h, h'⟩, fun ⟨h, h'⟩ => ⟨h, h'⟩⟩

/-- A variable is found if one of the leaves is that variable. -/
theorem isSome_pathOf?_iff {e : Expr} {name : String} :
    (e.pathOf? name).isSome = true ↔ ∃ t ∈ e.leaves, t.isVariable = true ∧ t.lexeme = name := by
  induction e with
  | leaf t =>
    rw [pathOf?, firstPath?]
    cases hvar : (leaf t).isVariable name <;> simpa [isVariable, leaves] using hvar
  | binary op t l r ihl ihr =>
    have hroot : (binary op t l r).isVariable name = false := rfl
    rw [pathOf?] at ihl ihr
    simp [pathOf?, firstPath?, hroot, ihl, ihr, leaves, or_and_right, exists_or]

/-- The names listed are those that are found. -/
theorem mem_variableNames_iff {e : Expr} {name : String} :
    name ∈ e.variableNames ↔ (e.pathOf? name).isSome = true := by
  rw [isSome_pathOf?_iff]
  simp [variableNames, and_assoc]

/-! ## Ways down -/

/-- The operators on the way down a path, the outermost first, each with the turn taken there. -/
def turns (e : Expr) (path : Path) : List (Op × Side) :=
  (e.passed path).filterMap fun (node, side) => node.op?.map fun op => (op, side)

theorem passed_binary {op : Op} {t : Token} {l r : Expr} {side : Side} {path : Path} {kept : Expr}
    (h : (binary op t l r).child? side = some kept) :
    (binary op t l r).passed (side :: path) = (binary op t l r, side) :: kept.passed path := by
  rw [passed, h]

theorem turns_binary {op : Op} {t : Token} {l r : Expr} {side : Side} {path : Path} {kept : Expr}
    (h : (binary op t l r).child? side = some kept) :
    (binary op t l r).turns (side :: path) = (op, side) :: kept.turns path := by
  rw [turns, passed_binary h]
  rfl

/-! ## The way up -/

theorem at?_append (e : Expr) (before after : Path) :
    e.at? (before ++ after) = (e.at? before).bind (·.at? after) := by
  induction before generalizing e with
  | nil => rfl
  | cons side before ih =>
    rw [List.cons_append, Expr.at?, Expr.at?, Option.bind_assoc]
    exact congrArg _ (funext fun child => ih child)

/-- The nodes passed on the way to a node and then on a way down from there. -/
theorem passed_append {e node : Expr} {before : Path} (h : e.at? before = some node)
    (after : Path) : e.passed (before ++ after) = e.passed before ++ node.passed after := by
  induction before generalizing e with
  | nil =>
    obtain rfl := Option.some.inj h
    rfl
  | cons side before ih =>
    obtain ⟨child, hchild, hat⟩ := Option.bind_eq_some_iff.1 h
    rw [List.cons_append, passed, passed, hchild, List.cons_append]
    exact congrArg _ (ih hat)

/-- One node is passed with each turn. -/
theorem length_passed {e node : Expr} {path : Path} (h : e.at? path = some node) :
    (e.passed path).length = path.length := by
  induction path generalizing e with
  | nil => rfl
  | cons side path ih =>
    obtain ⟨child, hchild, hat⟩ := Option.bind_eq_some_iff.1 h
    rw [passed, hchild, List.length_cons, List.length_cons]
    exact congrArg _ (ih hat)

theorem length_ancestors {e node : Expr} {path : Path} (h : e.at? path = some node) :
    (e.ancestors path).length = path.length := by
  rw [ancestors, List.length_reverse, length_passed h]

/-- The ancestor that is followed by the rest of a path is the node before the turn. -/
theorem ancestors_getElem? {e node : Expr} {before after : Path} {side : Side}
    (h : e.at? (before ++ side :: after) = some node) :
    ∃ ancestor, e.at? before = some ancestor ∧
      (e.ancestors (before ++ side :: after))[after.length]? = some (ancestor, side) := by
  rw [at?_append] at h
  obtain ⟨ancestor, hancestor, hat⟩ := Option.bind_eq_some_iff.1 h
  obtain ⟨child, hchild, hat⟩ := Option.bind_eq_some_iff.1 hat
  refine ⟨ancestor, hancestor, ?_⟩
  rw [ancestors, passed_append hancestor, passed, hchild, List.reverse_append, List.reverse_cons]
  rw [List.append_assoc, List.getElem?_append_right (by simp [length_passed hat])]
  simp [length_passed hat]

end EquationNetwork.Expr
