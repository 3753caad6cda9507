import EquationNetwork.Proofs.Expr.Isolated
import EquationNetwork.Proofs.Expr.Printable
import EquationNetwork.Proofs.Token.Patterns

/-!
# The index of variables

Where the variables of an expression are, told in three ways that agree: by one walk that enters
each variable where it is met first, by a search for a leaf that is the variable, and by a search
for any node with its lexeme.

* `Expr.index` — the names and paths that one walk enters.
* `Expr.lookup_indexFrom`, `Expr.names_indexFrom` — **what the walk enters**: the first occurrence
  of each variable, in order.
* `Expr.Textual.find?_eq_pathOf?` — **a search for a name** finds the leaf that is that variable.
* `Expr.index_exact` — all of this of an expression that is read, solved or isolated.
-/

namespace EquationNetwork

/-! ## Entering names -/

/-- Names with the paths they were entered with, in the order in which they were entered. -/
abbrev Index := List (String × Path)

/-- Enters a name, unless it has been entered before. -/
def Index.enter (index : Index) (name : String) (path : Path) : Index :=
  if (index.lookup name).isSome then index else index ++ [(name, path)]

/-- A name is found with the path that it was first entered with. -/
theorem Index.lookup_enter (index : Index) (name : String) (path : Path) (other : String) :
    (index.enter name path).lookup other =
      (index.lookup other).or (if name = other then some path else none) := by
  unfold enter
  split
  · rename_i hentered
    by_cases hother : name = other
    · subst hother
      obtain ⟨found, hfound⟩ := Option.isSome_iff_exists.1 hentered
      rw [hfound, Option.some_or]
    · rw [if_neg hother, Option.or_none]
  · rw [List.lookup_append, List.lookup_cons]
    by_cases hother : name = other
    · simp [hother]
    · rw [beq_eq_false_iff_ne.2 (Ne.symm hother), if_neg hother]
      rfl

theorem Index.isSome_lookup_iff {index : Index} {name : String} :
    (index.lookup name).isSome = true ↔ name ∈ index.map Prod.fst := by
  rw [List.lookup_isSome_iff, List.mem_map]
  exact exists_congr fun entry => and_congr_right fun _ => beq_iff_eq.trans eq_comm

/-- The names of the index are those that were to be entered, each once and in order. -/
theorem Index.names_enter {index : Index} {names : List String}
    (h : index.map Prod.fst = names.eraseDups) (name : String) (path : Path) :
    (index.enter name path).map Prod.fst = (names ++ [name]).eraseDups := by
  have hentered : (index.lookup name).isSome = true ↔ name ∈ names := by
    rw [isSome_lookup_iff, h, List.mem_eraseDups]
  rw [eraseDups_concat, enter]
  by_cases hname : name ∈ names
  · rw [if_pos (hentered.2 hname), if_pos hname, h, List.append_nil]
  · rw [if_neg (hentered.not.2 hname), if_neg hname, List.map_append, h]
    rfl

namespace Expr

/-! ## The walk -/

/-- Walks through an expression, to which the path `here` leads, and enters its variables. -/
def indexFrom (here : Path) (index : Index) : Expr → Index
  | leaf t => if t.isVariable then index.enter t.lexeme here else index
  | binary _ _ l r => r.indexFrom (here ++ [.right]) (l.indexFrom (here ++ [.left]) index)

/-- The names of the variables, each with the path to its first occurrence. -/
def index (e : Expr) : Index := e.indexFrom [] []

/-- The walk enters a variable where the search finds it, unless it was entered before. -/
theorem lookup_indexFrom (name : String) {e : Expr} : ∀ (here : Path) (index : Index),
    (e.indexFrom here index).lookup name =
      (index.lookup name).or ((e.pathOf? name).map (here ++ ·)) := by
  induction e with
  | leaf t =>
    intro here index
    rw [indexFrom, pathOf?, firstPath?, isVariable]
    cases hvariable : t.isVariable with
    | false => simp
    | true =>
      rw [if_pos rfl, Index.lookup_enter]
      by_cases hname : t.lexeme = name <;> simp [hname]
  | binary op t l r ihl ihr =>
    intro here index
    rw [indexFrom, ihr, ihl, pathOf?_binary, Option.or_assoc, Option.map_or, Option.map_map,
      Option.map_map]
    simp [Function.comp_def]

/-- The walk enters the variables in the order of their occurrence. -/
theorem names_indexFrom {e : Expr} : ∀ (here : Path) {index : Index} {names : List String},
    index.map Prod.fst = names.eraseDups →
      (e.indexFrom here index).map Prod.fst = (names ++ e.occurring).eraseDups := by
  induction e with
  | leaf t =>
    intro here index names h
    rw [indexFrom]
    cases hvariable : t.isVariable with
    | false => simpa [occurring, leaves, hvariable] using h
    | true => simpa [occurring, leaves, hvariable] using Index.names_enter h t.lexeme here
  | binary op t l r ihl ihr =>
    intro here index names h
    rw [indexFrom, occurring_binary, ← List.append_assoc]
    exact ihr _ (ihl _ h)

theorem lookup_index (e : Expr) (name : String) : e.index.lookup name = e.pathOf? name := by
  rw [index, lookup_indexFrom]
  simp

theorem names_index (e : Expr) : e.index.map Prod.fst = e.variableNames := by
  have hnone : ([] : Index).map Prod.fst = ([] : List String).eraseDups := rfl
  rw [index, names_indexFrom [] hnone, List.nil_append]
  rfl

/-! ## Looking for a lexeme -/

theorem Textual.at? {e : Expr} (h : e.Textual) :
    ∀ path node, e.at? path = some node → node.Textual := by
  induction e with
  | leaf t => exact forall_at?_leaf.2 h
  | binary op t l r ihl ihr => exact forall_at?_binary.2 ⟨h, ihl h.2.1, ihr h.2.2⟩

end Expr

/-- Among operands the variables are those that are names by their kind. -/
theorem Token.IsOperand.isVariable_eq_name {t : Token} (h : t.IsOperand) :
    t.isVariable = (t.kind == .name) := by
  rcases h with ⟨hkind, -⟩ | hvariable
  · rw [isVariable, hkind]
    rfl
  · rw [hvariable, (Bool.and_eq_true_iff.1 hvariable).1]

/-- No operator is written like a name. -/
theorem Op.lexeme_notMem_pattern (op : Op) : op.lexeme.toList ∉ Kind.name.pattern := by
  rw [lexeme_mem_pattern_iff]
  cases op <;> decide

namespace Expr

/-- A node that is written like a name is a leaf that is that variable. -/
theorem Textual.lexeme_beq {e : Expr} (h : e.Textual) {name : String}
    (hname : name.toList ∈ Kind.name.pattern) : (e.lexeme == name) = e.isVariable name := by
  cases e with
  | leaf t =>
    have hoperand : t.IsOperand := h.legible
    rw [isVariable, hoperand.isVariable_eq_name]
    by_cases hlexeme : t.lexeme = name
    · subst hlexeme
      simp [lexeme, token, (h.1.kind_iff .name).2 hname]
    · simp [lexeme, token, hlexeme]
  | binary op t l r =>
    have hlexeme : t.lexeme ≠ name := by
      rintro rfl
      rw [h.1] at hname
      exact op.lexeme_notMem_pattern hname
    simpa [lexeme, token, isVariable] using hlexeme

/-- **A search for a lexeme** that is a name finds the variable. -/
theorem Textual.find?_eq_pathOf? {e : Expr} (h : e.Textual) {name : String}
    (hname : name.toList ∈ Kind.name.pattern) : e.find? name = e.pathOf? name :=
  firstPath?_congr fun path node hat => (h.at? path node hat).lexeme_beq hname

/-! ## Expressions that are read, solved or isolated -/

/-- **The index is exact.**  Let an expression be read from a text, or be what solving or isolating
makes of one.  Its variables are the lexemes of the leaves that are names, each once, and they are
the names that the walk enters, with the path that the search finds. No path is found for other
names, and a search for a lexeme that is a name finds the same one. The path leads to the first leaf
in pre-order that is the variable, and the way up from there passes one node for each turn. -/
theorem index_exact {e : Expr} (he : e.Obtained) :
    e.variableNames = ((e.leaves.filter (·.kind == .name)).map Token.lexeme).eraseDups ∧
      e.index.map Prod.fst = e.variableNames ∧
      (∀ name, e.index.lookup name = e.pathOf? name) ∧
      (∀ name, (e.pathOf? name).isSome = true ↔ name ∈ e.variableNames) ∧
      (∀ name, name.toList ∈ Kind.name.pattern → e.pathOf? name = e.find? name) ∧
      ∀ name path, e.pathOf? name = some path →
        (∃ t, e.at? path = some (.leaf t) ∧ t.kind = .name ∧ t.lexeme = name) ∧
        (∀ other t, e.at? other = some (.leaf t) → t.kind = .name → t.lexeme = name →
          ¬ Precedes other path) ∧
        (e.ancestors path).length = path.length ∧
        ∀ before side after, path = before ++ side :: after →
          ∃ ancestor, e.at? before = some ancestor ∧
            (e.ancestors path)[after.length]? = some (ancestor, side) := by
  have htextual := he.printable.textual
  refine ⟨?_, names_index e, lookup_index e, fun name => mem_variableNames_iff.symm,
    fun name hname => (htextual.find?_eq_pathOf? hname).symm, fun name path hpath => ?_⟩
  · rw [variableNames]
    congr 2
    exact List.filter_congr fun t ht => (htextual.legible.isOperand t ht).isVariable_eq_name
  obtain ⟨⟨node, hat, hnode⟩, hfirst⟩ := pathOf?_eq_some_iff.1 hpath
  refine ⟨?_, fun other t hother hkind hlexeme hbefore => ?_, length_ancestors hat, ?_⟩
  · cases node with
    | leaf t =>
      obtain ⟨hvariable, hlexeme⟩ := Bool.and_eq_true_iff.1 hnode
      exact ⟨t, hat, beq_iff_eq.1 (Bool.and_eq_true_iff.1 hvariable).1, beq_iff_eq.1 hlexeme⟩
    | binary op t l r => exact absurd hnode (by simp [isVariable])
  · have hoperand : t.IsOperand := (htextual.at? other _ hother).legible
    have hvariable : (leaf t).isVariable name = true := by
      simp [isVariable, hoperand.isVariable_eq_name, hkind, hlexeme]
    exact absurd hvariable (by simp [hfirst other _ hother hbefore])
  · rintro before side after rfl
    exact ancestors_getElem? hat

/-- The equation with a variable isolated has its variables in another order. -/
theorem index_exact_isolated :
    ∃ e q, read 256 "x + y = x * 2" = .ok e ∧ e.isolate 20 "y" = .ok q ∧
      q.text = "y = ((x * 2) - x)" ∧ e.variableNames = ["x", "y"] ∧
      q.index = [("y", [.left]), ("x", [.right, .left, .left])] ∧
      q.variableNames = ["y", "x"] ∧ q.find? "x" = some [.right, .left, .left] ∧
      (∃ node, q.at? [.right] = some node ∧
        (q.ancestors [.right, .left, .left])[1]? = some (node, .left)) ∧
      q.find? "-" = some [.right] ∧ q.pathOf? "-" = none := by
  let sum : Expr := .binary .add ⟨.operator, "+", ⟨3, 3⟩⟩ (.leaf ⟨.name, "x", ⟨1, 1⟩⟩)
    (.leaf ⟨.name, "y", ⟨5, 5⟩⟩)
  let product : Expr := .binary .mul ⟨.operator, "*", ⟨11, 11⟩⟩ (.leaf ⟨.name, "x", ⟨9, 9⟩⟩)
    (.leaf ⟨.number, "2", ⟨13, 13⟩⟩)
  let e : Expr := .binary .equals ⟨.equals, "=", ⟨7, 7⟩⟩ sum product
  have hread : read 256 "x + y = x * 2" = .ok e := by decide +kernel
  have htext : (e.isolate 20 "y").map text = .ok "y = ((x * 2) - x)" := by decide +kernel
  have hindex : (e.isolate 20 "y").map index =
      .ok [("y", [.left]), ("x", [.right, .left, .left])] := by decide +kernel
  have hminus : (e.isolate 20 "y").map (·.find? "-") = .ok (some [.right]) := by decide +kernel
  have hnames : e.variableNames = ["x", "y"] := by decide +kernel
  obtain ⟨q, hq, hqtext⟩ := map_eq_ok_iff.1 htext
  rw [hq] at hindex hminus
  have hqindex : q.index = [("y", [.left]), ("x", [.right, .left, .left])] := Except.ok.inj hindex
  have hqminus : q.find? "-" = some [.right] := Except.ok.inj hminus
  obtain ⟨-, hentered, hlookup, -, hfind, hfound⟩ := index_exact (.isolate (.read hread) hq)
  have hvariables : q.variableNames = ["y", "x"] := by
    rw [← hentered, hqindex]
    rfl
  have hpath : q.pathOf? "x" = some [.right, .left, .left] := by
    rw [← hlookup, hqindex]
    rfl
  have hx : "x".toList ∈ Kind.name.pattern :=
    Pattern.mem_name.2 ⟨'x', [], by simp, by decide, by simp⟩
  obtain ⟨-, -, -, hup⟩ := hfound "x" _ hpath
  refine ⟨e, q, hread, hq, hqtext, hnames, hqindex, hvariables, ?_, ?_, hqminus, ?_⟩
  · rw [← hfind "x" hx, hpath]
  · exact hup [.right] .left [.left] rfl
  · rw [← hlookup, hqindex]
    rfl

end Expr

end EquationNetwork
