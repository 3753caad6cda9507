import EquationNetwork.Proofs.Document.Keys
import EquationNetwork.Proofs.Expr.Operands
import EquationNetwork.Proofs.Network.Listing
import EquationNetwork.Proofs.Network.Refinement

/-!
# Loading a document

What the problem of a document has to do with the document.

* `Network.addEntries_ok`, `Network.setEntries_ok` — what the entries of `equations` and of `values`
  do to a network.
* `Problem.Represents` — the problem says what the entries of a document say.
* `Problem.represents_of_ofText` — **every problem that is loaded represents its document.**
-/

namespace EquationNetwork

open Document (Entry)

namespace Network

variable {net grown : Network} {entries : List Entry}

/-! ## Entries of equations -/

/-- A network grows by the equations of entries. -/
structure Enacts (net grown : Network) (entries : List Entry) (bodies : List Expr) : Prop where
  read : List.Forall₂ (fun entry body =>
    Expr.read net.settings.maxNestingDepth entry.2 = .ok body) entries bodies
  settings : grown.settings = net.settings
  laws : grown.laws = net.laws ++ (entries.map Prod.fst).zip bodies
  /-- Numerals among the leaves bring their numbers. -/
  value? : ∀ name, grown.value? name =
    (if name ∈ bodies.flatMap Expr.leafNames then Decimal.numeral? name else none).or
      (net.value? name)
  /-- New names come after the old ones, in order of first occurrence. -/
  quantityNames : ∀ {seen : List String}, net.quantityNames = seen.eraseDups →
    grown.quantityNames = (seen ++ bodies.flatMap Expr.leafNames).eraseDups

theorem Enacts.concat {bodies : List Expr} (h : Enacts net grown entries bodies) {entry : Entry}
    {body : Expr} {next : Network} {id : Nat}
    (hread : Expr.read grown.settings.maxNestingDepth entry.2 = .ok body)
    (hadd : grown.addEquation entry.1 body = .ok (next, id)) :
    Enacts net next (entries ++ [entry]) (bodies ++ [body]) where
  read := List.rel_append h.read (.cons (h.settings ▸ hread) .nil)
  settings := (settings_addEquation hadd).trans h.settings
  laws := by
    have hlength : (entries.map Prod.fst).length = bodies.length := by
      rw [List.length_map, h.read.length_eq]
    rw [laws_addEquation hadd, h.laws, List.map_append, List.zip_append hlength, List.append_assoc]
    rfl
  value? name := by
    rw [value?_addEquation hadd, h.value?, ← Option.or_assoc, List.flatMap_append]
    congr 1
    by_cases hbody : name ∈ body.leafNames
    · cases hnumeral : Decimal.numeral? name <;> simp [hbody]
    · simp [hbody]
  quantityNames hseen := by
    rw [quantityNames_addEquation hadd (h.quantityNames hseen), List.flatMap_append,
      List.append_assoc]
    simp

/-- What is read is well formed. -/
theorem Enacts.wellFormed {bodies : List Expr} (h : Enacts net grown entries bodies) :
    ∀ body ∈ bodies, body.WellFormed := by
  have hread := h.read
  clear h
  induction hread with
  | nil => exact fun body hbody => absurd hbody List.not_mem_nil
  | cons hfirst _ ih => exact List.forall_mem_cons.2 ⟨wellFormed_of_read hfirst, ih⟩

/-- The variables of the equations are the leaves that are no numerals. -/
theorem Enacts.variableNames_eq {bodies : List Expr} (h : Enacts net grown entries bodies) :
    bodies.flatMap Expr.variableNames =
      (bodies.flatMap Expr.leafNames).filter fun name => (Decimal.numeral? name).isNone := by
  rw [List.filter_flatMap]
  refine List.flatMap_congr fun body hbody => ?_
  exact (h.wellFormed body hbody).legible.variableNames_eq

/-- What the entries of equations do to a network. -/
theorem addEntries_ok (h : net.addEntries entries = .ok grown) :
    ∃ bodies, Enacts net grown entries bodies := by
  refine addEntries_induction (P := fun entries grown => ∃ bodies, Enacts net grown entries bodies)
    ?_ h ⟨[], .nil, rfl, by simp, by simp, fun hseen => by simp [hseen]⟩
  rintro done grown next entry body id hread hadd ⟨bodies, hdone⟩
  exact ⟨bodies ++ [body], hdone.concat hread hadd⟩

/-! ## Entries of values -/

/-- The last of the entries with a key gives a number. -/
def GivenLast (entries : List Entry) (key : String) (x : Float) : Prop :=
  ∃ before text after, entries = before ++ (key, text) :: after ∧ key ∉ after.map Prod.fst ∧
    Decimal.readNumber text.toList = some x

/-- A network takes the numbers of entries. -/
structure Takes (net grown : Network) (entries : List Entry) : Prop where
  settings : grown.settings = net.settings
  laws : grown.laws = net.laws
  given : ∀ key ∈ entries.map Prod.fst, ∃ x, GivenLast entries key x ∧ grown.value? key = some x
  kept : ∀ name ∉ entries.map Prod.fst, grown.value? name = net.value? name
  /-- New names come after the old ones, in order of first occurrence. -/
  quantityNames : ∀ {seen : List String}, net.quantityNames = seen.eraseDups →
    grown.quantityNames = (seen ++ entries.map Prod.fst).eraseDups

theorem Takes.concat (h : Takes net grown entries) {entry : Entry} {x : Float}
    (hread : Decimal.readNumber entry.2.toList = some x) :
    Takes net (grown.setQuantity entry.1 x).1 (entries ++ [entry]) where
  settings := (settings_addQuantity grown entry.1 (some x)).trans h.settings
  laws := (laws_addQuantity grown entry.1 (some x)).trans h.laws
  given key hkey := by
    rw [setQuantity, value?_addQuantity]
    by_cases hlast : entry.1 = key
    · subst hlast
      exact ⟨x, ⟨entries, entry.2, [], rfl, by simp, hread⟩, by simp⟩
    · have hbefore : key ∈ entries.map Prod.fst := by
        simpa [Ne.symm hlast] using hkey
      obtain ⟨y, ⟨before, text, after, rfl, hafter, hy⟩, hvalue⟩ := h.given key hbefore
      refine ⟨y, ⟨before, text, after ++ [entry], by simp, ?_, hy⟩, by simp [hlast, hvalue]⟩
      simpa [Ne.symm hlast] using hafter
  kept name hname := by
    rw [List.map_append, List.mem_append, not_or] at hname
    have hother : entry.1 ≠ name := fun heq => hname.2 (by simp [heq])
    rw [setQuantity, value?_addQuantity, if_neg hother, Option.none_or, h.kept name hname.1]
  quantityNames hseen := by
    rw [setQuantity, quantityNames_addQuantity, h.quantityNames hseen, List.map_append,
      ← List.append_assoc, List.map_singleton, eraseDups_concat]
    simp only [List.mem_eraseDups]

/-- What the entries of values do to a network. -/
theorem setEntries_ok (h : net.setEntries entries = .ok grown) : Takes net grown entries := by
  refine setEntries_induction (P := fun entries grown => Takes net grown entries) ?_ h
    ⟨rfl, rfl, by simp, by simp, fun hseen => by simp [hseen]⟩
  intro done grown entry x hread hdone
  exact hdone.concat hread

end Network

/-! ## Plans -/

/-- The names of the variables of equations, each once and in order of first occurrence. -/
def variablesOf (bodies : List Expr) : List String :=
  (bodies.flatMap Expr.variableNames).eraseDups

section Plan

variable {plan : Plan} {net grown : Network} {bodies : List Expr}
  (henacts : (Network.empty plan.settings).Enacts grown plan.equations bodies)
  (htakes : grown.Takes net plan.values)

include henacts htakes

/-- A quantity that no entry of the values names has a number only if it is a numeral. -/
theorem Plan.value?_eq {name : String} (hname : name ∉ plan.values.map Prod.fst) :
    net.value? name =
      if name ∈ bodies.flatMap Expr.leafNames then Decimal.numeral? name else none := by
  rw [htakes.kept name hname, henacts.value?]
  exact Option.or_none

/-- A number in an equation has its own number, whatever the values are. -/
theorem Plan.exists_numeral (hkeyed : Document.Keyed plan.values) {body : Expr}
    (hbody : body ∈ bodies) {t : Token} (ht : t ∈ body.leaves) (hkind : t.kind = .number) :
    ∃ x, Decimal.numeral? t.lexeme = some x ∧ net.value? t.lexeme = some x := by
  have hoperand := (henacts.wellFormed body hbody).legible.isOperand t ht
  have hnumeral : (Decimal.numeral? t.lexeme).isNone = false := by
    rw [← hoperand.isVariable_eq]
    simp [Token.isVariable, hkind]
  obtain ⟨x, hx⟩ := Option.isSome_iff_exists.1 (Option.isNone_eq_false_iff.1 hnumeral)
  have hkey : t.lexeme ∉ plan.values.map Prod.fst := by
    intro hkey
    obtain ⟨entry, hentry, hname⟩ := List.mem_map.1 hkey
    exact absurd (hkeyed.numeral? hentry) (by simp [hname, hx])
  have hleaf : t.lexeme ∈ bodies.flatMap Expr.leafNames :=
    List.mem_flatMap.2 ⟨body, hbody, Expr.mem_leafNames.2 ⟨t, ht, rfl⟩⟩
  exact ⟨x, hx, by rw [Plan.value?_eq henacts htakes hkey, if_pos hleaf, hx]⟩

/-- The unknowns are the variables that no entry of the values names. -/
theorem Plan.unknowns_eq (hwired : net.Wired) :
    net.unknowns =
      (variablesOf bodies).filter fun name => name ∉ plan.values.map Prod.fst := by
  have hempty : (Network.empty plan.settings).quantityNames = [].eraseDups := rfl
  have hnone : ∀ name ∈ bodies.flatMap Expr.leafNames ++ plan.values.map Prod.fst,
      (net.value? name).isNone =
        (decide (name ∉ plan.values.map Prod.fst) && (Decimal.numeral? name).isNone) := by
    intro name hname
    by_cases hkey : name ∈ plan.values.map Prod.fst
    · obtain ⟨x, -, hvalue⟩ := htakes.given name hkey
      simp [hkey, hvalue]
    · have hleaf := (List.mem_append.1 hname).resolve_right hkey
      rw [Plan.value?_eq henacts htakes hkey, if_pos hleaf]
      simp [hkey]
  have hgiven : (plan.values.map Prod.fst).filter (fun name =>
      decide (name ∉ plan.values.map Prod.fst) && (Decimal.numeral? name).isNone) = [] := by
    rw [List.filter_eq_nil_iff]
    intro name hname
    simp [hname]
  calc net.unknowns
      = (bodies.flatMap Expr.leafNames ++ plan.values.map Prod.fst).eraseDups.filter
          fun name => (net.value? name).isNone := by
        rw [hwired.unknowns_eq, htakes.quantityNames (henacts.quantityNames hempty),
          List.nil_append]
    _ = ((bodies.flatMap Expr.leafNames ++ plan.values.map Prod.fst).filter fun name =>
          decide (name ∉ plan.values.map Prod.fst) &&
            (Decimal.numeral? name).isNone).eraseDups := by
        rw [← eraseDups_filter, List.filter_congr hnone]
    _ = (variablesOf bodies).filter fun name => name ∉ plan.values.map Prod.fst := by
        rw [List.filter_append, hgiven, List.append_nil, variablesOf, henacts.variableNames_eq,
          ← eraseDups_filter, List.filter_filter]

end Plan

/-- The parts of a plan are the entries under the four titles. -/
theorem Plan.ofSections_ok {found : List Document.Section} {plan : Plan}
    (h : Plan.ofSections found = .ok plan) :
    Settings.default.setAll ((Document.entries? found "settings").getD []) = .ok plan.settings ∧
      Document.entries? found "equations" = some plan.equations ∧
      Document.entries? found "values" = some plan.values ∧
      plan.unknowns = (Document.entries? found "unknowns").getD [] := by
  unfold Plan.ofSections at h
  split at h
  · exact absurd h (by simp)
  · dsimp only at h
    split at h
    · exact absurd h (by simp)
    · rename_i settings hsettings
      split at h
      · exact absurd h (by simp)
      · exact absurd h (by simp)
      · rename_i equations values hequations hvalues
        obtain rfl := Except.ok.inj h
        exact ⟨hsettings, hequations, hvalues, rfl⟩

/-! ## Problems -/

/-- What it takes to load a problem. -/
theorem Problem.ofText_ok {text : String} {problem : Problem}
    (h : Problem.ofText text = .ok problem) :
    ∃ found plan, Document.sections text = .ok found ∧ Plan.ofSections found = .ok plan ∧
      plan.network = .ok problem.network ∧ plan.targets = .ok problem.targets := by
  obtain ⟨plan, htext, hproblem⟩ := exists_of_bind_eq_ok h
  obtain ⟨store, hstore, hproblem⟩ := exists_of_bind_eq_ok hproblem
  obtain ⟨targets, htargets, hproblem⟩ := exists_of_bind_eq_ok hproblem
  obtain rfl : (⟨store.network, targets⟩ : Problem) = problem := Except.ok.inj hproblem
  have hnetwork : plan.network = .ok store.network := by
    rw [← plan.map_network_store, hstore]
    rfl
  unfold Plan.ofText at htext
  split at htext
  · exact absurd htext (by simp)
  · rename_i found hfound
    exact ⟨found, plan, hfound, htext, hnetwork, htargets⟩

/-- The problem says what a plan says; `bodies` are the expressions of the plan's equations. -/
structure Problem.Represents (problem : Problem) (plan : Plan) (bodies : List Expr) : Prop where
  settings : problem.settings = plan.settings
  /-- Expressions are read under these settings, wherever these were changed. -/
  read : List.Forall₂ (fun entry body =>
    Expr.read plan.settings.maxNestingDepth entry.2 = .ok body) plan.equations bodies
  equationNames : problem.network.equationNames = plan.equations.map Prod.fst
  distinct : (plan.equations.map Prod.fst).Nodup
  body : ∀ law ∈ (plan.equations.map Prod.fst).zip bodies,
    ∃ id, problem.network.equationId? law.1 = some id ∧ problem.network.bodyOf? id = some law.2
  /-- Of several entries of one key, the last gives the number. -/
  given : ∀ key ∈ plan.values.map Prod.fst,
    ∃ x, Network.GivenLast plan.values key x ∧ problem.network.value? key = some x
  numeral : ∀ body ∈ bodies, ∀ t ∈ body.leaves, t.kind = .number →
    ∃ x, Decimal.numeral? t.lexeme = some x ∧ problem.network.value? t.lexeme = some x
  /-- The variables are unknown for which no number is given, in order of first occurrence. -/
  unknowns : problem.network.unknowns =
    (variablesOf bodies).filter fun name => name ∉ plan.values.map Prod.fst
  /-- Each of them is asked for, if there are no targets. -/
  rows : problem.targets = [] → problem.run.1.map Prod.fst =
    (variablesOf bodies).filter fun name => name ∉ plan.values.map Prod.fst

theorem Problem.represents {problem : Problem} {plan : Plan}
    (hnetwork : plan.network = .ok problem.network) (hkeyed : Document.Keyed plan.values) :
    ∃ bodies, problem.Represents plan bodies := by
  obtain ⟨grown, hentries, hvalues⟩ := Plan.network_ok hnetwork
  obtain ⟨bodies, henacts⟩ := Network.addEntries_ok hentries
  have htakes := Network.setEntries_ok hvalues
  have hwired := (Plan.reachable_network hnetwork).consistent.toWired
  have hlaws : problem.network.laws = (plan.equations.map Prod.fst).zip bodies :=
    htakes.laws.trans henacts.laws
  have hnames : problem.network.equationNames = plan.equations.map Prod.fst := by
    rw [Network.equationNames_eq_laws, hlaws, List.map_fst_zip]
    rw [List.length_map, henacts.read.length_eq]
  have hunknowns := Plan.unknowns_eq henacts htakes hwired
  refine ⟨bodies, {
    settings := htakes.settings.trans henacts.settings
    read := henacts.read
    equationNames := hnames
    distinct := hnames ▸ hwired.nodup_equationNames
    body := fun law hlaw => hwired.exists_of_mem_laws (hlaws ▸ hlaw)
    given := htakes.given
    numeral := fun body hbody t ht => Plan.exists_numeral henacts htakes hkeyed hbody ht
    unknowns := hunknowns
    rows := fun htargets => ?_ }⟩
  rw [run, asked, htargets]
  show (problem.network.resolveAll problem.network.unknowns).map Prod.fst = _
  rw [Network.resolveAll, List.map_map, ← hunknowns]
  exact List.map_id _

/-- **Every problem that is loaded represents its document.** -/
theorem Problem.represents_of_ofText {text : String} {problem : Problem}
    (h : Problem.ofText text = .ok problem) :
    ∃ found plan bodies, Document.sections text = .ok found ∧
      Settings.default.setAll ((Document.entries? found "settings").getD []) = .ok plan.settings ∧
      Document.entries? found "equations" = some plan.equations ∧
      Document.entries? found "values" = some plan.values ∧ problem.Represents plan bodies := by
  obtain ⟨found, plan, hfound, hplan, hnetwork, -⟩ := Problem.ofText_ok h
  obtain ⟨hsettings, hequations, hvalues, -⟩ := Plan.ofSections_ok hplan
  obtain ⟨bodies, hrepresents⟩ :=
    Problem.represents hnetwork (Document.keyed_of_sections hfound hvalues)
  exact ⟨found, plan, bodies, hfound, hsettings, hequations, hvalues, hrepresents⟩

/-- Equations that share a variable, a key that comes twice, a number for a name that no equation
mentions, and settings that come last. -/
theorem Problem.represents_of_ofText_shared :
    let text := "equations\nf: a = b + 2\ng: c = a * b\nvalues\nb: 1\nz: 5\n" ++
      "values\nb: 3\nsettings\nmax_nesting_depth: 3"
    ∃ problem plan bodies, Problem.ofText text = .ok problem ∧ problem.Represents plan bodies ∧
      plan.values = [("b", "1"), ("z", "5"), ("b", "3")] ∧
      problem.network.unknowns = ["a", "c"] := by
  intro text
  have hsections : Document.sections text =
      .ok [("equations", [("f", "a = b + 2"), ("g", "c = a * b")]),
        ("values", [("b", "1"), ("z", "5"), ("b", "3")]),
        ("settings", [("max_nesting_depth", "3")])] := by decide +kernel
  have hunknowns : (Problem.ofText text).map (·.network.unknowns) = .ok ["a", "c"] := by
    decide +kernel
  rcases hproblem : Problem.ofText text with error | problem
  · rw [hproblem] at hunknowns
    exact absurd hunknowns (by simp [Except.map])
  · obtain ⟨found, plan, bodies, hfound, -, -, hvalues, hrepresents⟩ :=
      Problem.represents_of_ofText hproblem
    obtain rfl := Except.ok.inj (hsections.symm.trans hfound)
    rw [hproblem] at hunknowns
    exact ⟨problem, plan, bodies, rfl, hrepresents, (Option.some.inj hvalues).symm,
      Except.ok.inj hunknowns⟩

end EquationNetwork
