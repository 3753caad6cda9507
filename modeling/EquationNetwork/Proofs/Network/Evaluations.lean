import EquationNetwork.Proofs.Expr.Depth
import EquationNetwork.Proofs.Network.Descent
import EquationNetwork.Proofs.Problem.Loading

/-!
# What a request evaluates

Every number that a request finds is stored, or it is the value of a tree that solves an equation of
the network.

* `Network.Evaluates` — the trees that a request evaluates, each with the numbers it takes.
* `Network.exists_evaluates_of_resolve` — **whatever a request finds is evaluated.**
* `Network.Evaluates.depth` — a tree that is evaluated is no deeper than the texts of the equations
  allow.
* `Plan.bodies_of_network` — the equations of a document are read under its own nesting limit.
* `Network.solution_depth` — **solving cannot blow up the depth of trees.**
-/

namespace EquationNetwork

namespace Network

variable {net : Network} {seek : Nat → Seek Float}

/-! ## Evaluations -/

/-- A request for a quantity evaluates a tree: in one of its calls the turn of an equation comes,
the tree is a solution of it for the quantity of that call, and the numbers of all other quantities
of the equation are gathered. -/
inductive Evaluates (net : Network) (root : Nat) : Expr → List (String × Float) → Prop where
  | evaluate {fuel depth id equation : Nat} {s s₁ s₂ : Search} {body solution : Expr}
      {pairs : List (String × Float)}
      (hcalls : Relation.ReflTransGen net.Calls (net.rootCall root) ⟨fuel + 1, depth, id, s⟩)
      (hknown : net.known? s id = none) (hnew : id ∉ s.visited)
      (hdepth : depth ≤ net.settings.maxRecursionDepth)
      (hattempt : Attempts (net.attemptAt fuel depth id) (net.linksOf id) (s.visit id) equation s₁)
      (hbody : net.bodyOf? equation = some body)
      (hsolve : body.solve net.settings.maxRewriteSteps (net.nameOf id) = .ok solution)
      (hgather : net.gatherOthers (net.seek fuel (depth + 2)) equation id body s₁ =
        (some pairs, s₂)) :
      Evaluates net root solution pairs

/-- The equation that gives a number is one whose turn comes. -/
theorem exists_attempts {attempt : Nat → Seek Float} {equations : List Nat} {x : Float}
    {equation : Nat} : ∀ {s s' : Search},
      tryEquations attempt equations s = (some (x, equation), s') →
        ∃ s₁, Attempts attempt equations s equation s₁ ∧ attempt equation s₁ = (some x, s') := by
  induction equations with
  | nil => exact fun h => absurd h (by simp [tryEquations])
  | cons first rest ih =>
    intro s s' h
    by_cases hvisited : first ∈ s.visited
    · rw [tryEquations_visited hvisited] at h
      obtain ⟨s₁, ⟨before, after, hsplit, hbefore, hnew⟩, hfound⟩ := ih h
      exact ⟨s₁, ⟨first :: before, after, by rw [hsplit]; rfl,
        by rw [tryEquations_visited hvisited, hbefore], hnew⟩, hfound⟩
    · rcases htried : attempt first s with ⟨_ | y, s''⟩
      · rw [tryEquations_none hvisited htried] at h
        obtain ⟨s₁, ⟨before, after, hsplit, hbefore, hnew⟩, hfound⟩ := ih h
        exact ⟨s₁, ⟨first :: before, after, by rw [hsplit]; rfl,
          by rw [tryEquations_none hvisited htried, hbefore], hnew⟩, hfound⟩
      · rw [tryEquations_some hvisited htried] at h
        cases h
        exact ⟨s, ⟨[], rest, rfl, rfl, hvisited⟩, htried⟩

/-- The number that an equation gives is the value of a solution of it. -/
theorem exists_evaluate_of_tryEquation {equation target : Nat} {s s' : Search} {x : Float}
    (h : tryEquation net seek equation target s = (some x, s')) :
    ∃ body solution pairs, net.bodyOf? equation = some body ∧
      body.solve net.settings.maxRewriteSteps (net.nameOf target) = .ok solution ∧
      net.gatherOthers seek equation target body s = (some pairs, s') ∧
      solution.evaluate (.ofList pairs) = .ok x := by
  cases hbody : net.bodyOf? equation with
  | none => exact absurd h (by simp [tryEquation, hbody])
  | some body =>
    cases hsolve : body.solve net.settings.maxRewriteSteps (net.nameOf target) with
    | error error => exact absurd h (by simp [tryEquation_error s hbody hsolve])
    | ok solution =>
      rcases hgather : net.gatherOthers seek equation target body s with ⟨_ | pairs, s₂⟩
      · exact absurd h (by simp [tryEquation_stalled hbody hsolve hgather])
      · rw [tryEquation_gathered hbody hsolve hgather] at h
        rcases conclude_cases (net.nameOf equation) (net.nameOf target) solution pairs s₂ with
          ⟨error, -, hnone⟩ | ⟨y, hy, ⟨-, hsome⟩ | hnone⟩
        · exact absurd (hnone.symm.trans h) (by simp)
        · obtain ⟨hyx, rfl⟩ := Prod.mk.inj (hsome.symm.trans h)
          cases hyx
          exact ⟨body, solution, pairs, rfl, hsolve, hgather, hy⟩
        · exact absurd (hnone.symm.trans h) (by simp)

/-- Whatever a call of a request finds for a quantity without a number is the value of a tree that
the request evaluates. -/
theorem exists_evaluates_of_seek {root : Nat} {c : Call} {x : Float} {s' : Search}
    (hcalls : Relation.ReflTransGen net.Calls (net.rootCall root) c)
    (hknown : net.known? c.state c.quantity = none)
    (h : net.seek c.fuel c.depth c.quantity c.state = (some x, s')) :
    ∃ tree pairs, net.Evaluates root tree pairs ∧ tree.evaluate (.ofList pairs) = .ok x := by
  obtain ⟨fuel, depth, id, s⟩ := c
  cases fuel with
  | zero => exact absurd h (by simp [seek])
  | succ fuel =>
    by_cases hvisited : id ∈ s.visited
    · exact absurd ((seek_visited hknown hvisited).symm.trans h) (by simp)
    · rcases Nat.lt_or_ge net.settings.maxRecursionDepth depth with hdepth | hdepth
      · exact absurd ((seek_tooDeep hknown hvisited hdepth).symm.trans h) (by simp)
      · rcases hfound : net.expand fuel depth id s with ⟨_ | ⟨y, equation⟩, s''⟩
        · exact absurd ((seek_none hknown hvisited hdepth hfound).symm.trans h) (by simp)
        · obtain ⟨hyx, -⟩ := Prod.mk.inj ((seek_some hknown hvisited hdepth hfound).symm.trans h)
          cases hyx
          obtain ⟨s₁, hattempt, htried⟩ := exists_attempts hfound
          obtain ⟨body, solution, pairs, hbody, hsolve, hgather, hvalue⟩ :=
            exists_evaluate_of_tryEquation htried
          exact ⟨solution, pairs, .evaluate hcalls hknown hvisited hdepth hattempt hbody hsolve
            hgather, hvalue⟩

/-- **Whatever a request finds is evaluated**, unless it was stored. -/
theorem exists_evaluates_of_resolve {name : String} {id : Nat} {x : Float}
    (hid : net.quantityId? name = some id) (hnone : net.numberOf? id = none)
    (h : net.resolve name = .resolved x) :
    ∃ tree pairs, net.Evaluates id tree pairs ∧ tree.evaluate (.ofList pairs) = .ok x := by
  rw [resolve, request, hid] at h
  rcases hfound : net.seek net.requestFuel 0 id .start with ⟨_ | y, s⟩
  · exact absurd h (by simp [hfound])
  · obtain rfl : y = x := by simpa [hfound] using h
    exact exists_evaluates_of_seek (c := net.rootCall id) .refl
      (known?_eq_none_iff.2 ⟨hnone, rfl⟩) hfound

/-! ## Depths -/

/-- A tree that is evaluated is no deeper than the texts of the equations allow. -/
theorem Evaluates.depth {nesting : Nat} (hbodies : net.Bodies (Expr.IsReadWithin nesting))
    {root : Nat} {tree : Expr} {pairs : List (String × Float)}
    (h : net.Evaluates root tree pairs) : tree.depth + 1 ≤ 2 * nesting := by
  cases h with
  | evaluate _ _ _ _ _ hbody hsolve _ =>
    obtain ⟨a, ha, habody⟩ := bodyOf?_eq_some.1 hbody
    exact (hbodies _ a _ ha habody).depth_solve hsolve

end Network

/-- **The equations of a document** are read under the nesting limit that the document sets. -/
theorem Plan.bodies_of_network {plan : Plan} {net : Network} (h : plan.network = .ok net) :
    net.Bodies (Expr.IsReadWithin net.settings.maxNestingDepth) := by
  obtain ⟨grown, hentries, hvalues⟩ := Plan.network_ok h
  obtain ⟨bodies, henacts⟩ := Network.addEntries_ok hentries
  have htakes := Network.setEntries_ok hvalues
  have hsettings : net.settings = plan.settings := htakes.settings.trans henacts.settings
  have hlaws : net.laws = (plan.equations.map Prod.fst).zip bodies :=
    htakes.laws.trans henacts.laws
  intro id a body ha hbody
  -- the equation is one of the laws, and these are the entries with what is read of each
  have hlaw : (net.nameOf id, body) ∈ net.laws :=
    Network.mem_laws.2 ⟨id, Network.bodyOf?_eq_some.2 ⟨a, ha, hbody⟩, rfl⟩
  rw [hlaws, List.zip_map_left] at hlaw
  obtain ⟨⟨entry, body'⟩, hpair, heq⟩ := List.mem_map.1 hlaw
  obtain rfl : body' = body := congrArg Prod.snd heq
  have hread := (List.forall₂_iff_zip.1 henacts.read).2 hpair
  rw [hsettings]
  exact ⟨_, entry.2, Nat.le_refl _, hread⟩

namespace Network

/-- **Solving cannot blow up the depth of trees.**  The moves that lead to a solution are the turns
below `=` on the way to the variable, no more than the rewrite limit and fewer than the levels of
the equation.  Each of them makes the tree deeper by one level at most.  So what is solved, or
evaluated by a request, is at most twice as deep as the nesting limit under which the equations were
read. -/
theorem solution_depth :
    (∀ nesting text e, Expr.read nesting text = .ok e → ∀ limit name,
      (∀ (i : Nat) move, (e.solveMoves limit name)[i]? = some move →
        move.2.depth ≤ e.depth + i) ∧
      ∀ s, e.solve limit name = .ok s →
        (∃ path, e.FirstOccurrence name path ∧
          path.length = (e.solveMoves limit name).length + 1) ∧
        (e.solveMoves limit name).length ≤ limit ∧
        (e.solveMoves limit name).length + 2 ≤ e.depth ∧
        s.depth + 1 ≤ e.depth + (e.solveMoves limit name).length ∧
        s.depth + 1 ≤ 2 * nesting) ∧
      (∀ (net : Network) name id x, net.quantityId? name = some id → net.numberOf? id = none →
        net.resolve name = .resolved x →
          ∃ tree pairs, net.Evaluates id tree pairs ∧ tree.evaluate (.ofList pairs) = .ok x) ∧
      (∀ nesting (net : Network), net.Reachable (Expr.IsReadWithin nesting) →
        ∀ root tree pairs, net.Evaluates root tree pairs → tree.depth + 1 ≤ 2 * nesting) ∧
      ∀ text problem, Problem.ofText text = .ok problem →
        ∀ ops, (∀ op ∈ ops, op.Admits (Expr.IsReadWithin problem.settings.maxNestingDepth)) →
          ∀ root tree pairs, (problem.network.performAll ops).Evaluates root tree pairs →
            tree.depth + 1 ≤ 2 * problem.settings.maxNestingDepth := by
  refine ⟨fun nesting text e hread limit name => ⟨fun i move => Expr.depth_solveMoves, ?_⟩,
    fun net name id x => exists_evaluates_of_resolve,
    fun nesting net hnet root tree pairs => Evaluates.depth hnet.bodies, ?_⟩
  · intro s hsolve
    obtain ⟨hlimit, hlevels, hdepth⟩ := Expr.depth_solve hsolve
    exact ⟨Expr.exists_length_solveMoves hsolve, hlimit, hlevels, hdepth,
      Expr.depth_solve_of_read hread hsolve⟩
  · intro text problem hproblem ops hops root tree pairs h
    obtain ⟨found, plan, -, -, hnetwork, -⟩ := Problem.ofText_ok hproblem
    exact h.depth ((Plan.bodies_of_network hnetwork).performAll hops)

/-- The bounds are reached: under a nesting limit of 2, one move leads to a solution of depth 3. -/
theorem solution_depth_reached :
    let document := "equations\nf: x * a = b + c\nvalues\na: 2\nb: 3\nc: 5\n" ++
      "settings\nmax_nesting_depth: 2"
    (∃ e s : Expr, Expr.read 2 "x ^ a = b + c" = .ok e ∧ e.solve 1 "x" = .ok s ∧
      s.text = "((b + c) ^ (1 / a))" ∧ (∃ path, e.FirstOccurrence "x" path ∧ path.length = 1 + 1) ∧
      s.depth = 3 ∧ s.depth + 1 ≤ 2 * 2) ∧
    (∃ net tree pairs, Network.Reachable (Expr.IsReadWithin 2) net ∧
      net.Evaluates 1 tree pairs ∧ tree.depth + 1 ≤ 2 * 2) ∧
    ∃ problem tree pairs, Problem.ofText document = .ok problem ∧
      problem.network.Evaluates 1 tree pairs ∧ tree.depth + 1 ≤ 2 * 2 := by
  intro document
  let equation (op : Op) (symbol : String) : Expr := .binary .equals ⟨.equals, "=", ⟨7, 7⟩⟩
    (.binary op ⟨.operator, symbol, ⟨3, 3⟩⟩ (.leaf ⟨.name, "x", ⟨1, 1⟩⟩)
      (.leaf ⟨.name, "a", ⟨5, 5⟩⟩))
    (.binary .add ⟨.operator, "+", ⟨11, 11⟩⟩ (.leaf ⟨.name, "b", ⟨9, 9⟩⟩)
      (.leaf ⟨.name, "c", ⟨13, 13⟩⟩))
  obtain ⟨hsolve, hevaluate, hreached, hloaded⟩ := solution_depth
  have hevaluated : ∀ net : Network, net.quantityId? "x" = some 1 →
      (net.numberOf? 1).isNone = true → (net.resolve "x").isResolved = true →
        ∃ tree pairs, net.Evaluates 1 tree pairs := by
    intro net hx hnone hfound
    cases hresolve : net.resolve "x" with
    | unresolved => exact absurd hfound (by rw [hresolve]; decide)
    | resolved x =>
      obtain ⟨tree, pairs, htree, -⟩ :=
        hevaluate net "x" 1 x hx (Option.isNone_iff_eq_none.1 hnone) hresolve
      exact ⟨tree, pairs, htree⟩
  refine ⟨?_, ?_, ?_⟩
  · have hread : Expr.read 2 "x ^ a = b + c" = .ok (equation .pow "^") := by decide +kernel
    have hmoves : ((equation .pow "^").solveMoves 1 "x").length = 1 := by decide +kernel
    have hsolved : (((equation .pow "^").solve 1 "x").toOption.any fun s =>
        s.text == "((b + c) ^ (1 / a))" && s.depth == 3) = true := by decide +kernel
    cases hs : (equation .pow "^").solve 1 "x" with
    | error error => exact absurd hsolved (by simp [hs, Except.toOption])
    | ok s =>
      obtain ⟨hpath, -, -, -, hdepth⟩ := (hsolve _ _ _ hread 1 "x").2 s hs
      rw [hmoves] at hpath
      simp only [hs, Except.toOption, Option.any_some, Bool.and_eq_true, beq_iff_eq] at hsolved
      exact ⟨_, s, hread, hs, hsolved.1, hpath, hsolved.2, hdepth⟩
  · let net := (empty .default).performAll [.addEquation "f" (equation .mul "*"),
      .setQuantity "a" 2, .setQuantity "b" 3, .setQuantity "c" 5]
    have hread : (equation .mul "*").IsReadWithin 2 :=
      ⟨2, "x * a = b + c", Nat.le_refl 2, by decide +kernel⟩
    have hnet : net.Reachable (Expr.IsReadWithin 2) :=
      (Reachable.empty _).performAll (by simp [Operation.Admits, hread])
    obtain ⟨tree, pairs, htree⟩ :=
      hevaluated net (by decide +kernel) (by decide +kernel) (by decide +kernel)
    exact ⟨net, tree, pairs, hnet, htree, hreached 2 net hnet 1 tree pairs htree⟩
  · have hproblem : ((Problem.ofText document).toOption.any fun problem =>
        problem.settings.maxNestingDepth == 2 && problem.network.quantityId? "x" == some 1 &&
          (problem.network.numberOf? 1).isNone && (problem.network.resolve "x").isResolved) =
        true := by decide +kernel
    cases hdocument : Problem.ofText document with
    | error error => exact absurd hproblem (by simp [hdocument, Except.toOption])
    | ok problem =>
      simp only [hdocument, Except.toOption, Option.any_some, Bool.and_eq_true, beq_iff_eq]
        at hproblem
      obtain ⟨⟨⟨hlimit, hx⟩, hnone⟩, hfound⟩ := hproblem
      obtain ⟨tree, pairs, htree⟩ := hevaluated problem.network hx hnone hfound
      have hdepth := hloaded document problem hdocument [] (by simp) 1 tree pairs htree
      rw [hlimit] at hdepth
      exact ⟨problem, tree, pairs, rfl, htree, hdepth⟩

end Network

end EquationNetwork
