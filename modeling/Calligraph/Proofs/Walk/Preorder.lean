import Calligraph.Outline
import Calligraph.Proofs.Arena.Tree
import Calligraph.Proofs.Walk.Run

/-!
# The walk of a tree

On a tree the work stack and the stack of routines do what a recursive traversal does. Entering a
node and working off everything below it takes the walk back to the work it had before, with the
same routines around it (`WalkView.clears_enter`); the routines on the stack are those among the
nodes above, and what is found are the calls among the nodes in pre-order.
-/

namespace Calligraph

namespace Arena

variable {α : Type} {a : Arena α}

/-- The routines among some nodes. -/
def routinesOf (a : Arena α) (nodes : List Nat) : List Nat :=
  nodes.filter fun i => a.kind i = .declaration

theorem routinesOf_cons_self {node : Nat} (h : a.kind node = .declaration) (nodes : List Nat) :
    a.routinesOf (node :: nodes) = node :: a.routinesOf nodes := by
  simp [routinesOf, h]

theorem routinesOf_cons_of_ne {node : Nat} (h : a.kind node ≠ .declaration) (nodes : List Nat) :
    a.routinesOf (node :: nodes) = a.routinesOf nodes := by
  simp [routinesOf, h]

end Arena

namespace WalkView

variable {α : Type} {v : WalkView α}

/-- The calls that count among nodes in pre-order, each with the routines around it. -/
def counted (v : WalkView α) (nodes : List (Nat × List Nat)) : List (List Nat × Nat) :=
  (nodes.filter fun x => v.Counts x.1).map fun x => (v.arena.routinesOf x.2, x.1)

theorem counted_append (first second : List (Nat × List Nat)) :
    v.counted (first ++ second) = v.counted first ++ v.counted second := by
  simp [counted]

/-- The steps that a node takes by itself: a routine is left again. -/
def cost (v : WalkView α) (node : Nat) : Nat :=
  if v.arena.kind node = .declaration then 2 else 1

/-- The steps that some nodes take by themselves. -/
def costs (v : WalkView α) : List (Nat × List Nat) → Nat
  | [] => 0
  | x :: rest => v.cost x.1 + v.costs rest

theorem costs_append (first second : List (Nat × List Nat)) :
    v.costs (first ++ second) = v.costs first + v.costs second := by
  induction first with
  | nil => exact (Nat.zero_add _).symm
  | cons x rest ih => rw [List.cons_append, costs, costs, ih, Nat.add_assoc]

theorem costs_le (nodes : List (Nat × List Nat)) : v.costs nodes ≤ 2 * nodes.length := by
  induction nodes with
  | nil => exact Nat.le_refl 0
  | cons x rest ih =>
    have hx : v.cost x.1 ≤ 2 := by unfold cost; split <;> omega
    rw [costs, List.length_cons]
    omega

/-- Working off `work`, which stands for `nodes`, leads to whatever is behind it. -/
def Clears (v : WalkView α) (scopes : List Nat) (work : List WalkStep)
    (nodes : List (Nat × List Nat)) : Prop :=
  ∀ (behind : List WalkStep) (out : WalkOutput),
    v.Steps (v.costs nodes) ⟨work ++ behind, scopes, out⟩
      ⟨behind, scopes, v.visitAll (v.counted nodes) out⟩

theorem Clears.nil (scopes : List Nat) : v.Clears scopes [] [] :=
  fun behind out => .refl ⟨behind, scopes, out⟩

theorem Clears.append {scopes : List Nat} {work later : List WalkStep}
    {nodes below : List (Nat × List Nat)} (h : v.Clears scopes work nodes)
    (h' : v.Clears scopes later below) : v.Clears scopes (work ++ later) (nodes ++ below) := by
  intro behind out
  rw [costs_append, counted_append, visitAll_append, List.append_assoc]
  exact (h (later ++ behind) out).trans (h' behind _)

theorem Clears.flatMap {scopes : List Nat} {f : Nat → List (Nat × List Nat)} {nodes : List Nat}
    (h : ∀ c ∈ nodes, v.Clears scopes [.enter c] (f c)) :
    v.Clears scopes (nodes.map .enter) (nodes.flatMap f) := by
  induction nodes with
  | nil => exact .nil scopes
  | cons c rest ih =>
    obtain ⟨hc, hrest⟩ := List.forall_mem_cons.1 h
    exact hc.append (ih hrest)

theorem clears_enter (h : v.arena.IsTree) (above : List Nat) (node : Nat) :
    v.Clears (v.arena.routinesOf above) [.enter node] (h.preorder above node) := by
  induction node using h.induct generalizing above with
  | step node ih =>
    intro behind out
    have hbelow := Clears.flatMap fun c hc => ih c hc (node :: above)
    rw [h.preorder_eq]
    generalize (v.arena.children node).flatMap (h.preorder (node :: above)) = below at hbelow ⊢
    have hsplit : (node, above) :: below = [(node, above)] ++ below := rfl
    rw [hsplit, costs_append, counted_append, visitAll_append]
    cases hk : v.arena.kind node with
    | declaration =>
      -- The routine is on the stack while its children are worked off, and then left.
      rw [Arena.routinesOf_cons_self hk] at hbelow
      have hcost : v.costs [(node, above)] = 1 + 1 := by simp [costs, cost, hk]
      have hcount : v.counted [(node, above)] = [] := by simp [counted, Counts, hk]
      rw [hcost, hcount, visitAll_nil, Nat.add_assoc, Nat.add_comm 1 (v.costs below)]
      refine (Steps.single ?_).trans ((hbelow (.leave :: behind) out).trans (Steps.single rfl))
      simp [step, hk]
    | call =>
      rw [Arena.routinesOf_cons_of_ne (by simp [hk])] at hbelow
      have hcost : v.costs [(node, above)] = 1 := by simp [costs, cost, hk]
      rw [hcost]
      refine (Steps.single ?_).trans (hbelow behind _)
      by_cases hc : v.isCall node = true
      · simp [step, hk, hc, counted, Counts]
      · simp [step, hk, hc, counted, Counts]
    | other =>
      rw [Arena.routinesOf_cons_of_ne (by simp [hk])] at hbelow
      have hcost : v.costs [(node, above)] = 1 := by simp [costs, cost, hk]
      have hcount : v.counted [(node, above)] = [] := by simp [counted, Counts, hk]
      rw [hcost, hcount, visitAll_nil]
      refine (Steps.single ?_).trans (hbelow behind out)
      simp [step, hk]

theorem costs_preorder_le (h : v.arena.IsTree) : v.costs (h.preorder [] 0) ≤ v.fuel := by
  have := v.costs_le (h.preorder [] 0)
  have := h.length_preorder_root
  unfold fuel
  omega

/-- The walk of a tree gives the calls in pre-order that count. -/
theorem walk_eq_visitAll (h : v.arena.IsTree) :
    v.walk = v.visitAll (v.counted (h.preorder [] 0)) {} := by
  have hsteps := clears_enter h [] 0 [] {}
  obtain ⟨spare, hspare⟩ := Nat.exists_eq_add_of_le (costs_preorder_le h)
  rw [walk, hspare]
  exact congrArg WalkState.out ((run_of_steps hsteps spare).trans (run_of_step_eq_none rfl spare))

/-- The walk of a tree ends, within its fuel and inside no routine. -/
theorem steps_walk (h : v.arena.IsTree) :
    ∃ n ≤ v.fuel, v.Steps n { work := [.enter 0] } ⟨[], [], v.walk⟩ := by
  refine ⟨_, costs_preorder_le h, ?_⟩
  rw [walk_eq_visitAll h]
  exact clears_enter h [] 0 [] {}

theorem sites_walk (h : v.arena.IsTree) :
    v.walk.sites.toList = (v.counted (h.preorder [] 0)).map fun x => v.site x.1 x.2 := by
  rw [walk_eq_visitAll h, sites_visitAll]
  rfl

theorem diagnostics_walk (h : v.arena.IsTree) :
    v.walk.diagnostics.toList = (v.counted (h.preorder [] 0)).flatMap fun x => v.lost x.1 x.2 := by
  rw [walk_eq_visitAll h, diagnostics_visitAll]
  rfl

end WalkView

namespace Project

variable {fe : FrontEnd}

/-- The symbol of the innermost routine among the nodes `above` that has one. -/
def callerAmong (p : Project fe) (tree : fe.Tree) (above : List Nat) : Option Symbol :=
  (above.filter fun i => (fe.arena tree).kind i = .declaration).findSome? (p.declaringSymbol tree)

/-- The call at a node with the nodes above it. -/
def siteAt (p : Project fe) (index : Nat) (unit : ParsedUnit fe.Tree) (x : Nat × List Nat) :
    CallSite :=
  { unit := index
    position := (fe.arena unit.tree).position x.1
    caller := (p.callerAmong unit.tree x.2).getD .moduleLevel
    callee := (p.referencedSymbol unit.tree x.1).getD .unresolved }

/-- What is not known of the call at a node with the nodes above it. -/
def lostAt (p : Project fe) (unit : ParsedUnit fe.Tree) (x : Nat × List Nat) : List Diagnostic :=
  let position := (fe.arena unit.tree).position x.1
  (match p.callerAmong unit.tree x.2 with
    | some _ => []
    | none => [⟨.unresolvedCaller, unit.id, position⟩]) ++
  (match p.referencedSymbol unit.tree x.1 with
    | some _ => []
    | none => [⟨.unresolvedCallee, unit.id, position⟩])

/-- The nodes in pre-order that are calls. -/
def callsIn (p : Project fe) (unit : ParsedUnit fe.Tree) (nodes : List (Nat × List Nat)) :
    List (Nat × List Nat) :=
  nodes.filter fun x => (fe.arena unit.tree).kind x.1 = .call ∧ p.isCall unit.tree x.1 = true

theorem counted_view (p : Project fe) (index : Nat) (unit : ParsedUnit fe.Tree)
    (nodes : List (Nat × List Nat)) :
    (p.view index unit).counted nodes =
      (p.callsIn unit nodes).map fun x => ((fe.arena unit.tree).routinesOf x.2, x.1) :=
  rfl

theorem site_view (p : Project fe) (index : Nat) (unit : ParsedUnit fe.Tree)
    (x : Nat × List Nat) :
    (p.view index unit).site ((fe.arena unit.tree).routinesOf x.2) x.1 = p.siteAt index unit x :=
  rfl

theorem lost_view (p : Project fe) (index : Nat) (unit : ParsedUnit fe.Tree)
    (x : Nat × List Nat) :
    (p.view index unit).lost ((fe.arena unit.tree).routinesOf x.2) x.1 = p.lostAt unit x := by
  have hcaller : ((fe.arena unit.tree).routinesOf x.2).findSome? (p.view index unit).declaring =
      p.callerAmong unit.tree x.2 := rfl
  have hcallee : (p.view index unit).referenced x.1 = p.referencedSymbol unit.tree x.1 := rfl
  unfold WalkView.lost lostAt
  rw [hcaller, hcallee]
  cases p.callerAmong unit.tree x.2 <;> cases p.referencedSymbol unit.tree x.1 <;> rfl

/-- **The walk of a tree is its recursive pre-order traversal.** The two stacks run empty, and what
was found then is one call for each node in pre-order that is one, with the innermost routine above
it that has a symbol. The traversal meets every node below the root once, before all that is below
it, and knows it by its path to the root. -/
theorem walk_eq_preorder (p : Project fe) (index : Nat) (unit : ParsedUnit fe.Tree)
    (h : (fe.arena unit.tree).IsTree) :
    (∃ n, (p.view index unit).Steps n { work := [.enter 0] } ⟨[], [], p.walk index unit⟩) ∧
    (p.walk index unit).sites.toList =
      (p.callsIn unit (h.preorder [] 0)).map (p.siteAt index unit) ∧
    (p.walk index unit).diagnostics.toList =
      (p.callsIn unit (h.preorder [] 0)).flatMap (p.lostAt unit) ∧
    ((h.preorder [] 0).map Prod.fst).Nodup ∧
    (∀ node, node ∈ (h.preorder [] 0).map Prod.fst ↔ (fe.arena unit.tree).Below 0 node) ∧
    ∀ x ∈ h.preorder [] 0,
      ((x.1 :: x.2).IsChain fun c i => c ∈ (fe.arena unit.tree).children i) ∧
      [0] <:+ x.1 :: x.2 := by
  have hv : (p.view index unit).arena.IsTree := h
  obtain ⟨n, -, hsteps⟩ := WalkView.steps_walk hv
  refine ⟨⟨n, hsteps⟩, ?_, ?_, h.nodup_nodesFrom_root, fun _ => h.mem_nodesFrom,
    h.isChain_preorder (.singleton 0)⟩
  · calc (p.walk index unit).sites.toList
      _ = ((p.view index unit).counted (h.preorder [] 0)).map
            fun x => (p.view index unit).site x.1 x.2 := WalkView.sites_walk hv
      _ = (p.callsIn unit (h.preorder [] 0)).map (p.siteAt index unit) := by
        rw [counted_view, List.map_map]
        exact List.map_congr_left fun x _ => p.site_view index unit x
  · calc (p.walk index unit).diagnostics.toList
      _ = ((p.view index unit).counted (h.preorder [] 0)).flatMap
            fun x => (p.view index unit).lost x.1 x.2 := WalkView.diagnostics_walk hv
      _ = (p.callsIn unit (h.preorder [] 0)).flatMap (p.lostAt unit) := by
        rw [counted_view, List.flatMap_map]
        exact List.flatMap_congr fun x _ => p.lost_view index unit x

/-- A routine with another one in it, a value that is built, and a call outside of both. -/
def nested : ParsedUnit Outline.frontEnd.Tree where
  id := "a"
  tree := (((((((Arena.new .root).push 0 .declaration ⟨1, 0⟩ (.routine "Outer()")).push 1 .call
    ⟨2, 2⟩ (.call (some "Outer()"))).push 1 .declaration ⟨3, 2⟩ (.routine "Inner()")).push 3 .call
    ⟨4, 4⟩ (.construct "W")).push 4 .call ⟨5, 6⟩ (.call none)).push 1 .call ⟨6, 2⟩
    (.call (some "Inner()"))).push 0 .call ⟨7, 0⟩ (.call (some "Outer()"))

/-- The project of `nested` alone. -/
def nestedAlone : Project Outline.frontEnd where
  name := "nested"
  units := [nested]
  libraries := []
  bindings := Outline.frontEnd.bind [nested.tree] []

theorem walk_eq_preorder_nested :
    ∃ h : (Outline.frontEnd.arena nested.tree).IsTree,
      (nestedAlone.callsIn nested (h.preorder [] 0)).map (nestedAlone.siteAt 0 nested) =
        [⟨0, ⟨2, 2⟩, ⟨"Outer()"⟩, ⟨"Outer()"⟩⟩, ⟨0, ⟨5, 6⟩, ⟨"Inner()"⟩, .unresolved⟩,
          ⟨0, ⟨6, 2⟩, ⟨"Outer()"⟩, ⟨"Inner()"⟩⟩, ⟨0, ⟨7, 0⟩, .moduleLevel, ⟨"Outer()"⟩⟩] := by
  have h : (Outline.frontEnd.arena nested.tree).IsTree := by decide
  refine ⟨h, ?_⟩
  rw [← (nestedAlone.walk_eq_preorder 0 nested h).2.1]
  decide

end Project

end Calligraph
