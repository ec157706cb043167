import Calligraph.Proofs.Analysis.Schedule
import Calligraph.Sketch.FrontEnd

/-!
# Sentinels

In a graph of sketches the two sentinels stand for what is not known and for nothing else: no
routine is shown as one of them. So what could not be found out about a call can be read off its
ends, and the diagnostics of a report are those of its calls, in their order.
-/

namespace Calligraph

/-! ## Texts of routines -/

theorem RoutineName.mem_toList_text (n : RoutineName) : '(' ∈ n.text.toList := by
  simp [RoutineName.text]

/-- A routine is never shown as a sentinel, nor as nothing. -/
theorem ofText?_text (n : RoutineName) :
    Symbol.ofText? n.text = some ⟨n.text⟩ ∧ (⟨n.text⟩ : Symbol) ≠ .moduleLevel ∧
      (⟨n.text⟩ : Symbol) ≠ .unresolved := by
  have hmem := n.mem_toList_text
  refine ⟨?_, fun h => ?_, fun h => ?_⟩
  · have hne : n.text.isEmpty = false := by
      rw [String.isEmpty_eq_false_iff]
      rintro h
      rw [h] at hmem
      exact absurd hmem (by decide)
    rw [Symbol.ofText?, hne]
    rfl
  · rw [show n.text = "<module-level>" from congrArg Symbol.text h] at hmem
    exact absurd hmem (by decide)
  · rw [show n.text = "<unresolved>" from congrArg Symbol.text h] at hmem
    exact absurd hmem (by decide)

theorem isSentinel_text (n : RoutineName) : (⟨n.text⟩ : Symbol).isSentinel = false := by
  obtain ⟨-, hmodule, hunresolved⟩ := ofText?_text n
  simp [Symbol.isSentinel, hmodule, hunresolved]

theorem eq_text_of_bind {routine : Option RoutineName} {symbol : Symbol}
    (h : (routine.bind fun r => Symbol.ofText? (Sketch.frontEnd.display r)) = some symbol) :
    ∃ n, routine = some n ∧ symbol = ⟨n.text⟩ := by
  obtain ⟨n, hn, hsymbol⟩ := Option.bind_eq_some_iff.1 h
  exact ⟨n, hn, Option.some.inj (hsymbol.symm.trans (ofText?_text n).1)⟩

/-- The symbol of a routine, if there is a routine, is not a sentinel. -/
theorem ne_sentinel_of_bind {routine : Option RoutineName} {symbol : Symbol}
    (h : (routine.bind fun r => Symbol.ofText? (Sketch.frontEnd.display r)) = some symbol) :
    symbol ≠ .moduleLevel ∧ symbol ≠ .unresolved := by
  obtain ⟨n, -, rfl⟩ := eq_text_of_bind h
  exact (ofText?_text n).2

/-! ## Single calls -/

/-- What the ends of a call say is not known. -/
def CallSite.lost (s : CallSite) (unit : String) : List Diagnostic :=
  (if s.caller = .moduleLevel then [⟨.unresolvedCaller, unit, s.position⟩] else []) ++
  (if s.callee = .unresolved then [⟨.unresolvedCallee, unit, s.position⟩] else [])

namespace Project

variable {p : Project Sketch.frontEnd} {index : Nat} {unit : ParsedUnit Sketch.frontEnd.Tree}

theorem ne_sentinel_of_findSome? {scopes : List Nat} {symbol : Symbol}
    (h : scopes.findSome? (p.view index unit).declaring = some symbol) :
    symbol ≠ .moduleLevel ∧ symbol ≠ .unresolved := by
  obtain ⟨node, -, hnode⟩ := List.exists_of_findSome?_eq_some h
  exact ne_sentinel_of_bind hnode

theorem ne_sentinel_of_referenced {node : Nat} {symbol : Symbol}
    (h : (p.view index unit).referenced node = some symbol) :
    symbol ≠ .moduleLevel ∧ symbol ≠ .unresolved :=
  ne_sentinel_of_bind h

/-- The caller is a sentinel where no routine is known, and then it is the right one. -/
theorem caller_site (scopes : List Nat) (node : Nat) :
    let v := p.view index unit
    ((v.site scopes node).caller = .moduleLevel ↔ scopes.findSome? v.declaring = none) ∧
      (v.site scopes node).caller ≠ .unresolved := by
  intro v
  have hcaller : (v.site scopes node).caller =
      (scopes.findSome? v.declaring).getD .moduleLevel := rfl
  rw [hcaller]
  cases hc : scopes.findSome? v.declaring with
  | none => exact ⟨by simp, by decide⟩
  | some symbol =>
    obtain ⟨hmodule, hunresolved⟩ := ne_sentinel_of_findSome? hc
    exact ⟨by simpa using hmodule, hunresolved⟩

theorem callee_site (scopes : List Nat) (node : Nat) :
    let v := p.view index unit
    ((v.site scopes node).callee = .unresolved ↔ v.referenced node = none) ∧
      (v.site scopes node).callee ≠ .moduleLevel := by
  intro v
  have hcallee : (v.site scopes node).callee = (v.referenced node).getD .unresolved := rfl
  rw [hcallee]
  cases hc : v.referenced node with
  | none => exact ⟨by simp, by decide⟩
  | some symbol =>
    obtain ⟨hmodule, hunresolved⟩ := ne_sentinel_of_referenced hc
    exact ⟨by simpa using hunresolved, hmodule⟩

/-- What is lost about a call shows in its ends. -/
theorem lost_view_eq (scopes : List Nat) (node : Nat) :
    (p.view index unit).lost scopes node =
      ((p.view index unit).site scopes node).lost unit.id := by
  unfold WalkView.lost CallSite.lost
  simp only [caller_site, callee_site]
  congr 1
  · cases scopes.findSome? (p.view index unit).declaring <;> rfl
  · cases (p.view index unit).referenced node <;> rfl

/-- A path that builds a value unless it names a routine counts only if it does. -/
theorem referenced_ne_none_of_construct {node : Nat} {path : List String} {scope : Nat}
    (ht : Sketch.callAt unit.tree node = some (.construct path scope))
    (hc : (p.view index unit).isCall node = true) : (p.view index unit).referenced node ≠ none := by
  have hresolve : (Bindings.resolve p.bindings unit.tree (.construct path scope)).isSome = true := by
    have h : Sketch.frontEnd.isCall p.bindings unit.tree node = true := hc
    simpa [Sketch.frontEnd, ht, Bindings.isCall] using h
  obtain ⟨r, hr⟩ := Option.isSome_iff_exists.1 hresolve
  have hreferenced : Sketch.frontEnd.referenced p.bindings unit.tree node = some r.name := by
    simp [Sketch.frontEnd, ht, hr]
  have hsymbol : (p.view index unit).referenced node = some ⟨r.name.text⟩ := by
    show ((Sketch.frontEnd.referenced p.bindings unit.tree node).bind _) = _
    rw [hreferenced]
    exact (ofText?_text r.name).1
  rw [hsymbol]
  exact Option.some_ne_none _

/-! ## Walks and reports -/

/-- The id of the unit with an index. -/
def unitId {fe : FrontEnd} (p : Project fe) (i : Nat) : String :=
  (p.units[i]?.map ParsedUnit.id).getD ""

theorem exists_of_mem_walks {fe : FrontEnd} {p : Project fe} {w : WalkOutput} (h : w ∈ p.walks) :
    ∃ i unit, p.units[i]? = some unit ∧ w = p.walk i unit := by
  obtain ⟨i, hi⟩ := List.mem_iff_getElem?.1 h
  rw [walks, List.getElem?_mapIdx, Option.map_eq_some_iff] at hi
  obtain ⟨unit, hunit, rfl⟩ := hi
  exact ⟨i, unit, hunit, rfl⟩

/-- The diagnostics of a walk are those of its calls. -/
theorem diagnostics_walk_eq (p : Project Sketch.frontEnd) (index : Nat)
    (unit : ParsedUnit Sketch.frontEnd.Tree) :
    (p.walk index unit).diagnostics.toList =
      (p.walk index unit).sites.toList.flatMap fun s => s.lost unit.id := by
  obtain ⟨visited, -, hsites, hlost⟩ := (p.view index unit).walk_visits
  rw [walk, hsites, hlost, List.flatMap_map]
  exact List.flatMap_congr fun x _ => lost_view_eq x.1 x.2

theorem diagnostics_walks_eq (p : Project Sketch.frontEnd) :
    (p.walks.flatMap fun w => w.diagnostics.toList) =
      (p.walks.flatMap fun w => w.sites.toList).flatMap fun s => s.lost (p.unitId s.unit) := by
  rw [List.flatMap_assoc]
  refine List.flatMap_congr fun w hw => ?_
  obtain ⟨i, unit, hunit, rfl⟩ := exists_of_mem_walks hw
  rw [diagnostics_walk_eq]
  refine List.flatMap_congr fun s hs => ?_
  have hs : s.unit = i := WalkView.unit_of_mem_sites hs
  rw [hs, unitId, hunit]
  rfl

/-- Every call of a project is that of a node in one of its units. -/
theorem exists_node_of_mem_sites {fe : FrontEnd} {p : Project fe} {s : CallSite}
    (h : s ∈ p.walks.flatMap fun w => w.sites.toList) :
    ∃ unit scopes node, p.units[s.unit]? = some unit ∧
      s = (p.view s.unit unit).site scopes node := by
  obtain ⟨w, hw, hs⟩ := List.mem_flatMap.1 h
  obtain ⟨i, unit, hunit, rfl⟩ := exists_of_mem_walks hw
  obtain ⟨visited, -, hsites, -⟩ := (p.view i unit).walk_visits
  rw [walk, hsites] at hs
  obtain ⟨x, -, rfl⟩ := List.mem_map.1 hs
  exact ⟨unit, x.1, x.2, hunit, rfl⟩

theorem ends_of_mem_sites {s : CallSite} (h : s ∈ p.walks.flatMap fun w => w.sites.toList) :
    s.caller ≠ .unresolved ∧ s.callee ≠ .moduleLevel := by
  obtain ⟨unit, scopes, node, -, hs⟩ := exists_node_of_mem_sites h
  rw [hs]
  exact ⟨(caller_site scopes node).2, (callee_site scopes node).2⟩

end Project

/-- Diagnostics that calls have by their edges are counted by the edges. -/
theorem count_lost {kind : DiagnosticKind} {f : Edge → Bool}
    (h : ∀ s unit, Diagnostic.count kind (CallSite.lost s unit) = if f s.edge then 1 else 0)
    (sites : List CallSite) (unit : CallSite → String) :
    Diagnostic.count kind (sites.flatMap fun s => s.lost (unit s)) =
      (sites.map CallSite.edge).countP f := by
  induction sites with
  | nil => rfl
  | cons s rest ih =>
    have hs := h s (unit s)
    unfold Diagnostic.count at hs ih ⊢
    rw [List.flatMap_cons, List.countP_append, ih, hs, List.map_cons, List.countP_cons,
      Nat.add_comm]

theorem count_unresolvedCaller_lost (s : CallSite) (unit : String) :
    Diagnostic.count .unresolvedCaller (s.lost unit) =
      if decide (s.edge.caller = .moduleLevel) then 1 else 0 := by
  by_cases h1 : s.caller = .moduleLevel <;> by_cases h2 : s.callee = .unresolved <;>
    simp [Diagnostic.count, CallSite.lost, CallSite.edge, h1, h2]

theorem count_unresolvedCallee_lost (s : CallSite) (unit : String) :
    Diagnostic.count .unresolvedCallee (s.lost unit) =
      if decide (s.edge.callee = .unresolved) then 1 else 0 := by
  by_cases h1 : s.caller = .moduleLevel <;> by_cases h2 : s.callee = .unresolved <;>
    simp [Diagnostic.count, CallSite.lost, CallSite.edge, h1, h2]

namespace Project

theorem edges_analyze_eq_map {fe : FrontEnd} (p : Project fe) :
    p.analyze.graph.edges = (p.walks.flatMap fun w => w.sites.toList).map CallSite.edge := by
  rw [p.edges_analyze, List.map_flatMap, sitesByUnit, List.flatMap_map]

theorem count_diagnostics (p : Project Sketch.frontEnd) {kind : DiagnosticKind} {f : Edge → Bool}
    (h : ∀ s unit, Diagnostic.count kind (CallSite.lost s unit) = if f s.edge then 1 else 0) :
    Diagnostic.count kind p.analyze.diagnostics = p.analyze.graph.edges.countP f := by
  have hdiagnostics : p.analyze.diagnostics =
      (p.walks.flatMap fun w => w.sites.toList).flatMap fun s => s.lost (p.unitId s.unit) :=
    p.diagnostics_walks_eq
  rw [hdiagnostics, p.edges_analyze_eq_map]
  exact count_lost h _ fun s => p.unitId s.unit

/-- **Sentinels and diagnostics agree.** Going through the calls of all units in the order of the
graph, a diagnostic stands for each caller that is the module level and for each callee that is
unresolved, and there are no others; so the summary counts the sentinels of the graph. No routine is
shown as a sentinel, each sentinel stands at its own end only, and where a call of a walk could
build a value, its callee is known. -/
theorem diagnostics_eq_sentinels (p : Project Sketch.frontEnd) :
    let sites := p.walks.flatMap fun w => w.sites.toList
    let edges := p.analyze.graph.edges
    edges = sites.map CallSite.edge ∧
    (p.analyze.diagnostics = sites.flatMap fun s =>
      (if s.caller = ⟨"<module-level>"⟩ then
        [⟨.unresolvedCaller, p.unitId s.unit, s.position⟩] else []) ++
      (if s.callee = ⟨"<unresolved>"⟩ then
        [⟨.unresolvedCallee, p.unitId s.unit, s.position⟩] else [])) ∧
    (p.analyze.summary.unresolvedCallers = edges.countP fun e => e.caller = .moduleLevel) ∧
    (p.analyze.summary.unresolvedCallees = edges.countP fun e => e.callee = .unresolved) ∧
    (∀ routine : RoutineName,
      (⟨Sketch.frontEnd.display routine⟩ : Symbol).isSentinel = false) ∧
    (∀ e ∈ edges, e.caller ≠ .unresolved ∧ e.callee ≠ .moduleLevel) ∧
    (∀ (i : Nat) (unit : ParsedUnit Sketch.frontEnd.Tree), ∃ visited : List (List Nat × Nat),
      (p.walk i unit).sites.toList = (visited.map fun x => (p.view i unit).site x.1 x.2) ∧
      ∀ x ∈ visited, (p.view i unit).Counts x.2) ∧
    ∀ (i : Nat) (unit : ParsedUnit Sketch.frontEnd.Tree) (scopes : List Nat) (node : Nat)
      (path : List String) (scope : Nat), (p.view i unit).Counts node →
      Sketch.callAt unit.tree node = some (.construct path scope) →
      ((p.view i unit).site scopes node).callee ≠ .unresolved := by
  intro sites edges
  have hedges : edges = sites.map CallSite.edge := p.edges_analyze_eq_map
  refine ⟨hedges, p.diagnostics_walks_eq, p.count_diagnostics count_unresolvedCaller_lost,
    p.count_diagnostics count_unresolvedCallee_lost, isSentinel_text, ?_, fun i unit => ?_, ?_⟩
  · intro e he
    rw [hedges] at he
    obtain ⟨s, hs, rfl⟩ := List.mem_map.1 he
    exact ends_of_mem_sites hs
  · obtain ⟨visited, hcounts, hsites, -⟩ := (p.view i unit).walk_visits
    exact ⟨visited, hsites, hcounts⟩
  · intro i unit scopes node path scope hcounts ht hcallee
    have hnone := (callee_site scopes node).1.1 hcallee
    exact referenced_ne_none_of_construct ht hcounts.2 hnone

end Project

end Calligraph
