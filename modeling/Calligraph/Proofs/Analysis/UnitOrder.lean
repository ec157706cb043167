import Calligraph.Proofs.Analysis.Sentinel
import Calligraph.Proofs.Binding.Order
import Calligraph.Proofs.Walk.Preorder

/-!
# Units in another order

The walk of a unit depends on the tables of the bindings and on nothing else of the project, and the
place of the unit shows in the indices of its calls only (`Project.walk_of_same`). So units that are
apart can stand in any order: the report tells the same calls in that order
(`Project.analyze_perm`).
-/

namespace Calligraph

/-! ## Walks under another index -/

namespace WalkView

variable {α : Type} {v : WalkView α}

theorem sites_renumber (h : v.arena.IsTree) (index : Nat) :
    ({ v with index } : WalkView α).walk.sites.toList =
      v.walk.sites.toList.map fun s => { s with unit := index } := by
  rw [sites_walk h, sites_walk (v := { v with index }) h, List.map_map]
  rfl

theorem diagnostics_renumber (h : v.arena.IsTree) (index : Nat) :
    ({ v with index } : WalkView α).walk.diagnostics = v.walk.diagnostics := by
  rw [← Array.toList_inj, diagnostics_walk h, diagnostics_walk (v := { v with index }) h]
  rfl

end WalkView

namespace Project

/-- A list that the walks of the units give can be told from the units, if their places do not
matter to it. -/
theorem flatMap_walks {fe : FrontEnd} {p : Project fe} {β : Type} {g : WalkOutput → List β}
    {f : ParsedUnit fe.Tree → List β} (h : ∀ unit ∈ p.units, ∀ i, g (p.walk i unit) = f unit) :
    p.walks.flatMap g = p.units.flatMap f := by
  have hmap : p.walks.map g = p.units.map f := by
    refine List.ext_getElem? fun i => ?_
    rw [List.getElem?_map, List.getElem?_map, walks, List.getElem?_mapIdx, Option.map_map]
    cases hi : p.units[i]? with
    | none => rfl
    | some unit => exact congrArg some (h unit (List.mem_of_getElem? hi) i)
  rw [List.flatMap_def, List.flatMap_def, hmap]

theorem flatMap_walks_perm {fe : FrontEnd} {p q : Project fe} {β : Type} {g : WalkOutput → List β}
    (hperm : p.units.Perm q.units)
    (hg : ∀ unit ∈ p.units, ∀ i j, g (q.walk j unit) = g (p.walk i unit)) :
    (p.walks.flatMap g).Perm (q.walks.flatMap g) := by
  have hp : p.walks.flatMap g = p.units.flatMap fun unit => g (q.walk 0 unit) :=
    flatMap_walks fun unit hunit i => (hg unit hunit i 0).symm
  have hq : q.walks.flatMap g = q.units.flatMap fun unit => g (q.walk 0 unit) :=
    flatMap_walks fun unit hunit j => by
      have hunit := hperm.mem_iff.2 hunit
      exact (hg unit hunit 0 j).trans (hg unit hunit 0 0).symm
  rw [hp, hq]
  exact hperm.flatMap_right _

/-! ## Walks with bindings that answer alike -/

variable {p q : Project Sketch.frontEnd}

theorem view_of_same (h : Bindings.Same p.bindings q.bindings) (unit : ParsedUnit Sketch)
    (i j : Nat) : q.view j unit = { p.view i unit with index := j } := by
  have hresolve : Bindings.resolve q.bindings unit.tree = Bindings.resolve p.bindings unit.tree :=
    funext fun target => (h.resolve_eq unit.tree target).symm
  have hcalls : Bindings.isCall q.bindings unit.tree = Bindings.isCall p.bindings unit.tree :=
    funext fun target => (h.isCall_eq unit.tree target).symm
  unfold view referencedSymbol isCall
  simp only [Sketch.frontEnd, hresolve, hcalls]
  rfl

theorem walk_of_same (h : Bindings.Same p.bindings q.bindings) {unit : ParsedUnit Sketch}
    (htree : unit.tree.arena.IsTree) (i j : Nat) :
    (q.walk j unit).sites.toList =
        (p.walk i unit).sites.toList.map (fun s => { s with unit := j }) ∧
      (q.walk j unit).diagnostics = (p.walk i unit).diagnostics := by
  have hwalk : q.walk j unit = { p.view i unit with index := j }.walk :=
    congrArg WalkView.walk (view_of_same h unit i j)
  have htree : (p.view i unit).arena.IsTree := htree
  rw [hwalk]
  exact ⟨WalkView.sites_renumber htree j, WalkView.diagnostics_renumber htree j⟩

/-- **The order of units that are apart only orders the report.** If no two different units declare
a routine with the same path or traits of the same type, then in whatever order they stand, the
tables are the same, the walk of each unit finds the same calls and loses the same about them, and
so the report holds the same edges and diagnostics. -/
theorem analyze_perm (title : String) {units others : List (ParsedUnit Sketch)}
    (libraries : List Library)
    (hlowered : ∀ u ∈ units, ∃ home items, u.tree = Sketch.ofItems home items)
    (hapart : ∀ u ∈ units, ∀ v ∈ units, u.tree ≠ v.tree → u.tree.Apart v.tree)
    (hperm : units.Perm others) :
    let p := ofUnits Sketch.frontEnd title units libraries
    let q := ofUnits Sketch.frontEnd title others libraries
    Bindings.Same p.bindings q.bindings ∧
    (∀ unit ∈ units, ∀ i j,
      (q.walk j unit).sites.toList =
          (p.walk i unit).sites.toList.map (fun s => { s with unit := j }) ∧
        (q.walk j unit).diagnostics = (p.walk i unit).diagnostics) ∧
    p.analyze.graph.edges.Perm q.analyze.graph.edges ∧
    p.analyze.diagnostics.Perm q.analyze.diagnostics := by
  intro p q
  have hplain : ∀ s ∈ units.map ParsedUnit.tree, s.ReturnsPlain := by
    intro s hs
    obtain ⟨u, hu, rfl⟩ := List.mem_map.1 hs
    obtain ⟨home, items, htree⟩ := hlowered u hu
    rw [htree]
    exact (Sketch.wellFormed_ofItems home items).returns_plain
  have htrees : ∀ s ∈ units.map ParsedUnit.tree, ∀ t ∈ units.map ParsedUnit.tree, s ≠ t →
      s.Apart t := by
    simpa using hapart
  have hsame : Bindings.Same p.bindings q.bindings :=
    Bindings.same_build_of_perm hplain htrees (hperm.map _) libraries
  have hwalk (unit : ParsedUnit Sketch) (hunit : unit ∈ units) (i j : Nat) :
      (q.walk j unit).sites.toList =
          (p.walk i unit).sites.toList.map (fun s => { s with unit := j }) ∧
        (q.walk j unit).diagnostics = (p.walk i unit).diagnostics := by
    obtain ⟨home, items, htree⟩ := hlowered unit hunit
    exact walk_of_same hsame (htree ▸ Sketch.isTree_ofItems home items) i j
  refine ⟨hsame, hwalk, ?_, ?_⟩
  · rw [edges_analyze_eq_map, edges_analyze_eq_map, List.map_flatMap, List.map_flatMap]
    refine flatMap_walks_perm hperm fun unit hunit i j => ?_
    rw [(hwalk unit hunit i j).1, List.map_map]
    rfl
  · exact flatMap_walks_perm hperm fun unit hunit i j => by rw [(hwalk unit hunit i j).2]

/-- A unit with a type and a call of its method, and a unit with the trait that has the method. -/
def inheritingUnits : List (ParsedUnit Sketch) :=
  let type : Ty := .path (.plain false [.plain "T"])
  let value : Expr := .path (.plain false [.plain "t"]) []
  let back : Expr :=
    .call ⟨1, 30⟩ [] (.path (.plain false [.plain "crate", .plain "f"]) []) [value]
  [⟨"a", .ofItems [] [
      .record "T",
      .implBlock {} (some (.plain false [.plain "m", .plain "Tr"])) type [],
      .function ⟨"f", ⟨3, 3⟩, {}, [.typed (.name "t" none) (.reference none false type)], none⟩
        [.expr (.method ⟨3, 17⟩ [] value "m" [])]]⟩,
    ⟨"b", .ofItems ["m"] [
      .traitDef "Tr" {} [.function ⟨"m", ⟨1, 16⟩, {}, [.receiver], none⟩ (some [.expr back])]]⟩]

theorem analyze_perm_inheriting :
    let p := ofUnits Sketch.frontEnd "p" inheritingUnits []
    let q := ofUnits Sketch.frontEnd "p" inheritingUnits.reverse []
    p.analyze.graph.edges =
        [⟨⟨"f(&T)"⟩, ⟨"m::Tr::m()"⟩⟩, ⟨⟨"m::Tr::m()"⟩, ⟨"f(&T)"⟩⟩] ∧
      q.analyze.graph.edges =
        [⟨⟨"m::Tr::m()"⟩, ⟨"f(&T)"⟩⟩, ⟨⟨"f(&T)"⟩, ⟨"m::Tr::m()"⟩⟩] ∧
      p.analyze.graph.edges.Perm q.analyze.graph.edges := by
  intro p q
  rw [p.edges_analyze_eq_map, q.edges_analyze_eq_map]
  refine ⟨by decide +kernel, by decide +kernel, ?_⟩
  rw [← p.edges_analyze_eq_map, ← q.edges_analyze_eq_map]
  refine (analyze_perm "p" [] ?_ ?_ (List.reverse_perm inheritingUnits).symm).2.2.1
  · simp [inheritingUnits]
  · intro u hu v hv hne
    simp only [inheritingUnits, List.mem_cons, List.not_mem_nil, or_false] at hu hv
    rcases hu with rfl | rfl <;> rcases hv with rfl | rfl
    · exact absurd rfl hne
    · exact ⟨by decide +kernel, by decide +kernel⟩
    · exact ⟨by decide +kernel, by decide +kernel⟩
    · exact absurd rfl hne

end Project

end Calligraph
