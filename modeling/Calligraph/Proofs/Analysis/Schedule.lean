import Calligraph.Analysis
import Calligraph.Outline
import Calligraph.Proofs.CallGraph.Builder
import Calligraph.Proofs.Walk.Run

/-!
# Schedules

The walks of the units hand their calls to the builder one at a time and in any mixture
(`Interleaving`), and the builder may keep its buffers in a new order after each of them
(`GraphBuilder.Takes`). The report does not tell: a mixture can be taken apart again, since every
call carries the index of its unit.
-/

namespace Calligraph

/-! ## Interleavings -/

/-- One list after another gives away its first element until all are empty. -/
inductive Interleaving {α : Type} : List (List α) → List α → Prop where
  | done {lists : List (List α)} : (∀ l ∈ lists, l = []) → Interleaving lists []
  | take {i : Nat} {lists : List (List α)} {a : α} {l merged : List α} :
      lists[i]? = some (a :: l) → Interleaving (lists.set i l) merged →
      Interleaving lists (a :: merged)

namespace Interleaving

theorem cons_nil {α : Type} {lists : List (List α)} {merged : List α}
    (h : Interleaving lists merged) : Interleaving ([] :: lists) merged := by
  induction h with
  | done h => exact .done (by simpa using h)
  | @take i lists a l merged hi _ ih =>
    exact .take (i := i + 1) (by simpa using hi) (by simpa using ih)

/-- The lists one after the other. -/
theorem flatten {α : Type} (lists : List (List α)) : Interleaving lists lists.flatten := by
  induction lists with
  | nil => exact .done (by simp)
  | cons l rest ih =>
    induction l with
    | nil => exact ih.cons_nil
    | cons a l ihl => exact .take (i := 0) rfl ihl

/-- The calls of a unit in a mixture are those that its walk handed over, in their order. -/
theorem filter_unit {lists : List (List CallSite)} {merged : List CallSite}
    (h : Interleaving lists merged)
    (hunit : ∀ (i : Nat) (l : List CallSite), lists[i]? = some l → ∀ s ∈ l, s.unit = i)
    (j : Nat) : (merged.filter fun s => s.unit = j) = lists[j]?.getD [] := by
  induction h with
  | @done lists hnil =>
    cases hj : lists[j]? with
    | none => rfl
    | some l => exact (hnil l (List.mem_of_getElem? hj)).symm
  | @take i lists a l merged hi _ ih =>
    have hlt : i < lists.length := (List.getElem?_eq_some_iff.1 hi).1
    have ha : a.unit = i := hunit i _ hi a (List.mem_cons_self ..)
    have hrest := ih fun k r hk s hs => by
      rw [List.getElem?_set] at hk
      split at hk
      · next hik =>
        obtain rfl : l = r := by simpa [hlt, ← hik] using hk
        exact hik ▸ hunit i _ hi s (List.mem_cons_of_mem _ hs)
      · exact hunit k r hk s hs
    rw [List.getElem?_set] at hrest
    by_cases hij : i = j
    · subst hij
      rw [if_pos rfl, if_pos hlt, Option.getD_some] at hrest
      rw [List.filter_cons_of_pos (by simpa using ha), hrest, hi, Option.getD_some]
    · rw [if_neg hij] at hrest
      rw [List.filter_cons_of_neg (by simpa [ha] using hij), hrest]

end Interleaving

/-! ## Runs of the builder -/

namespace GraphBuilder

/-- The builder takes in calls one after the other, its buffers being in whatever order before each
of them and in the end. -/
inductive Takes : GraphBuilder → List CallSite → GraphBuilder → Prop where
  | done {b c : GraphBuilder} : b.buffers.Perm c.buffers → Takes b [] c
  | accept {b c d : GraphBuilder} {site : CallSite} {sites : List CallSite} :
      b.buffers.Perm c.buffers → Takes (c.accept site) sites d → Takes b (site :: sites) d

theorem takes_foldl (sites : List CallSite) (b : GraphBuilder) :
    Takes b sites (sites.foldl accept b) := by
  induction sites generalizing b with
  | nil => exact .done (.refl _)
  | cons site sites ih => exact .accept (.refl _) (ih _)

/-- However its buffers are moved about, the builder holds the edges of the calls it took in. -/
theorem Takes.holds {b c : GraphBuilder} {sites earlier : List CallSite} (h : Takes b sites c)
    (hb : b.Holds (edgesOf earlier)) : c.Holds (edgesOf (earlier ++ sites)) := by
  induction h generalizing earlier with
  | done hp => simpa using hb.perm hp
  | @accept b c d site sites hp _ ih =>
    have hnext : (c.accept site).Holds (edgesOf (earlier ++ [site])) := by
      have he : edgesOf (earlier ++ [site]) = fun u =>
          edgesOf earlier u ++ if u = site.unit then [site.edge] else [] :=
        funext fun u => edgesOf_concat earlier site u
      exact he ▸ (hb.perm hp).accept site
    simpa using ih hnext

end GraphBuilder

/-! ## The report -/

namespace Project

variable {fe : FrontEnd}

/-- The calls of each unit, in the order of its walk. -/
def sitesByUnit (p : Project fe) : List (List CallSite) :=
  p.walks.map fun w => w.sites.toList

theorem unit_of_mem_sitesByUnit {p : Project fe} {i : Nat} {sites : List CallSite}
    (h : p.sitesByUnit[i]? = some sites) : ∀ s ∈ sites, s.unit = i := by
  simp only [sitesByUnit, walks, List.getElem?_map, List.getElem?_mapIdx, Option.map_map,
    Option.map_eq_some_iff] at h
  obtain ⟨unit, -, rfl⟩ := h
  exact fun s hs => WalkView.unit_of_mem_sites hs

theorem map_range_getElem? {α : Type} (lists : List (List α)) :
    (List.range lists.length).map (fun u => lists[u]?.getD []) = lists := by
  refine List.ext_getElem (by simp) fun u hu _ => ?_
  have hlt : u < lists.length := by simpa using hu
  simp [hlt]

/-- The edges of a graph that was built from a mixture of the walks. -/
theorem edges_of_interleaving {p : Project fe} {events : List CallSite} {b : GraphBuilder}
    (he : Interleaving p.sitesByUnit events) (hb : GraphBuilder.Takes {} events b) :
    b.finish.edges = p.sitesByUnit.flatMap fun sites => sites.map CallSite.edge := by
  have hholds : b.Holds (GraphBuilder.edgesOf ([] ++ events)) := hb.holds GraphBuilder.holds_empty
  have hedges : GraphBuilder.edgesOf ([] ++ events) =
      fun u => (p.sitesByUnit[u]?.getD []).map CallSite.edge :=
    funext fun u => congrArg (List.map CallSite.edge)
      (he.filter_unit (fun _ _ h => unit_of_mem_sitesByUnit h) u)
  have hnil : ∀ u, p.sitesByUnit.length ≤ u →
      (p.sitesByUnit[u]?.getD []).map CallSite.edge = [] :=
    fun u hu => by rw [List.getElem?_eq_none hu]; rfl
  rw [hedges] at hholds
  rw [hholds.edges_finish hnil]
  conv_rhs => rw [← map_range_getElem? p.sitesByUnit, List.flatMap_map]

theorem edges_analyze (p : Project fe) :
    p.analyze.graph.edges = p.sitesByUnit.flatMap fun sites => sites.map CallSite.edge := by
  have hflat : p.sitesByUnit.flatten = p.walks.flatMap fun w => w.sites.toList :=
    List.flatMap_def.symm
  exact edges_of_interleaving (hflat ▸ .flatten _) (GraphBuilder.takes_foldl _ _)

/-- **The report does not depend on the schedule.** Whatever the mixture in which the calls of the
units reach the builder, and in whatever order its buffers are when they are put together, the
report is that of walking one unit after the other: the edges of all calls and all diagnostics in
the order of the units and of their walks. -/
theorem report_of_interleaving (p : Project fe) (events : List CallSite) (b : GraphBuilder)
    (he : Interleaving (p.walks.map fun w => w.sites.toList) events)
    (hb : GraphBuilder.Takes {} events b) :
    { graph := b.finish, diagnostics := p.walks.flatMap fun w => w.diagnostics.toList } =
      p.analyze ∧
    (p.analyze.graph.edges =
      (p.units.mapIdx p.walk).flatMap fun w => w.sites.toList.map CallSite.edge) ∧
    p.analyze.diagnostics = (p.units.mapIdx p.walk).flatMap fun w => w.diagnostics.toList := by
  have hgraph : b.finish = p.analyze.graph := by
    have h := (edges_of_interleaving he hb).trans p.edges_analyze.symm
    cases hg : b.finish with
    | mk edges => rw [hg] at h; exact congrArg CallGraph.mk h
  refine ⟨by rw [hgraph]; rfl, ?_, rfl⟩
  rw [edges_analyze, sitesByUnit, List.flatMap_map]
  rfl

/-- Two units with calls, of which the second calls the first. -/
def twoUnits : Project Outline.frontEnd where
  name := "two"
  units := [⟨"a", (Arena.new .root).push 0 .declaration ⟨1, 0⟩ (.routine "A()")
      |>.push 1 .call ⟨2, 2⟩ (.call (some "A()")) |>.push 1 .call ⟨3, 2⟩ (.call none)⟩,
    ⟨"b", (Arena.new .root).push 0 .call ⟨1, 0⟩ (.call (some "A()"))⟩]
  libraries := []
  bindings := Outline.frontEnd.bind [] [["A()"]]

/-- The second unit comes first, and the buffers change places in the end. -/
theorem report_of_interleaving_twoUnits :
    let first : CallSite := ⟨0, ⟨2, 2⟩, ⟨"A()"⟩, ⟨"A()"⟩⟩
    let second : CallSite := ⟨0, ⟨3, 2⟩, ⟨"A()"⟩, .unresolved⟩
    let third : CallSite := ⟨1, ⟨1, 0⟩, .moduleLevel, ⟨"A()"⟩⟩
    let b : GraphBuilder := ⟨[(0, #[first.edge, second.edge]), (1, #[third.edge])]⟩
    Interleaving (twoUnits.walks.map fun w => w.sites.toList) [third, first, second] ∧
    GraphBuilder.Takes {} [third, first, second] b ∧
    { graph := b.finish, diagnostics := twoUnits.walks.flatMap fun w => w.diagnostics.toList } =
      twoUnits.analyze := by
  intro first second third b
  have hwalks : twoUnits.walks.map (fun w => w.sites.toList) = [[first, second], [third]] := by
    decide
  have hevents : Interleaving (twoUnits.walks.map fun w => w.sites.toList)
      [third, first, second] := by
    rw [hwalks]
    exact .take (i := 1) rfl (.take (i := 0) rfl (.take (i := 0) rfl (.done (by simp))))
  have htakes : GraphBuilder.Takes {} [third, first, second] b :=
    .accept (.refl _) (.accept (.refl _) (.accept (.refl _) (.done (.swap ..))))
  exact ⟨hevents, htakes, (twoUnits.report_of_interleaving _ b hevents htakes).1⟩

end Project

end Calligraph
