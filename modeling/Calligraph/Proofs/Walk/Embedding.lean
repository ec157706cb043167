import Calligraph.Proofs.Walk.Preorder

/-!
# Trees inside of trees

A tree that stands in another one, its nodes under other indices but answering alike, is walked
alike: the walk of the outer tree finds in it what the walk of the inner tree finds, as long as no
routine is around it.
-/

namespace Calligraph.WalkView

variable {α β : Type} {v : WalkView α} {w : WalkView β} {f : Nat → Nat}

/-- The nodes of `v` stand in `w` under the indices that `f` gives, and answer there as in `v`. -/
structure Embeds (v : WalkView α) (w : WalkView β) (f : Nat → Nat) : Prop where
  index_eq : w.index = v.index
  unit_eq : w.unit = v.unit
  kind_eq : ∀ i, w.arena.kind (f i) = v.arena.kind i
  children_eq : ∀ i, w.arena.children (f i) = (v.arena.children i).map f
  position_eq : ∀ i, v.arena.kind i = .call → w.arena.position (f i) = v.arena.position i
  declaring_eq : ∀ i, w.declaring (f i) = v.declaring i
  referenced_eq : ∀ i, w.referenced (f i) = v.referenced i
  isCall_eq : ∀ i, w.isCall (f i) = v.isCall i

namespace Embeds

theorem preorder_eq (e : Embeds v w f) (hv : v.arena.IsTree) (hw : w.arena.IsTree)
    (outer above : List Nat) (node : Nat) :
    hw.preorder (above.map f ++ outer) (f node) =
      (hv.preorder above node).map fun x => (f x.1, x.2.map f ++ outer) := by
  induction node using hv.induct generalizing above with
  | step node ih =>
    rw [hw.preorder_eq, hv.preorder_eq, e.children_eq, List.flatMap_map, List.map_cons,
      List.map_flatMap]
    congr 1
    exact List.flatMap_congr fun c hc => ih c hc (node :: above)

theorem routinesOf_eq (e : Embeds v w f) {outer : List Nat} (houter : w.arena.routinesOf outer = [])
    (nodes : List Nat) :
    w.arena.routinesOf (nodes.map f ++ outer) = (v.arena.routinesOf nodes).map f := by
  unfold Arena.routinesOf at houter ⊢
  rw [List.filter_append, houter, List.append_nil, List.filter_map]
  congr 1
  refine List.filter_congr fun i _ => ?_
  simp [e.kind_eq]

theorem counts_iff (e : Embeds v w f) (node : Nat) : w.Counts (f node) ↔ v.Counts node := by
  unfold Counts
  rw [e.kind_eq, e.isCall_eq]

theorem counted_eq (e : Embeds v w f) {outer : List Nat} (houter : w.arena.routinesOf outer = [])
    (nodes : List (Nat × List Nat)) :
    w.counted (nodes.map fun x => (f x.1, x.2.map f ++ outer)) =
      (v.counted nodes).map fun x => (x.1.map f, f x.2) := by
  unfold counted
  rw [List.filter_map, List.map_map, List.map_map]
  have hfilter : nodes.filter ((fun x => decide (w.Counts x.1)) ∘
      fun x => (f x.1, x.2.map f ++ outer)) = nodes.filter fun x => decide (v.Counts x.1) :=
    List.filter_congr fun x _ => by simp [e.counts_iff]
  rw [hfilter]
  refine List.map_congr_left fun x _ => ?_
  simp [e.routinesOf_eq houter]

theorem findSome?_declaring (e : Embeds v w f) (scopes : List Nat) :
    (scopes.map f).findSome? w.declaring = scopes.findSome? v.declaring := by
  rw [List.findSome?_map]
  exact congrArg (scopes.findSome? ·) (funext e.declaring_eq)

/-- Visiting a call gives the same in both trees. -/
theorem visit_eq (e : Embeds v w f) {node : Nat} (hnode : v.Counts node) (scopes : List Nat)
    (out : WalkOutput) : w.visit (scopes.map f) (f node) out = v.visit scopes node out := by
  have hposition := e.position_eq node hnode.1
  have hsite : w.site (scopes.map f) (f node) = v.site scopes node := by
    simp only [site, e.findSome?_declaring, e.referenced_eq, e.index_eq, hposition]
  have hlost : w.lost (scopes.map f) (f node) = v.lost scopes node := by
    simp only [lost, e.findSome?_declaring, e.referenced_eq, e.unit_eq, hposition]
  rw [visit, hsite, hlost, visit]

theorem visitAll_eq (e : Embeds v w f) {visited : List (List Nat × Nat)}
    (h : ∀ x ∈ visited, v.Counts x.2) (out : WalkOutput) :
    w.visitAll (visited.map fun x => (x.1.map f, f x.2)) out = v.visitAll visited out := by
  induction visited generalizing out with
  | nil => rfl
  | cons x rest ih =>
    obtain ⟨hx, hrest⟩ := List.forall_mem_cons.1 h
    rw [List.map_cons, visitAll_cons, visitAll_cons, e.visit_eq hx, ih hrest]

theorem counts_of_mem_counted {nodes : List (Nat × List Nat)} :
    ∀ x ∈ v.counted nodes, v.Counts x.2 := by
  intro x hx
  obtain ⟨y, hy, rfl⟩ := List.mem_map.1 hx
  simpa using (List.mem_filter.1 hy).2

/-- A tree under a root that is neither a routine nor a call is walked as it is by itself. -/
theorem walk_eq (e : Embeds v w f) (hv : v.arena.IsTree) (hw : w.arena.IsTree)
    (hkind : w.arena.kind 0 = .other) (hchildren : w.arena.children 0 = [f 0]) :
    w.walk = v.walk := by
  have houter : w.arena.routinesOf [0] = [] := by
    rw [Arena.routinesOf_cons_of_ne (by simp [hkind])]
    rfl
  have hnodes : hw.preorder [] 0 =
      [(0, [])] ++ (hv.preorder [] 0).map fun x => (f x.1, x.2.map f ++ [0]) := by
    rw [hw.preorder_eq, hchildren, List.flatMap_singleton, ← e.preorder_eq hv hw]
    rfl
  have hroot : w.counted [(0, [])] = [] := by simp [counted, Counts, hkind]
  rw [walk_eq_visitAll hv, walk_eq_visitAll hw, hnodes, counted_append, hroot, List.nil_append,
    e.counted_eq houter]
  exact e.visitAll_eq counts_of_mem_counted _

end Embeds

end Calligraph.WalkView
