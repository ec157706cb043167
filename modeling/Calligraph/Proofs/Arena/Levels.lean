import Calligraph.Proofs.Arena.Forest

/-!
# Arenas in pre-order

Nodes may be added as trees are written down in lines, each with a level, where a node is a child of
the last node before it with a smaller level (`FollowsLevels`). What is below a node then ends where
its next sibling starts, so that the pre-order traversal meets the nodes by their indices
(`IsTree.nodesFrom_root_eq_range`).
-/

namespace Calligraph.Arena

variable {α : Type} {a : Arena α}

/-- If every node names an earlier one, there is a tree. -/
theorem isTree_addAll (root : α) {xs : List (Addition α)}
    (h : ∀ (k : Nat) (x : Addition α), xs[k]? = some x → x.parent ≤ k) :
    ((Arena.new root).addAll xs).IsTree where
  root_lt := (listsOnce_addAll root xs).root_lt
  lt_child hc := by
    obtain ⟨k, x, hx, rfl, rfl, -⟩ := (mem_children_addAll root).1 hc
    exact Nat.lt_succ_of_le (h k x hx)
  child_lt := (listsOnce_addAll root xs).child_lt
  nodup_children := (listsOnce_addAll root xs).nodup_children
  parent c hpos hlt := by
    obtain ⟨k, rfl⟩ := Nat.exists_eq_add_of_lt hpos
    rw [Nat.zero_add] at hlt ⊢
    obtain ⟨x, hx⟩ : ∃ x, xs[k]? = some x :=
      ⟨_, List.getElem?_eq_getElem (by rw [size_addAll] at hlt; omega)⟩
    have hparent : k + 1 ∈ ((Arena.new root).addAll xs).children x.parent :=
      (mem_children_addAll root).2 ⟨k, x, hx, rfl, rfl, Nat.le_succ_of_le (h k x hx)⟩
    exact ⟨x.parent, hparent, fun j hj => (listsOnce_addAll root xs).unique hj hparent⟩

/-- A child has a larger level than its parent, and no node between them has a smaller one than the
child. -/
def FollowsLevels (a : Arena α) (level : Nat → Nat) : Prop :=
  ∀ i c, c ∈ a.children i → level i < level c ∧ ∀ k, i < k → k < c → level c ≤ level k

namespace IsTree

variable {level : Nat → Nat} {start node : Nat}

theorem le_of_below (h : a.IsTree) (hb : a.Below start node) : start ≤ node := by
  induction hb with
  | refl => exact Nat.le_refl start
  | tail _ hc ih => exact Nat.le_of_lt (Nat.lt_of_le_of_lt ih (h.lt_child hc))

theorem below_root (h : a.IsTree) (hnode : node < a.size) : a.Below 0 node := by
  induction node using Nat.strongRecOn with
  | ind node ih =>
    rcases Nat.eq_zero_or_pos node with rfl | hpos
    · exact .refl
    · obtain ⟨i, hi, -⟩ := h.parent node hpos hnode
      have hlt := h.lt_child hi
      exact (ih i hlt (Nat.lt_trans hlt hnode)).tail hi

/-- Up to a node below it, nothing behind `start` has a level as small as its own. -/
theorem level_lt_of_below (h : a.IsTree) (hlevel : a.FollowsLevels level)
    (hb : a.Below start node) {k : Nat} (hk : start < k) (hle : k ≤ node) :
    level start < level k := by
  induction hb generalizing k with
  | refl => omega
  | @tail parent node hb hc ih =>
    obtain ⟨hdeeper, hbetween⟩ := hlevel parent node hc
    have hparent : level start ≤ level parent := by
      rcases Nat.eq_or_lt_of_le (h.le_of_below hb) with rfl | hlt
      · exact Nat.le_refl _
      · exact Nat.le_of_lt (ih hlt (Nat.le_refl _))
    rcases Nat.lt_or_ge parent k with hbehind | hbefore
    · rcases Nat.eq_or_lt_of_le hle with rfl | hlt
      · omega
      · have := hbetween k hbehind hlt
        omega
    · exact ih hk hbefore

/-- What is below a node comes before its next sibling. -/
theorem lt_sibling_of_below (h : a.IsTree) (hlevel : a.FollowsLevels level) {i c d : Nat}
    (hc : c ∈ a.children i) (hd : d ∈ a.children i) (hcd : c < d) (hb : a.Below c node) :
    node < d := by
  rcases Nat.lt_or_ge node d with hlt | hge
  · exact hlt
  · have hsmaller := h.level_lt_of_below hlevel hb hcd hge
    have hlarger := (hlevel i d hd).2 c (h.lt_child hc) hcd
    omega

theorem pairwise_nodesFrom (h : a.IsTree) (hlevel : a.FollowsLevels level)
    (hsorted : ∀ i, (a.children i).Pairwise (· < ·)) (i : Nat) :
    (h.nodesFrom i).Pairwise (· < ·) := by
  induction i using h.induct with
  | step i ih =>
    rw [h.nodesFrom_eq]
    refine List.pairwise_cons.2 ⟨fun node hm => ?_, List.pairwise_flatMap.2 ⟨ih, ?_⟩⟩
    · obtain ⟨c, hc, hm⟩ := List.mem_flatMap.1 hm
      exact Nat.lt_of_lt_of_le (h.lt_child hc) (h.le_of_below (h.mem_nodesFrom.1 hm))
    · refine (hsorted i).imp_of_mem fun hc hd hcd x hx y hy => ?_
      have hx := h.lt_sibling_of_below hlevel hc hd hcd (h.mem_nodesFrom.1 hx)
      exact Nat.lt_of_lt_of_le hx (h.le_of_below (h.mem_nodesFrom.1 hy))

/-- The pre-order traversal meets the nodes by their indices. -/
theorem nodesFrom_root_eq_range (h : a.IsTree) (hlevel : a.FollowsLevels level)
    (hsorted : ∀ i, (a.children i).Pairwise (· < ·)) : h.nodesFrom 0 = List.range a.size := by
  have hall : ∀ node, node ∈ h.nodesFrom 0 ↔ node ∈ List.range a.size := by
    intro node
    rw [List.mem_range]
    exact ⟨h.lt_size_of_mem_nodesFrom_root, fun hlt => h.mem_nodesFrom.2 (h.below_root hlt)⟩
  have hperm := (List.perm_ext_iff_of_nodup h.nodup_nodesFrom_root List.nodup_range).2 hall
  refine hperm.eq_of_pairwise (fun x y _ _ hxy hyx => ?_)
    (h.pairwise_nodesFrom hlevel hsorted 0) List.pairwise_lt_range
  exact absurd hxy (Nat.lt_asymm hyx)

end IsTree

end Calligraph.Arena
