import Calligraph.Proofs.Arena.Graft
import Calligraph.Proofs.Sketch.Shift

/-!
# Sketches behind a scope

A module of a file sketched by itself, and the same module sketched inside the file that only holds
it: the second sketch has one more scope in front and one more node on top, and everything else is
moved by one (`Sketch.behind_ofItems`).
-/

namespace Calligraph

/-! ## Trees under one more node -/

/-- What a node of a module stands for in a file of its own, and in the file around the module. -/
inductive Mark.Behind : Mark → Mark → Prop
  /-- The root of its own file is the module. -/
  | root : Behind .root .module
  | shift (mark : Mark) : Behind mark mark.shift

/-- The second tree is the first one under one more node, its indices moved by one. -/
structure Arena.Behind (a a' : Arena Mark) : Prop where
  size_eq : a'.size = a.size + 1
  kind_eq (i : Nat) : a'.kind (i + 1) = a.kind i
  children_eq (i : Nat) : a'.children (i + 1) = (a.children i).map (· + 1)
  position_eq (i : Nat) : a.kind i ≠ .other → a'.position (i + 1) = a.position i
  payload_rel (i : Nat) : Option.Rel Mark.Behind (a.payload? i) (a'.payload? (i + 1))
  kind_top : a'.kind 0 = .other
  children_top : a'.children 0 = [1]

namespace Arena.Behind

variable {a a' : Arena Mark}

theorem new (pos : Position) :
    (Arena.new Mark.root).Behind ((Arena.new Mark.root).push 0 .other pos .module) := by
  refine ⟨rfl, fun i => ?_, fun i => ?_, fun i hi => ?_, fun i => ?_, rfl, rfl⟩
  · cases i <;> rfl
  · cases i <;> rfl
  · cases i with
    | zero => exact absurd rfl hi
    | succ i => rfl
  · cases i with
    | zero => exact .some .root
    | succ i => exact .none

/-- Adding a node to both trees. -/
theorem push (h : a.Behind a') {parent : Nat} (hp : parent < a.size) (k : NodeKind)
    (pos : Position) {x y : Mark} (hxy : x.Behind y) :
    (a.push parent k pos x).Behind (a'.push (parent + 1) k pos y) := by
  have hp' : parent + 1 < a'.size := by rw [h.size_eq]; omega
  have htop : ¬ 0 = a'.size := by omega
  refine ⟨?_, fun i => ?_, fun i => ?_, fun i => ?_, fun i => ?_, ?_, ?_⟩
  · rw [size_push, size_push, h.size_eq]
  · rw [kind_push _ hp, kind_push _ hp', h.size_eq, h.kind_eq]
    simp
  · rw [children_push _ hp, children_push _ hp', h.children_eq, h.size_eq, List.map_append]
    by_cases hi : i = parent <;> simp [hi]
  · rw [kind_push _ hp, position_push _ hp, position_push _ hp', h.size_eq]
    by_cases hi : i = a.size
    · simp [hi]
    · simpa [hi] using h.position_eq i
  · rw [payload?_push _ hp, payload?_push _ hp', h.size_eq]
    by_cases hi : i = a.size
    · simpa [hi] using Option.Rel.some hxy
    · simpa [hi] using h.payload_rel i
  · rw [kind_push _ hp', if_neg htop, h.kind_top]
  · rw [children_push _ hp', h.children_top]
    simp

mutual

theorem graft {parent : Nat} : (b : Branch Mark) → {a a' : Arena Mark} → a.Behind a' →
    parent < a.size → (a.graft parent b).Behind (a'.graft (parent + 1) b.shift)
  | .mk kind position mark below, a, a', h, hp => by
    rw [Branch.shift, Arena.graft, Arena.graft, h.size_eq]
    exact graftAll below (h.push hp kind position (.shift mark)) (by rw [size_push]; omega)

theorem graftAll {parent : Nat} : (bs : List (Branch Mark)) → {a a' : Arena Mark} → a.Behind a' →
    parent < a.size →
    (a.graftAll parent bs).Behind (a'.graftAll (parent + 1) (Branch.shiftAll bs))
  | [], a, a', h, _ => by
    rw [Branch.shiftAll, Arena.graftAll, Arena.graftAll]
    exact h
  | b :: rest, a, a', h, hp => by
    rw [Branch.shiftAll, Arena.graftAll, Arena.graftAll]
    have := size_lt_graft parent b a
    exact graftAll rest (graft b h hp) (by omega)

end

end Arena.Behind

/-! ## Sketches -/

/-- The second sketch is the first one behind the scope `front` and under one more node. -/
structure Sketch.Behind (front : Scope) (s s' : Sketch) : Prop where
  declarations_eq : s'.toDeclarations = s.toDeclarations.shift front
  arena : s.arena.Behind s'.arena

namespace Sketch.Behind

variable {front : Scope} {s s' : Sketch}

theorem getElem?_scopes (h : Behind front s s') (i : Nat) : s'.scopes[i + 1]? = s.scopes[i]? := by
  rw [h.declarations_eq, Declarations.shift, Array.getElem?_append_right (by simp)]
  simp

theorem getElem?_routines (h : Behind front s s') (i : Nat) :
    s'.routines[i]? = s.routines[i]?.map RoutineDecl.shift := by
  rw [h.declarations_eq, Declarations.shift, Array.getElem?_map]

theorem routineAt_eq (h : Behind front s s') (node : Nat) :
    s'.routineAt (node + 1) = (s.routineAt node).map RoutineDecl.shift := by
  have hmark := h.arena.payload_rel node
  unfold routineAt
  generalize s.arena.payload? node = x, s'.arena.payload? (node + 1) = y at hmark ⊢
  cases hmark with
  | none => rfl
  | @some mark _ hm =>
    cases hm with
    | root => rfl
    | shift =>
      cases mark with
      | declaration i => exact h.getElem?_routines i
      | _ => rfl

theorem callAt_eq (h : Behind front s s') (node : Nat) :
    s'.callAt (node + 1) = (s.callAt node).map CallTarget.shift := by
  have hmark := h.arena.payload_rel node
  unfold callAt
  generalize s.arena.payload? node = x, s'.arena.payload? (node + 1) = y at hmark ⊢
  cases hmark with
  | none => rfl
  | @some mark _ hm =>
    cases hm with
    | root => rfl
    | shift => cases mark <;> rfl

end Sketch.Behind

/-- The nodes of a file and the draft they leave. -/
def Item.drafted (home : List String) (items : List Item) : List (Branch Mark) × Draft :=
  let scope := Scope.ofModule home items
  (Item.draftAll { scope } items).run { scopes := #[scope] }

theorem Sketch.declarations_ofItems (home : List String) (items : List Item) :
    (Sketch.ofItems home items).toDeclarations = (Item.drafted home items).2.toDeclarations :=
  rfl

theorem Sketch.arena_ofItems (home : List String) (items : List Item) :
    (Sketch.ofItems home items).arena =
      (Arena.new .root).graftAll 0 (Item.drafted home items).1 :=
  rfl

theorem Sketch.isTree_ofItems (home : List String) (items : List Item) :
    (Sketch.ofItems home items).arena.IsTree :=
  (Arena.isTree_new _).graftAll _ Nat.one_pos

/-- A file that only holds a module drafts the items of the module as the module by itself does,
behind its own scope. -/
theorem Item.drafted_module (home : List String) (name : String) (pos : Position)
    (items : List Item) :
    let front := Scope.ofModule home [.module name pos items]
    let own := Item.drafted (home ++ [name]) items
    Item.drafted home [.module name pos items] =
      ([.mk .other pos .module (Branch.shiftAll own.1)], own.2.shift front) := by
  intro front own
  let scope := Scope.ofModule (home ++ [name]) items
  have hstart : Draft.shift { scopes := #[scope] } front = { scopes := #[front].push scope } := by
    simp [Draft.shift, Declarations.shift]
  -- Entering the module adds `scope` behind `front`: from there on both drafts are alike.
  have hrun : Item.drafted home [.module name pos items] =
      let inner := (Item.draftAll (Context.shift { scope }) items).run
        (Draft.shift { scopes := #[scope] } front)
      ([.mk .other pos .module inner.1], inner.2) := by
    rw [hstart]
    simp only [Item.drafted, Item.draftAll, Item.draft]
    rfl
  have hitems := (Likeness.behind_kept front).items
    (rfl : (Likeness.behind front).ctx { scope } (Context.shift { scope })) items
  obtain ⟨hnodes, hdraft⟩ := hitems { scopes := #[scope] } _ rfl
  rw [hrun]
  exact Prod.ext (congrArg (fun below => [Branch.mk .other pos .module below])
    (Branch.forall₂_shift.1 hnodes)) hdraft

/-- A module inside of a file is the module as a file behind the scope of that file. -/
theorem Sketch.behind_ofItems (home : List String) (name : String) (pos : Position)
    (items : List Item) :
    Behind (Scope.ofModule home [.module name pos items]) (Sketch.ofItems (home ++ [name]) items)
      (Sketch.ofItems home [.module name pos items]) where
  declarations_eq := by
    rw [declarations_ofItems, declarations_ofItems, Item.drafted_module]
    rfl
  arena := by
    rw [arena_ofItems, arena_ofItems, Item.drafted_module]
    exact (Arena.Behind.new pos).graftAll _ Nat.one_pos

end Calligraph
