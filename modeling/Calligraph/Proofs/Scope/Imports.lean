import Calligraph.Proofs.Scope.Candidates
import Calligraph.Sketch.Imports

/-!
# What `use` declarations bring in

A leaf of a `use` declaration is named by its place: the index of the declaration among the items,
and then the turns taken in the groups on the way down. Places are compared from the left, which is
the order of the text. The leaves of a module are listed in this order (`Item.lists_useLeaves`), so
the last leaf with a label decides what the label stands for, and a label for a path that is led by
`crate`, `self` or `super` means what the path means (`Scope.ofModule_transparent`).
-/

namespace Calligraph

/-! ## Leaves and their places -/

/-- Going down the tree, `turns` in its groups and the names `path` lead to `last`. -/
inductive UseTree.Leads : UseTree → List Nat → List String → UseTree → Prop
  | leaf (name : String) : Leads (.leaf name) [] [] (.leaf name)
  | rename (name label : String) : Leads (.rename name label) [] [] (.rename name label)
  | all : Leads .all [] [] .all
  | under {rest last : UseTree} {turns : List Nat} {path : List String} (name : String) :
      Leads rest turns path last → Leads (.under name rest) turns (name :: path) last
  | group {trees : List UseTree} {t last : UseTree} {i : Nat} {turns : List Nat}
      {path : List String} :
      trees[i]? = some t → Leads t turns path last → Leads (.group trees) (i :: turns) path last

/-- What the end of a tree brings in under the names `path`. The name `self` stands for the names
before it, and the label `_` brings in nothing. -/
def UseTree.leaf? (path : List String) : UseTree → Option UseLeaf
  | .leaf name =>
    if name = "self" then path.getLast?.map fun last => .name last path
    else some (.name name (path ++ [name]))
  | .rename name label =>
    if label = "_" then none
    else some (.name label (if name = "self" then path else path ++ [name]))
  | .all => some (.all path)
  | .under .. | .group .. => none

/-- Below `base`, the tree has this leaf at the place `turns`. -/
def UseTree.LeafAt (base : List String) (t : UseTree) (turns : List Nat) (leaf : UseLeaf) : Prop :=
  ∃ path last, t.Leads turns path last ∧ last.leaf? (base ++ path) = some leaf

/-- The `use` declarations among the items have this leaf at a place. -/
def Item.LeafAt (items : List Item) (place : List Nat) (leaf : UseLeaf) : Prop :=
  ∃ i tree attrs turns, items[i]? = some (.uses tree attrs) ∧ place = i :: turns ∧
    tree.LeafAt [] turns leaf

/-- A leaf gives `label` the full path `path`, and no leaf after it gives it any. -/
def Item.LastBinds (items : List Item) (label : String) (path : List String) : Prop :=
  ∃ place, LeafAt items place (.name label path) ∧
    ∀ later other, place < later → ¬ LeafAt items later (.name label other)

/-! ## Lists in the order of places -/

/-- The list has the leaves that `P` tells of, in the order of their places. -/
def UseLeaf.Lists (P : List Nat → UseLeaf → Prop) (leaves : List UseLeaf) : Prop :=
  ∃ located : List (List Nat × UseLeaf), located.map Prod.snd = leaves ∧
    located.Pairwise (fun x y => x.1 < y.1) ∧ ∀ place leaf, (place, leaf) ∈ located ↔ P place leaf

namespace UseLeaf.Lists

variable {P Q : List Nat → UseLeaf → Prop} {xs ys : List UseLeaf}

theorem congr (h : Lists P xs) (hiff : ∀ place leaf, P place leaf ↔ Q place leaf) : Lists Q xs := by
  obtain ⟨located, hmap, hsorted, hmem⟩ := h
  exact ⟨located, hmap, hsorted, fun place leaf => (hmem place leaf).trans (hiff place leaf)⟩

theorem none (h : ∀ place leaf, ¬ P place leaf) : Lists P [] :=
  ⟨[], rfl, List.Pairwise.nil, fun place leaf => by simp [h place leaf]⟩

/-- At most one leaf, at the top. -/
theorem top (leaf? : Option UseLeaf) :
    Lists (fun place leaf => place = [] ∧ leaf? = some leaf) leaf?.toList := by
  cases leaf? with
  | none => exact none (by simp)
  | some leaf =>
    exact ⟨[([], leaf)], rfl, List.pairwise_singleton _ _, fun place other => by
      simp [eq_comm (a := other)]⟩

theorem append (h : Lists P xs) (h' : Lists Q ys)
    (hlt : ∀ place leaf later other, P place leaf → Q later other → place < later) :
    Lists (fun place leaf => P place leaf ∨ Q place leaf) (xs ++ ys) := by
  obtain ⟨located, rfl, hsorted, hmem⟩ := h
  obtain ⟨located', rfl, hsorted', hmem'⟩ := h'
  refine ⟨located ++ located', List.map_append, ?_, fun place leaf => ?_⟩
  · refine List.pairwise_append.2 ⟨hsorted, hsorted', fun x hx y hy => ?_⟩
    exact hlt _ _ _ _ ((hmem x.1 x.2).1 hx) ((hmem' y.1 y.2).1 hy)
  · rw [List.mem_append, hmem, hmem']

/-- One turn further up. -/
theorem turn (h : Lists P xs) (i : Nat) :
    Lists (fun place leaf => ∃ turns, place = i :: turns ∧ P turns leaf) xs := by
  obtain ⟨located, rfl, hsorted, hmem⟩ := h
  refine ⟨located.map fun x => (i :: x.1, x.2), by simp [Function.comp_def], ?_, ?_⟩
  · refine List.pairwise_map.2 (hsorted.imp fun hlt => ?_)
    exact List.cons_lt_cons_iff.2 (.inr ⟨rfl, hlt⟩)
  · intro place leaf
    simp only [List.mem_map, Prod.mk.injEq, Prod.exists]
    constructor
    · rintro ⟨turns, _, hx, rfl, rfl⟩
      exact ⟨turns, rfl, (hmem _ _).1 hx⟩
    · rintro ⟨turns, rfl, hP⟩
      exact ⟨turns, leaf, (hmem _ _).2 hP, rfl, rfl⟩

/-- The leaves of several things one after the other, the first of which is at turn `k`. -/
theorem flatMap_from {α : Type} {P : α → List Nat → UseLeaf → Prop} {f : α → List UseLeaf}
    {xs : List α} (h : ∀ x ∈ xs, Lists (P x) (f x)) (k : Nat) :
    Lists (fun place leaf => ∃ i x turns, xs[i]? = some x ∧ place = (k + i) :: turns ∧
      P x turns leaf) (xs.flatMap f) := by
  induction xs generalizing k with
  | nil => exact none (by simp)
  | cons x rest ih =>
    have hfirst := (h x List.mem_cons_self).turn k
    have hrest := ih (fun y hy => h y (List.mem_cons_of_mem x hy)) (k + 1)
    refine (hfirst.append hrest ?_).congr fun place leaf => ?_
    · rintro _ _ _ _ ⟨turns, rfl, -⟩ ⟨i, y, turns', -, rfl, -⟩
      exact List.cons_lt_cons_iff.2 (.inl (by omega))
    · constructor
      · rintro (⟨turns, rfl, hP⟩ | ⟨i, y, turns, hy, rfl, hP⟩)
        · exact ⟨0, x, turns, rfl, rfl, hP⟩
        · exact ⟨i + 1, y, turns, hy, by rw [Nat.add_assoc, Nat.add_comm 1 i], hP⟩
      · rintro ⟨i, y, turns, hy, rfl, hP⟩
        cases i with
        | zero =>
          obtain rfl : x = y := Option.some.inj hy
          exact .inl ⟨turns, rfl, hP⟩
        | succ i => exact .inr ⟨i, y, turns, hy, by rw [Nat.add_assoc, Nat.add_comm 1 i], hP⟩

theorem flatMap {α : Type} {P : α → List Nat → UseLeaf → Prop} {f : α → List UseLeaf}
    {xs : List α} (h : ∀ x ∈ xs, Lists (P x) (f x)) :
    Lists (fun place leaf => ∃ i x turns, xs[i]? = some x ∧ place = i :: turns ∧ P x turns leaf)
      (xs.flatMap f) := by
  simpa using flatMap_from h 0

end UseLeaf.Lists

/-! ## The leaves of a tree -/

namespace UseTree

open UseLeaf (Lists)

theorem leavesAll_eq (base : List String) (trees : List UseTree) :
    leavesAll base trees = trees.flatMap (leaves base) := by
  induction trees with
  | nil => simp [leavesAll]
  | cons t rest ih => simp [leavesAll, ih]

/-- A tree that nothing leads further down from. -/
theorem lists_end {base : List String} {t : UseTree}
    (hleads : ∀ turns path last, t.Leads turns path last ↔ turns = [] ∧ path = [] ∧ last = t)
    (hleaves : t.leaves base = (t.leaf? base).toList) :
    Lists (t.LeafAt base) (t.leaves base) := by
  rw [hleaves]
  refine (Lists.top (t.leaf? base)).congr fun place leaf => ?_
  simp [LeafAt, hleads]

theorem leaves_leaf (base : List String) (name : String) :
    (UseTree.leaf name).leaves base = ((UseTree.leaf name).leaf? base).toList := by
  by_cases hself : name = "self"
  · subst hself
    simp [leaves, leaf?]
  · simp [leaves, leaf?, hself]

theorem leaves_rename (base : List String) (name label : String) :
    (UseTree.rename name label).leaves base = ((UseTree.rename name label).leaf? base).toList := by
  by_cases hlabel : label = "_"
  · subst hlabel
    simp [leaves, leaf?]
  · by_cases hself : name = "self"
    · subst hself
      simp [leaves, leaf?, hlabel]
    · simp [leaves, leaf?, hlabel, hself]

theorem lists_under {base : List String} {name : String} {rest : UseTree}
    (h : Lists (rest.LeafAt (base ++ [name])) (rest.leaves (base ++ [name]))) :
    Lists ((under name rest).LeafAt base) ((under name rest).leaves base) := by
  rw [leaves]
  refine h.congr fun place leaf => ?_
  constructor
  · rintro ⟨path, last, hleads, hleaf⟩
    refine ⟨name :: path, last, .under name hleads, ?_⟩
    rw [← hleaf, List.append_assoc, List.singleton_append]
  · rintro ⟨path, last, hleads, hleaf⟩
    cases hleads with
    | under _ hleads =>
      refine ⟨_, last, hleads, ?_⟩
      rw [← hleaf, List.append_assoc, List.singleton_append]

theorem lists_group {base : List String} {trees : List UseTree}
    (h : ∀ t ∈ trees, Lists (t.LeafAt base) (t.leaves base)) :
    Lists ((group trees).LeafAt base) ((group trees).leaves base) := by
  rw [leaves, leavesAll_eq]
  refine (Lists.flatMap h).congr fun place leaf => ?_
  constructor
  · rintro ⟨i, t, turns, ht, rfl, path, last, hleads, hleaf⟩
    exact ⟨path, last, .group ht hleads, hleaf⟩
  · rintro ⟨path, last, hleads, hleaf⟩
    cases hleads with
    | group ht hleads => exact ⟨_, _, _, ht, rfl, path, last, hleads, hleaf⟩

mutual

/-- The leaves of a tree are listed in the order of their places. -/
theorem lists_leaves (base : List String) : (t : UseTree) → Lists (t.LeafAt base) (t.leaves base)
  | .under name rest => lists_under (lists_leaves (base ++ [name]) rest)
  | .leaf name => by
    refine lists_end (fun turns path last => ⟨?_, ?_⟩) (leaves_leaf base name)
    · rintro ⟨⟩
      exact ⟨rfl, rfl, rfl⟩
    · rintro ⟨rfl, rfl, rfl⟩
      exact .leaf name
  | .rename name label => by
    refine lists_end (fun turns path last => ⟨?_, ?_⟩) (leaves_rename base name label)
    · rintro ⟨⟩
      exact ⟨rfl, rfl, rfl⟩
    · rintro ⟨rfl, rfl, rfl⟩
      exact .rename name label
  | .all => by
    refine lists_end (fun turns path last => ⟨?_, ?_⟩) (by simp [leaves, leaf?])
    · rintro ⟨⟩
      exact ⟨rfl, rfl, rfl⟩
    · rintro ⟨rfl, rfl, rfl⟩
      exact .all
  | .group trees => lists_group (lists_leavesAll base trees)

theorem lists_leavesAll (base : List String) :
    (trees : List UseTree) → ∀ t ∈ trees, Lists (t.LeafAt base) (t.leaves base)
  | [] => List.forall_mem_nil _
  | t :: rest => List.forall_mem_cons.2 ⟨lists_leaves base t, lists_leavesAll base rest⟩

end

end UseTree

/-! ## The leaves of a module -/

/-- The label that a leaf gives a meaning to. -/
def UseLeaf.label? : UseLeaf → Option String
  | .name label _ => some label
  | .all _ => none

/-- The full path of a leaf. -/
def UseLeaf.path : UseLeaf → List String
  | .name _ path => path
  | .all path => path

/-- The path that a leaf brings in everything from. -/
def UseLeaf.glob? : UseLeaf → Option (List String)
  | .name _ _ => none
  | .all path => some path

theorem UseLeaf.glob?_eq_some_iff {leaf : UseLeaf} {path : List String} :
    leaf.glob? = some path ↔ leaf = .all path := by
  cases leaf <;> simp [UseLeaf.glob?]

@[simp] theorem UseLeaf.label?_name (label : String) (path : List String) :
    (UseLeaf.name label path).label? = some label := rfl

@[simp] theorem UseLeaf.label?_all (path : List String) : (UseLeaf.all path).label? = none := rfl

namespace Item

open UseLeaf (Lists)

variable {items : List Item} {label : String} {path : List String}

theorem useLeaves_eq (items : List Item) :
    useLeaves items = items.flatMap fun item => useLeaves [item] := by
  simp [useLeaves]

theorem lists_useLeaves_one (item : Item) : Lists
    (fun turns leaf => ∃ tree attrs, item = .uses tree attrs ∧ tree.LeafAt [] turns leaf)
    (useLeaves [item]) := by
  cases item with
  | uses tree attrs =>
    have hone : useLeaves [.uses tree attrs] = tree.leaves [] := by simp [useLeaves]
    rw [hone]
    refine (UseTree.lists_leaves [] tree).congr fun turns leaf => ⟨?_, ?_⟩
    · exact fun h => ⟨tree, attrs, rfl, h⟩
    · rintro ⟨_, _, ⟨⟩, h⟩
      exact h
  | _ => exact Lists.none (by simp)

/-- **The leaves of a module are listed in the order of the text.** -/
theorem lists_useLeaves (items : List Item) : Lists (LeafAt items) (useLeaves items) := by
  rw [useLeaves_eq]
  refine (Lists.flatMap fun item _ => lists_useLeaves_one item).congr fun place leaf => ?_
  constructor
  · rintro ⟨i, _, turns, hi, rfl, tree, attrs, rfl, h⟩
    exact ⟨i, tree, attrs, turns, hi, rfl, h⟩
  · rintro ⟨i, tree, attrs, turns, hi, rfl, h⟩
    exact ⟨i, _, turns, hi, rfl, tree, attrs, rfl, h⟩

theorem exists_leafAt_iff {leaf : UseLeaf} :
    (∃ place, LeafAt items place leaf) ↔ leaf ∈ useLeaves items := by
  obtain ⟨located, hmap, -, hmem⟩ := lists_useLeaves items
  rw [← hmap, List.mem_map]
  constructor
  · rintro ⟨place, h⟩
    exact ⟨(place, leaf), (hmem _ _).2 h, rfl⟩
  · rintro ⟨⟨place, _⟩, h, rfl⟩
    exact ⟨place, (hmem _ _).1 h⟩

/-- The last leaf with a label is the first from the end. -/
theorem lastBinds_iff :
    LastBinds items label path ↔
      (useLeaves items).reverse.find? (·.label? == some label) = some (.name label path) := by
  obtain ⟨located, hmap, hsorted, hmem⟩ := lists_useLeaves items
  rw [← hmap, ← List.map_reverse, List.find?_map, Option.map_eq_some_iff]
  constructor
  · rintro ⟨place, hleaf, hlast⟩
    obtain ⟨before, after, hsplit⟩ := List.append_of_mem ((hmem _ _).2 hleaf)
    rw [hsplit] at hsorted hmem
    have hnone : after.reverse.find? ((·.label? == some label) ∘ Prod.snd) = none := by
      refine List.find?_eq_none.2 fun x hx hlabel => ?_
      obtain ⟨later, leaf⟩ := x
      have hafter : (later, leaf) ∈ after := List.mem_reverse.1 hx
      have hlt : place < later :=
        List.rel_of_pairwise_cons (List.pairwise_append.1 hsorted).2.1 hafter
      cases leaf with
      | all _ => simp at hlabel
      | name other target =>
        obtain rfl : other = label := by simpa using hlabel
        exact hlast later target hlt ((hmem _ _).1 (by simp [hafter]))
    have hself : ((·.label? == some label) ∘ Prod.snd) (place, UseLeaf.name label path) = true := by
      simp
    refine ⟨(place, .name label path), ?_, rfl⟩
    rw [hsplit, List.reverse_append, List.reverse_cons, List.append_assoc, List.singleton_append,
      List.find?_append, hnone, List.find?_cons_of_pos hself]
    rfl
  · rintro ⟨⟨place, _⟩, hfind, rfl⟩
    obtain ⟨-, after, before, hsplit, hafter⟩ := List.find?_eq_some_iff_append.1 hfind
    rw [List.reverse_eq_append_iff, List.reverse_cons, List.append_assoc,
      List.singleton_append] at hsplit
    rw [hsplit] at hsorted hmem
    refine ⟨place, (hmem _ _).1 (by simp), fun later other hlt hleaf => ?_⟩
    -- A leaf at a later place is listed after this one, where none has the label.
    rcases List.mem_append.1 ((hmem _ _).2 hleaf) with hbefore | hrest
    · have hearlier : later < place :=
        (List.pairwise_append.1 hsorted).2.2 _ hbefore _ List.mem_cons_self
      exact List.lt_asymm hlt hearlier
    · rcases List.mem_cons.1 hrest with heq | hin
      · obtain ⟨rfl, -⟩ := Prod.mk.inj heq
        exact List.lt_irrefl _ hlt
      · have hlabel := hafter _ (List.mem_reverse.1 hin)
        simp at hlabel

end Item

/-! ## Imports -/

/-- The names with a meaning of their own at the start of a path. -/
def pathKeywords : List String :=
  ["crate", "self", "super", "Self"]

theorem Imports.lookup_filter_ne (imports : Imports) {label other : String} (h : other ≠ label) :
    (imports.filter fun x => x.1 != label).lookup other = imports.lookup other := by
  induction imports with
  | nil => rfl
  | cons x rest ih =>
    obtain ⟨first, target⟩ := x
    by_cases hfirst : first = label
    · subst hfirst
      simpa [List.lookup_cons, beq_false_of_ne h] using ih
    · simp [hfirst, List.lookup_cons, ih]

theorem Imports.lookup_insert (imports : Imports) (label other : String) (path : List String) :
    (imports.insert label path).lookup other =
      if other = label then some path else imports.lookup other := by
  by_cases hother : other = label
  · simp [Imports.insert, hother]
  · rw [if_neg hother, ← imports.lookup_filter_ne hother]
    simp [Imports.insert, List.lookup_cons, beq_false_of_ne hother]

namespace Scope

variable {s : Scope} {items : List Item} {home : List String} {label : String}
  {path rest : List String}

/-- The last leaf with a label decides what it stands for. -/
theorem lookup_imports_ofModule (home : List String) (items : List Item) (label : String) :
    (ofModule home items).imports.lookup label =
      ((Item.useLeaves items).reverse.find? (·.label? == some label)).map fun leaf =>
        absolutePath home leaf.path := by
  unfold ofModule
  dsimp only
  induction Item.useLeaves items using List.reverseRecOn with
  | nil => rfl
  | append_singleton leaves leaf ih =>
    rw [List.foldl_append, List.foldl_cons, List.foldl_nil, List.reverse_concat, List.find?_cons]
    cases leaf with
    | all path => simpa using ih
    | name other path =>
      dsimp only
      rw [Imports.lookup_insert, ih]
      by_cases hlabel : label = other
      · simp [UseLeaf.path, hlabel]
      · have hother : (some other == some label) = false := by simpa using Ne.symm hlabel
        rw [if_neg hlabel, UseLeaf.label?_name, hother]

theorem lookup_of_lastBinds (h : Item.LastBinds items label path) :
    (ofModule home items).imports.lookup label = some (absolutePath home path) := by
  rw [lookup_imports_ofModule, Item.lastBinds_iff.1 h]
  rfl

theorem exists_lookup_iff :
    (∃ target, (ofModule home items).imports.lookup label = some target) ↔
      ∃ place path, Item.LeafAt items place (.name label path) := by
  rw [lookup_imports_ofModule]
  constructor
  · rintro ⟨target, htarget⟩
    obtain ⟨leaf, hleaf, -⟩ := Option.map_eq_some_iff.1 htarget
    have hmem := List.mem_reverse.1 (List.mem_of_find?_eq_some hleaf)
    obtain ⟨place, hplace⟩ := Item.exists_leafAt_iff.2 hmem
    have hlabel := List.find?_some hleaf
    cases leaf with
    | all path => simp at hlabel
    | name other path =>
      obtain rfl : other = label := by simpa using hlabel
      exact ⟨place, path, hplace⟩
  · rintro ⟨place, path, hleaf⟩
    have hmem := Item.exists_leafAt_iff.1 ⟨place, hleaf⟩
    have hfound : ((Item.useLeaves items).reverse.find? (·.label? == some label)).isSome :=
      List.find?_isSome.2 ⟨_, List.mem_reverse.2 hmem, by simp⟩
    obtain ⟨leaf, hfind⟩ := Option.isSome_iff_exists.1 hfound
    exact ⟨_, by rw [hfind]; rfl⟩

/-- The globs of a module are those of its leaves, in the order of the text. -/
theorem exists_globs_eq (home : List String) (items : List Item) :
    ∃ globs : List (List Nat × List String), globs.Pairwise (fun x y => x.1 < y.1) ∧
      (∀ place path, (place, path) ∈ globs ↔ Item.LeafAt items place (.all path)) ∧
      (ofModule home items).globs = globs.map fun x => absolutePath home x.2 := by
  obtain ⟨located, hmap, hsorted, hmem⟩ := Item.lists_useLeaves items
  refine ⟨located.filterMap fun x => x.2.glob?.map fun path => (x.1, path), ?_, ?_, ?_⟩
  · refine List.pairwise_filterMap.2 (hsorted.imp fun hlt x hx y hy => ?_)
    obtain ⟨_, -, rfl⟩ := Option.map_eq_some_iff.1 hx
    obtain ⟨_, -, rfl⟩ := Option.map_eq_some_iff.1 hy
    exact hlt
  · intro place path
    rw [← hmem]
    simp only [List.mem_filterMap, Option.map_eq_some_iff, Prod.mk.injEq, Prod.exists]
    constructor
    · rintro ⟨_, leaf, hx, _, hglob, rfl, rfl⟩
      rwa [← UseLeaf.glob?_eq_some_iff.1 hglob]
    · intro hx
      exact ⟨place, .all path, hx, path, rfl, rfl, rfl⟩
  · show (Item.useLeaves items).filterMap _ = _
    rw [← hmap, List.filterMap_map, List.map_filterMap]
    congr 1
    funext x
    obtain ⟨place, leaf⟩ := x
    cases leaf <;> rfl

/-! ## Candidates of imported paths -/

theorem candidates_of_notMem (h : label ∉ pathKeywords) :
    s.candidates (label :: rest) =
      ((s.imports.lookup label).toList.map (· ++ rest) ++ [s.home ++ label :: rest] ++
        s.globs.map (· ++ label :: rest) ++ [label :: rest]).eraseDups := by
  unfold candidates
  dsimp only
  split
  case h_5 => rfl
  all_goals simp [pathKeywords] at h

/-- A path with an ordinary first name is taken from the crate root. -/
theorem absolutePath_of_notMem {first : String} (h : first ∉ pathKeywords) :
    absolutePath home (first :: rest) = first :: rest := by
  unfold absolutePath
  split
  case h_4 => rfl
  all_goals simp_all [pathKeywords]

/-- What a label stands for comes first. -/
theorem head?_candidates_of_lookup {target : List String} (h : label ∉ pathKeywords)
    (htarget : s.imports.lookup label = some target) (rest : List String) :
    (s.candidates (label :: rest)).head? = some (target ++ rest) := by
  rw [candidates_of_notMem h, htarget, Option.toList_some, List.map_singleton, List.append_assoc,
    List.append_assoc, List.singleton_append, List.eraseDups_cons]
  rfl

/-- A path that is led by `crate`, `self` or `super` means one thing. -/
theorem candidates_led {first : String} (hhead : path.head? = some first)
    (hfirst : first ∈ ["crate", "self", "super"]) (hrest : rest.head? ≠ some "super") :
    s.candidates (path ++ rest) = [absolutePath s.home path ++ rest] := by
  have hne : path ≠ [] := by
    rintro rfl
    cases hhead
  have hone : s.candidates path = [absolutePath s.home path] := by
    cases path with
    | nil => cases hhead
    | cons name below =>
      obtain rfl : name = first := Option.some.inj hhead
      simp only [List.mem_cons, List.not_mem_nil, or_false] at hfirst
      rcases hfirst with rfl | rfl | rfl <;> rfl
  rw [s.candidates_append hne fun _ => hrest, hone, List.map_singleton]

/-- **Imports are transparent.** In a module, the last leaf with a label decides what the label
stands for, every label of a leaf stands for something and no other does, and the globs are those of
the leaves in the order of the text. If the full path of the leaf is led by `crate`, `self` or
`super`, the label means first what the path means when it is written out, whatever follows. -/
theorem ofModule_transparent (home : List String) (items : List Item) :
    let here := ofModule home items
    (∀ label path, Item.LastBinds items label path →
      here.imports.lookup label = some (absolutePath home path)) ∧
    (∀ label, (∃ target, here.imports.lookup label = some target) ↔
      ∃ place path, Item.LeafAt items place (.name label path)) ∧
    (∃ globs : List (List Nat × List String), globs.Pairwise (fun x y => x.1 < y.1) ∧
      (∀ place path, (place, path) ∈ globs ↔ Item.LeafAt items place (.all path)) ∧
      here.globs = globs.map fun x => absolutePath home x.2) ∧
    ∀ label path, Item.LastBinds items label path → label ∉ pathKeywords →
      ∀ first ∈ ["crate", "self", "super"], path.head? = some first →
      ∀ rest : List String, rest.head? ≠ some "super" →
      ∀ s : Scope, s.home = home → s.imports = here.imports →
        ∃ meant, (s.candidates (label :: rest)).head? = some meant ∧
          s.candidates (path ++ rest) = [meant] := by
  intro here
  refine ⟨fun label path h => lookup_of_lastBinds h, fun label => exists_lookup_iff,
    exists_globs_eq home items, ?_⟩
  intro label path hlast hlabel first hfirst hhead rest hrest s hhome himports
  have htarget : s.imports.lookup label = some (absolutePath s.home path) := by
    rw [himports, hhome]
    exact lookup_of_lastBinds hlast
  exact ⟨_, head?_candidates_of_lookup hlabel htarget rest, candidates_led hhead hfirst hrest⟩

/-- In the module `a::b`, the label `d` comes from a group in a group, after it stood for something
else. -/
theorem ofModule_transparent_regrouped :
    let items : List Item := [
      .uses (.under "crate" (.group [.rename "c" "d", .under "e" .all])) [],
      .uses (.under "super" (.under "super" (.under "f" (.group [.leaf "self",
        .under "g" (.group [.rename "self" "d", .all])])))) []]
    let here := ofModule ["a", "b"] items
    Item.LastBinds items "d" ["super", "super", "f", "g"] ∧
      here.imports.lookup "d" = some ["f", "g"] ∧
      (here.candidates ["d", "h"]).head? = some ["f", "g", "h"] ∧
      here.candidates ["super", "super", "f", "g", "h"] = [["f", "g", "h"]] ∧
      here.globs = [["e"], ["f", "g"]] := by
  intro items here
  have hlast : Item.LastBinds items "d" ["super", "super", "f", "g"] :=
    Item.lastBinds_iff.2 (by decide)
  obtain ⟨hlookup, -, -, hmeant⟩ := ofModule_transparent ["a", "b"] items
  obtain ⟨meant, hfirst, honly⟩ := hmeant "d" _ hlast (by decide) "super" (by decide) rfl ["h"]
    (by decide) here rfl rfl
  obtain rfl : ["f", "g", "h"] = meant := List.singleton_inj.1 honly
  exact ⟨hlast, hlookup "d" _ hlast, hfirst, honly, rfl⟩

end Scope

end Calligraph
