import Calligraph.Proofs.Sketch.Uses

/-!
# Items among statements

An item may stand among the statements of a body, where names are bound around it. The bodies of its
routines do not see these names. The expressions that the item holds outside of them do: the value
of a constant calls whatever the names around it stand for.
-/

namespace Calligraph

/-- The expressions of a member outside of a body. -/
def Member.loose : Member → List Expr
  | .function _ _ => []
  | .constant value => [value]

mutual

/-- The expressions of an item outside of the bodies of its routines: the values of constants and of
variants, and those in attributes. -/
def Item.loose : Item → List Expr
  | .function _ _ => []
  | .implBlock _ _ _ members => members.flatMap Member.loose
  | .traitDef _ _ members => members.flatMap Member.loose
  | .module _ _ items => Item.looseAll items
  | .record _ => []
  | .enumeration _ parts => parts
  | .uses _ attrs => attrs
  | .other parts => parts

def Item.looseAll : List Item → List Expr
  | [] => []
  | i :: rest => i.loose ++ Item.looseAll rest

end

theorem Expr.footprintAll_append (es es' : List Expr) :
    Expr.footprintAll (es ++ es') = Expr.footprintAll es ++ Expr.footprintAll es' := by
  induction es with
  | nil => simp only [List.nil_append, Expr.footprintAll, Footprint.none_append]
  | cons e rest ih => simp only [List.cons_append, Expr.footprintAll, ih, Footprint.append_assoc]

theorem Member.footprintAll_eq (ms : List Member) :
    Member.footprintAll ms = Expr.footprintAll (ms.flatMap Member.loose) := by
  induction ms with
  | nil => simp only [Member.footprintAll, List.flatMap_nil, Expr.footprintAll]
  | cons member rest ih =>
    rw [List.flatMap_cons, Expr.footprintAll_append, ← ih]
    cases member with
    | function sig body =>
      simp only [Member.footprintAll, Member.loose, Expr.footprintAll, Footprint.none_append]
    | constant value =>
      simp only [Member.footprintAll, Member.loose, Expr.footprintAll, Footprint.append_none]

mutual

/-- An item uses the names that its loose expressions use. -/
theorem Item.footprint_eq : (i : Item) → i.footprint = Expr.footprintAll i.loose
  | .function _ _ => by simp only [Item.footprint, Item.loose, Expr.footprintAll]
  | .implBlock _ _ _ ms => by simp only [Item.footprint, Item.loose, Member.footprintAll_eq]
  | .traitDef _ _ ms => by simp only [Item.footprint, Item.loose, Member.footprintAll_eq]
  | .module _ _ is => by simp only [Item.footprint, Item.loose, Item.footprintAll_eq is]
  | .record _ => by simp only [Item.footprint, Item.loose, Expr.footprintAll]
  | .enumeration _ _ => by simp only [Item.footprint, Item.loose]
  | .uses _ _ => by simp only [Item.footprint, Item.loose]
  | .other _ => by simp only [Item.footprint, Item.loose]

theorem Item.footprintAll_eq : (is : List Item) →
    Item.footprintAll is = Expr.footprintAll (Item.looseAll is)
  | [] => by simp only [Item.footprintAll, Item.looseAll, Expr.footprintAll]
  | i :: rest => by
    simp only [Item.footprintAll, Item.looseAll, Expr.footprintAll_append, Item.footprint_eq i,
      Item.footprintAll_eq rest]

end

/-- **An item sees the names around it through its loose expressions only.** Inside of a body,
drafting the item gives the same nodes and the same declarations whatever is bound around it, if the
names that its loose expressions look up outside of themselves stand for the same. An item that is
all routines and types is closed. -/
theorem Item.draft_congr_locals (ctx : Context) (item : Item) (d : Draft) (locals : List Frame)
    (hd : d.locals ≠ []) (hlocals : locals ≠ [])
    (h : ∀ n ∈ (Expr.footprintAll item.loose).free, Frame.find? d.locals n = Frame.find? locals n) :
    ((item.draft ctx).run { d with locals }).1 = ((item.draft ctx).run d).1 ∧
      ((item.draft ctx).run { d with locals }).2.toDeclarations =
        ((item.draft ctx).run d).2.toDeclarations := by
  rw [← item.footprint_eq] at h
  have hagree : Frame.Agree item.footprint.free d.locals locals :=
    ⟨iff_of_false hd hlocals, h⟩
  have huses : Drafting.Uses item.footprint (item.draft ctx) := item.pass_accounts.draft_uses ctx
  obtain ⟨new, -, -, hrun⟩ := huses d locals hagree
  rw [hrun]
  exact ⟨rfl, rfl⟩

/-- The call of a name without arguments. -/
def callOf (name : String) : Expr :=
  .call ⟨1, 0⟩ [] (.path (.ofName name) []) []

/-- A constant whose value binds `h` and calls it does not care for another `h` around it. -/
theorem Item.draft_congr_locals_shadowed :
    ((Item.draft { scope := {} } (.other [.block [.bind (.name "h" none) none none,
        .expr (callOf "h"), .expr (callOf "g")]])).run { locals := [[("x", .unknown)]] }).1 =
      ((Item.draft { scope := {} } (.other [.block [.bind (.name "h" none) none none,
        .expr (callOf "h"), .expr (callOf "g")]])).run { locals := [[("h", .unknown)]] }).1 :=
  (Item.draft_congr_locals _ _ { locals := [[("h", .unknown)]] } [[("x", .unknown)]]
    (by simp) (by simp) (by decide)).1

/-- A constant that calls `g` is not closed: a `g` bound around it is taken for what it calls. -/
theorem Item.draft_constant_captures : ¬ ∀ (ctx : Context) (item : Item) (d : Draft)
    (locals : List Frame), d.locals ≠ [] → locals ≠ [] →
      ((item.draft ctx).run { d with locals }).1 = ((item.draft ctx).run d).1 := by
  intro h
  have hnodes : callNode ⟨1, 0⟩ (.path ["g"] 0) [] = callNode ⟨1, 0⟩ .dynamic [] :=
    h { scope := {} } (.other [callOf "g"]) { locals := [[("g", .unknown)]] } [[]]
      (by simp) (by simp)
  simp [callNode] at hnodes

end Calligraph
