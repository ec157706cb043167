import Mathlib.Data.List.Basic
import Calligraph.Proofs.Sketch.Telling

/-!
# Names that are looked up and bound

A piece of syntax looks names up among those that are bound around it, and binds names for what
follows it in the block. `Footprint` lists both without a draft.
-/

namespace Calligraph

variable {α β : Type}

/-! ## Patterns -/

mutual

/-- The names of a pattern, in the order that they are bound. -/
def Pat.names : Pat → List String
  | .name n none => [n]
  | .name n (some sub) => sub.names ++ [n]
  | .typed pat _ => pat.names
  | .inner pat => pat.names
  | .parts pats => Pat.namesAll pats
  | .blank => []

def Pat.namesAll : List Pat → List String
  | [] => []
  | p :: rest => p.names ++ Pat.namesAll rest

end

mutual

/-- A pattern adds its names to a frame, whatever the frame holds. -/
theorem Pat.exists_bind (place : Place) : (p : Pat) → (hint : TypeHint) →
    ∃ new : Frame, new.map Prod.fst = p.names.reverse ∧
      ∀ frame, p.bind place hint frame = new ++ frame
  | .name n none, hint => ⟨[(n, hint)], rfl, fun _ => by rw [Pat.bind]; rfl⟩
  | .name n (some sub), hint => by
    obtain ⟨new, hnames, hbind⟩ := exists_bind place sub .unknown
    refine ⟨(n, hint) :: new, ?_, fun frame => ?_⟩
    · rw [List.map_cons, hnames, Pat.names, List.reverse_append]
      rfl
    · rw [Pat.bind, hbind]
      rfl
  | .typed pat ty, _ => by
    simp only [Pat.bind, Pat.names]
    exact exists_bind place pat (ty.hint place)
  | .inner pat, hint => by
    simp only [Pat.bind, Pat.names]
    exact exists_bind place pat hint
  | .parts pats, _ => by
    simp only [Pat.bind, Pat.names]
    exact exists_bindAll place pats
  | .blank, _ => ⟨[], rfl, fun _ => by rw [Pat.bind]; rfl⟩

theorem Pat.exists_bindAll (place : Place) : (ps : List Pat) →
    ∃ new : Frame, new.map Prod.fst = (Pat.namesAll ps).reverse ∧
      ∀ frame, Pat.bindAll place frame ps = new ++ frame
  | [] => ⟨[], rfl, fun _ => by rw [Pat.bindAll]; rfl⟩
  | p :: rest => by
    obtain ⟨new, hnames, hbind⟩ := exists_bind place p .unknown
    obtain ⟨new', hnames', hbind'⟩ := exists_bindAll place rest
    refine ⟨new' ++ new, ?_, fun frame => ?_⟩
    · rw [List.map_append, hnames, hnames', Pat.namesAll, List.reverse_append]
    · rw [Pat.bindAll, hbind, hbind', List.append_assoc]

end

/-! ## Frames -/

namespace Frame

/-- The frames with names added to the innermost one. -/
def extend (new : Frame) : List Frame → List Frame
  | [] => []
  | frame :: outer => (new ++ frame) :: outer

@[simp] theorem extend_nil (frames : List Frame) : extend [] frames = frames := by
  cases frames <;> rfl

theorem extend_append (new new' : Frame) (frames : List Frame) :
    extend (new' ++ new) frames = extend new' (extend new frames) := by
  cases frames with
  | nil => rfl
  | cons frame outer => exact congrArg (· :: outer) (List.append_assoc new' new frame)

theorem extend_eq_nil {new : Frame} {frames : List Frame} :
    extend new frames = [] ↔ frames = [] := by
  cases frames <;> simp [extend]

theorem lookup_eq_none {frame : Frame} {n : String} :
    List.lookup n frame = none ↔ n ∉ frame.map Prod.fst := by
  rw [List.lookup_eq_none_iff, List.mem_map]
  constructor
  · rintro h ⟨x, hx, rfl⟩
    simpa using h x hx
  · intro h x hx
    simpa using fun hn => h ⟨x, hx, hn.symm⟩

theorem find?_extend {new : Frame} {frames : List Frame} (h : frames ≠ []) (n : String) :
    find? (extend new frames) n = (List.lookup n new).or (find? frames n) := by
  cases frames with
  | nil => exact absurd rfl h
  | cons frame outer =>
    simp only [find?, extend, List.findSome?_cons, List.lookup_append]
    cases List.lookup n new <;> rfl

/-- The stacks of frames agree on what the names stand for. -/
structure Agree (names : List String) (frames frames' : List Frame) : Prop where
  empty : frames = [] ↔ frames' = []
  find : ∀ n ∈ names, find? frames n = find? frames' n

theorem Agree.refl (names : List String) (frames : List Frame) : Agree names frames frames :=
  ⟨Iff.rfl, fun _ _ => rfl⟩

theorem Agree.mono {names names' : List String} {frames frames' : List Frame}
    (h : Agree names frames frames') (hsub : names' ⊆ names) : Agree names' frames frames' :=
  ⟨h.empty, fun n hn => h.find n (hsub hn)⟩

end Frame

/-! ## Footprints -/

/-- The names that a piece of syntax looks up around it, and the names that it binds in the block
around it, in order. -/
structure Footprint where
  free : List String
  bound : List String

namespace Footprint

def none : Footprint := ⟨[], []⟩

/-- Names that are looked up. -/
def looking (names : List String) : Footprint := ⟨names, []⟩

/-- Names that are bound. -/
def binding (names : List String) : Footprint := ⟨[], names⟩

/-- What is used in a block of its own: nothing that is bound there is bound around it. -/
def inside (u : Footprint) : Footprint := ⟨u.free, []⟩

/-- What is used by the one after the other: the second does not look outside for what the first
binds. -/
def append (u v : Footprint) : Footprint :=
  ⟨u.free ++ v.free.filter (· ∉ u.bound), u.bound ++ v.bound⟩

instance : Append Footprint := ⟨append⟩

theorem free_append (u v : Footprint) : (u ++ v).free = u.free ++ v.free.filter (· ∉ u.bound) :=
  rfl

theorem bound_append (u v : Footprint) : (u ++ v).bound = u.bound ++ v.bound :=
  rfl

@[simp] theorem none_append (u : Footprint) : none ++ u = u := by
  obtain ⟨free, bound⟩ := u
  show Footprint.mk _ _ = _
  simp [none]

@[simp] theorem append_none (u : Footprint) : u ++ none = u := by
  obtain ⟨free, bound⟩ := u
  show Footprint.mk _ _ = _
  simp [none]

theorem append_assoc (u v w : Footprint) : u ++ v ++ w = u ++ (v ++ w) := by
  show Footprint.mk _ _ = Footprint.mk _ _
  simp only [free_append, bound_append, List.append_assoc, List.filter_append, List.filter_filter,
    List.mem_append, not_or, Bool.decide_and]

end Footprint

/-- Names bound before make no difference to what is looked up behind them. -/
theorem Frame.Agree.extend {free bound : List String} {new : Frame}
    (hnew : new.map Prod.fst = bound.reverse) {frames frames' : List Frame}
    (h : Agree (free.filter (· ∉ bound)) frames frames') :
    Agree free (Frame.extend new frames) (Frame.extend new frames') := by
  refine ⟨by rw [extend_eq_nil, extend_eq_nil, h.empty], fun n hn => ?_⟩
  by_cases hempty : frames = []
  · rw [hempty, h.empty.1 hempty]
  · rw [find?_extend hempty, find?_extend (fun h' => hempty (h.empty.2 h'))]
    by_cases hb : n ∈ bound
    -- a name that has just been bound is found before either of the stacks is looked at
    · have hfound : List.lookup n new ≠ none := by
        rw [Ne, lookup_eq_none, hnew, not_not]
        exact List.mem_reverse.2 hb
      obtain ⟨hint, hhint⟩ := Option.ne_none_iff_exists'.1 hfound
      rw [hhint]
      rfl
    · rw [h.find n (by simp [hn, hb])]

/-! ## Names that are looked up -/

/-- The name that a path of one name is. -/
def bareName : List String → List String
  | [n] => [n]
  | _ => []

/-- The name that calling a path looks up. -/
def Path.called : Path → List String
  | .qualified (.path self) [] rest => bareName (self.names ++ rest.map Segment.name)
  | .qualified _ [] _ => []
  | path => bareName path.names

namespace Expr

/-- The name that calling an expression looks up. -/
def called : Expr → List String
  | .path p _ => p.called
  | .paren inner => inner.called
  | .attributed _ inner => inner.called
  | _ => []

/-- The name that the type of an expression is looked up by. -/
def asked : Expr → List String
  | .path (.plain _ segments) _ => bareName (segments.map Segment.name)
  | .call _ _ func _ => func.called
  | .method _ _ receiver _ _ => receiver.asked
  | .paren inner => inner.asked
  | .attributed _ inner => inner.asked
  | .borrow inner => inner.asked
  | _ => []

end Expr

theorem Path.target_congr (place : Place) {frames frames' : List Frame} {p : Path}
    (h : ∀ n ∈ p.called, Frame.find? frames n = Frame.find? frames' n) :
    p.target place frames = p.target place frames' := by
  have hbare {names : List String} {name : String} (hnames : some names = some [name]) :
      name ∈ bareName names := by
    rw [Option.some.inj hnames]
    exact List.mem_singleton_self name
  unfold Path.target
  dsimp only
  split
  · rfl
  · next name hname =>
    have hcalled : name ∈ p.called := by
      split at hname
      · exact hbare hname
      · cases hname
      · next hpath htype => rw [Path.called.eq_3 p hpath htype]; exact hbare hname
    rw [h name hcalled]
  · rfl

namespace Expr

theorem target_congr (place : Place) {frames frames' : List Frame} (e : Expr)
    (h : ∀ n ∈ e.called, Frame.find? frames n = Frame.find? frames' n) :
    e.target place frames = e.target place frames' := by
  induction e using target_induct with
  | path p held => exact Path.target_congr place h
  | paren inner ih => exact ih h
  | attributed attrs inner ih => exact ih h
  | other e he => rw [he, he]

theorem hint_congr (place : Place) {frames frames' : List Frame} (e : Expr)
    (h : ∀ n ∈ e.asked, Frame.find? frames n = Frame.find? frames' n) :
    e.hint place frames = e.hint place frames' := by
  induction e using hint_induct with
  | path rooted segments held =>
    simp only [hint, asked] at h ⊢
    split
    · next name hname =>
      rw [hname] at h
      rw [h name (List.mem_singleton_self name)]
    · rfl
  | call pos attrs func args =>
    simp only [hint]
    rw [target_congr place func h]
  | method pos attrs receiver name args ih =>
    simp only [hint]
    rw [ih h]
  | construct p parts => rfl
  | paren inner ih => exact ih h
  | attributed attrs inner ih => exact ih h
  | borrow inner ih => exact ih h
  | cast inner ty held => rfl
  | other e he => rw [he, he]

end Expr

/-! ## Footprint of syntax -/

mutual

/-- The names that an expression looks up and binds. Blocks, conditions with what they decide,
loops, arms and closures bind their names in a block of their own. -/
def Expr.footprint : Expr → Footprint
  | .path _ held => Expr.footprintAll held
  | .call _ attrs func args =>
    .looking func.called ++ (Expr.footprintAll attrs ++ func.footprint ++ Expr.footprintAll args)
  | .method _ attrs receiver _ args =>
    .looking receiver.asked ++
      (Expr.footprintAll attrs ++ receiver.footprint ++ Expr.footprintAll args)
  | .construct _ parts => Expr.footprintAll parts
  | .paren inner => inner.footprint
  | .borrow inner => inner.footprint
  | .cast inner _ held => inner.footprint ++ Expr.footprintAll held
  | .binary left right => left.footprint ++ right.footprint
  | .compound parts => Expr.footprintAll parts
  | .silent => .none
  | .block body => (Stmt.footprintAll body).inside
  | .letIn pat inner => inner.footprint ++ .binding pat.names
  | .branch cond body otherwise =>
    (cond.footprint ++ (Stmt.footprintAll body).inside).inside ++ Expr.footprintOption otherwise
  | .whileLoop cond body => (cond.footprint ++ (Stmt.footprintAll body).inside).inside
  | .forLoop pat subject body =>
    subject.footprint ++ (.binding pat.names ++ (Stmt.footprintAll body).inside).inside
  | .select subject arms => subject.footprint ++ Arm.footprintAll arms
  | .closure params body => (.binding (Pat.namesAll params) ++ body.footprint).inside
  | .attributed attrs inner => Expr.footprintAll attrs ++ inner.footprint

def Expr.footprintAll : List Expr → Footprint
  | [] => .none
  | e :: rest => e.footprint ++ Expr.footprintAll rest

def Expr.footprintOption : Option Expr → Footprint
  | none => .none
  | some e => e.footprint

def Arm.footprintAll : List Arm → Footprint
  | [] => .none
  | .mk pat before body :: rest =>
    (.binding pat.names ++ (Expr.footprintAll before ++ body.footprint)).inside ++
      Arm.footprintAll rest

/-- The names that a statement looks up and binds. The type of an initial value is asked for
behind it. -/
def Stmt.footprint : Stmt → Footprint
  | .bind pat init otherwise =>
    Expr.footprintOption init ++ Expr.footprintOption otherwise ++
      (.looking ((init.map Expr.asked).getD []) ++ .binding pat.names)
  | .item item => item.footprint
  | .expr e => e.footprint

def Stmt.footprintAll : List Stmt → Footprint
  | [] => .none
  | s :: rest => s.footprint ++ Stmt.footprintAll rest

/-- The names that members use. A routine uses none: its body sees its own names only. -/
def Member.footprintAll : List Member → Footprint
  | [] => .none
  | .function _ _ :: rest => Member.footprintAll rest
  | .constant value :: rest => value.footprint ++ Member.footprintAll rest

def Item.footprint : Item → Footprint
  | .function _ _ => .none
  | .implBlock _ _ _ members => Member.footprintAll members
  | .traitDef _ _ members => Member.footprintAll members
  | .module _ _ items => Item.footprintAll items
  | .record _ => .none
  | .enumeration _ parts => Expr.footprintAll parts
  | .uses _ attrs => Expr.footprintAll attrs
  | .other parts => Expr.footprintAll parts

def Item.footprintAll : List Item → Footprint
  | [] => .none
  | i :: rest => i.footprint ++ Item.footprintAll rest

end

end Calligraph
