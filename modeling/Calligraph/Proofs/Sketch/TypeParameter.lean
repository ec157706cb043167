import Calligraph.Proofs.Sketch.Footprint

/-!
# Type parameters and their bounds

The bounds of a type parameter may stand in the list of parameters and in any number of predicates
of the `where` clause. What is known of the parameter is the first trait among all of them, wherever
it stands (`Generics.lookup_frame`). A type that is the parameter behind references and pointers
tells the same (`Ty.Wraps.hint_eq`).
-/

namespace Calligraph

/-! ## Bounds -/

/-- The trait that a bound asks for; a question mark asks for nothing. -/
def Bound.trait? : Bound → Option Path
  | .trait false _ path => some path
  | _ => none

namespace Place

variable (place : Place)

theorem boundHint_eq (bounds : List Bound) : place.boundHint bounds =
    ((bounds.findSome? Bound.trait?).map fun path => .named path.names place.scope).getD
      .unknown := by
  unfold boundHint
  rw [List.map_findSome?]
  congr 2
  funext bound
  match bound with
  | .trait false .. => rfl
  | .trait true .. => rfl
  | .lifetime _ => rfl
  | .capture _ => rfl
  | .silent => rfl

/-- Nothing is known if no trait is asked for. -/
theorem boundHint_eq_unknown {bounds : List Bound} :
    place.boundHint bounds = .unknown ↔ ∀ b ∈ bounds, b.trait? = none := by
  rw [boundHint_eq, ← List.findSome?_eq_none_iff]
  cases bounds.findSome? Bound.trait? <;> simp

/-- The first trait that is asked for counts. -/
theorem boundHint_of_first {before after : List Bound} (h : ∀ b ∈ before, b.trait? = none)
    (binder : List String) (path : Path) :
    place.boundHint (before ++ .trait false binder path :: after) =
      .named path.names place.scope := by
  rw [boundHint_eq, List.findSome?_append, List.findSome?_eq_none_iff.2 h]
  rfl

/-- Further bounds count if the bounds before them tell nothing. -/
theorem boundHint_append (bounds more : List Bound) : place.boundHint (bounds ++ more) =
    if place.boundHint bounds = .unknown then place.boundHint more else place.boundHint bounds := by
  rw [boundHint_eq, boundHint_eq, boundHint_eq, List.findSome?_append]
  cases bounds.findSome? Bound.trait? <;> simp

end Place

/-! ## Predicates -/

/-- The name that a type is. -/
def Ty.ident? : Ty → Option String
  | .path p => p.ident?
  | _ => none

theorem Ty.ident?_eq_some_iff {ty : Ty} {n : String} :
    ty.ident? = some n ↔ ty = .path (.ofName n) := by
  constructor
  · intro h
    match ty, h with
    | .path (.plain false [.plain _]), rfl => rfl
  · rintro rfl
    rfl

/-- The bounds that predicates put on the name `n`, in the order of the text. -/
def boundsOn (n : String) (predicates : List (Ty × List Bound)) : List Bound :=
  (predicates.filter (·.1.ident? = some n)).flatMap Prod.snd

theorem boundsOn_cons_of_eq {n : String} {predicate : Ty × List Bound}
    (h : predicate.1.ident? = some n) (rest : List (Ty × List Bound)) :
    boundsOn n (predicate :: rest) = predicate.2 ++ boundsOn n rest := by
  unfold boundsOn
  rw [List.filter_cons_of_pos (by simpa using h), List.flatMap_cons]

theorem boundsOn_cons_of_ne {n : String} {predicate : Ty × List Bound}
    (h : predicate.1.ident? ≠ some n) (rest : List (Ty × List Bound)) :
    boundsOn n (predicate :: rest) = boundsOn n rest := by
  unfold boundsOn
  rw [List.filter_cons_of_neg (by simpa using h)]

namespace Frame

/-- Steps that leave alone what is known of a name. -/
theorem lookup_foldl {α : Type} {step : Frame → α → Frame} {xs : List α} {n : String}
    (h : ∀ x ∈ xs, ∀ frame, (step frame x).lookup n = frame.lookup n) (frame : Frame) :
    (xs.foldl step frame).lookup n = frame.lookup n := by
  induction xs generalizing frame with
  | nil => rfl
  | cons x rest ih =>
    obtain ⟨hx, hrest⟩ := List.forall_mem_cons.1 h
    rw [List.foldl_cons, ih hrest, hx]

/-- The frame with what a predicate tells of its name, unless something is known of it already. -/
def narrow (place : Place) (frame : Frame) (predicate : Ty × List Bound) : Frame :=
  match predicate.1.ident? with
  | none => frame
  | some n =>
    if (frame.lookup n).getD .unknown = .unknown then (n, place.boundHint predicate.2) :: frame
    else frame

variable {place : Place} {frame : Frame} {n : String} {predicate : Ty × List Bound}

theorem lookup_narrow_of_ne (h : predicate.1.ident? ≠ some n) :
    (narrow place frame predicate).lookup n = frame.lookup n := by
  unfold narrow
  split
  · rfl
  · next m hm =>
    split
    · have hne : (n == m) = false := beq_false_of_ne fun hn => h (hn ▸ hm)
      rw [List.lookup_cons, hne]
    · rfl

theorem lookup_narrow_of_none (h : predicate.1.ident? = some n) (hn : frame.lookup n = none) :
    (narrow place frame predicate).lookup n = some (place.boundHint predicate.2) := by
  unfold narrow
  rw [h]
  simp [hn]

/-- A predicate goes on with the bounds of its name. -/
theorem lookup_narrow_of_some {bounds : List Bound} (h : predicate.1.ident? = some n)
    (hn : frame.lookup n = some (place.boundHint bounds)) :
    (narrow place frame predicate).lookup n =
      some (place.boundHint (bounds ++ predicate.2)) := by
  unfold narrow
  rw [h, Place.boundHint_append]
  dsimp only
  rw [hn, Option.getD_some]
  split
  · simp
  · exact hn

/-- The predicates go on with the bounds that are known. -/
theorem lookup_foldl_narrow_of_some (predicates : List (Ty × List Bound)) {frame : Frame}
    {bounds : List Bound} (hn : frame.lookup n = some (place.boundHint bounds)) :
    (predicates.foldl (narrow place) frame).lookup n =
      some (place.boundHint (bounds ++ boundsOn n predicates)) := by
  induction predicates generalizing frame bounds with
  | nil => simpa [boundsOn] using hn
  | cons predicate rest ih =>
    rw [List.foldl_cons]
    by_cases h : predicate.1.ident? = some n
    · rw [ih (lookup_narrow_of_some h hn), boundsOn_cons_of_eq h, List.append_assoc]
    · rw [ih ((lookup_narrow_of_ne h).trans hn), boundsOn_cons_of_ne h]

theorem lookup_foldl_narrow_of_notMem {predicates : List (Ty × List Bound)}
    (h : ∀ p ∈ predicates, p.1.ident? ≠ some n) (frame : Frame) :
    (predicates.foldl (narrow place) frame).lookup n = frame.lookup n :=
  lookup_foldl (fun p hp _ => lookup_narrow_of_ne (h p hp)) frame

/-- A name that only predicates speak of is known from them. -/
theorem lookup_foldl_narrow_of_mem {predicates : List (Ty × List Bound)}
    (h : ∃ p ∈ predicates, p.1.ident? = some n) {frame : Frame} (hn : frame.lookup n = none) :
    (predicates.foldl (narrow place) frame).lookup n =
      some (place.boundHint (boundsOn n predicates)) := by
  induction predicates generalizing frame with
  | nil => simp at h
  | cons predicate rest ih =>
    rw [List.foldl_cons]
    by_cases hhead : predicate.1.ident? = some n
    -- the first predicate on the name makes it known, and the others go on from there
    · rw [lookup_foldl_narrow_of_some rest (lookup_narrow_of_none hhead hn),
        boundsOn_cons_of_eq hhead]
    · have hrest : ∃ p ∈ rest, p.1.ident? = some n := by simpa [hhead] using h
      rw [ih hrest ((lookup_narrow_of_ne hhead).trans hn), boundsOn_cons_of_ne hhead]

end Frame

/-! ## Frames of type parameters -/

namespace Generics

variable {place : Place} {generics : Generics} {n : String}

/-- What the list of parameters tells of them. -/
def own (place : Place) (generics : Generics) : Frame :=
  generics.params.reverse.map fun x => (x.1, place.boundHint x.2)

theorem frame_eq (place : Place) (generics : Generics) :
    generics.frame place = generics.predicates.foldl (Frame.narrow place) (generics.own place) := by
  unfold Generics.frame
  show List.foldl _ (generics.own place) _ = _
  congr 1
  funext frame predicate
  obtain ⟨ty, bounds⟩ := predicate
  unfold Frame.narrow
  cases ty with
  | path path =>
    dsimp only [Ty.ident?]
    cases path.ident? with
    | none => rfl
    | some n =>
      dsimp only
      cases frame.lookup n with
      | none => rfl
      | some hint => cases hint <;> simp
  | _ => rfl

/-- The type parameters have different names. -/
def Distinct (generics : Generics) : Prop :=
  (generics.params.map Prod.fst).Nodup

theorem lookup_own {bounds : List Bound} (hdistinct : generics.Distinct)
    (hn : (n, bounds) ∈ generics.params) :
    (generics.own place).lookup n = some (place.boundHint bounds) := by
  obtain ⟨before, after, hparams⟩ := List.append_of_mem hn
  -- the parameters are collected from the last to the first, so those behind `n` come before it
  have hafter : ∀ x ∈ after, n ≠ x.1 := by
    unfold Distinct at hdistinct
    rw [hparams, List.map_append, List.map_cons] at hdistinct
    have hnotMem := (List.nodup_cons.1 (List.nodup_append.1 hdistinct).2.1).1
    exact fun x hx hn => hnotMem (List.mem_map.2 ⟨x, hx, hn.symm⟩)
  let told (x : String × List Bound) := (x.1, place.boundHint x.2)
  refine List.lookup_eq_some_iff.2 ⟨after.reverse.map told, before.reverse.map told, ?_, ?_⟩
  · unfold own
    simp [hparams, told]
  · intro y hy
    obtain ⟨x, hx, rfl⟩ := List.mem_map.1 hy
    exact bne_iff_ne.2 (hafter x (List.mem_reverse.1 hx))

theorem lookup_own_eq_none (hn : n ∉ generics.params.map Prod.fst) :
    (generics.own place).lookup n = none := by
  rw [Frame.lookup_eq_none]
  unfold own
  simpa using hn

/-- **What is known of a type parameter is the first trait among its bounds**, those in the list of
parameters followed by those in the `where` clause. -/
theorem lookup_frame {bounds : List Bound} (hdistinct : generics.Distinct)
    (hn : (n, bounds) ∈ generics.params) : (generics.frame place).lookup n =
      some (place.boundHint (bounds ++ boundsOn n generics.predicates)) := by
  rw [frame_eq]
  exact Frame.lookup_foldl_narrow_of_some _ (lookup_own hdistinct hn)

/-- The `where` clause has a predicate on the bare name `n`. -/
def Constrains (generics : Generics) (n : String) : Prop :=
  ∃ predicate ∈ generics.predicates, predicate.1 = .path (.ofName n)

theorem constrains_iff : generics.Constrains n ↔
    ∃ predicate ∈ generics.predicates, predicate.1.ident? = some n := by
  simp only [Constrains, Ty.ident?_eq_some_iff]

theorem lookup_frame_eq_none (hn : n ∉ generics.params.map Prod.fst)
    (h : ¬ generics.Constrains n) : (generics.frame place).lookup n = none := by
  rw [constrains_iff] at h
  rw [frame_eq, Frame.lookup_foldl_narrow_of_notMem (fun p hp heq => h ⟨p, hp, heq⟩),
    lookup_own_eq_none hn]

/-- A predicate makes a name known that is no parameter. -/
theorem lookup_frame_of_constrains (hn : n ∉ generics.params.map Prod.fst)
    (h : generics.Constrains n) :
    (generics.frame place).lookup n = some (place.boundHint (boundsOn n generics.predicates)) := by
  rw [frame_eq]
  exact Frame.lookup_foldl_narrow_of_mem (constrains_iff.1 h) (lookup_own_eq_none hn)

end Generics

/-! ## Types behind references and pointers -/

/-- The type is the name `n`, behind references, parentheses and pointers to any depth. -/
inductive Ty.Wraps (n : String) : Ty → Prop where
  | name : Wraps n (.path (.ofName n))
  | reference {target : Ty} (life : Option String) (mutable : Bool) (h : Wraps n target) :
      Wraps n (.reference life mutable target)
  | paren {inner : Ty} (h : Wraps n inner) : Wraps n (.paren inner)
  | pointer {inner : Ty} (rooted : Bool) (before : List Segment) {name : String}
      (hname : name ∈ wrappers) (rest : List GenericArg) (h : Wraps n inner) :
      Wraps n (.path (.plain rooted (before ++ [.angled name (.type inner :: rest)])))

theorem Segment.lastWrapped_pointer (place : Place) (before : List Segment) {name : String}
    (hname : name ∈ wrappers) (inner : Ty) (rest : List GenericArg) :
    Segment.lastWrapped place (before ++ [.angled name (.type inner :: rest)]) =
      some (inner.hint place) := by
  induction before with
  | nil =>
    show (if wrappers.contains name then _ else _) = _
    rw [if_pos (List.contains_iff_mem.2 hname)]
  | cons s before ih =>
    rw [← ih]
    cases before <;> simp [Segment.lastWrapped]

theorem Path.ident?_pointer (rooted : Bool) (before : List Segment) (name : String)
    (args : List GenericArg) :
    (Path.plain rooted (before ++ [.angled name args])).ident? = none := by
  cases rooted with
  | true => rfl
  | false =>
    cases before with
    | nil => rfl
    | cons s before => cases s <;> cases before <;> rfl

/-- **References, parentheses and pointers tell nothing of their own.** -/
theorem Ty.Wraps.hint_eq {n : String} {ty : Ty} (h : ty.Wraps n) (place : Place) :
    ty.hint place = (Ty.path (.ofName n)).hint place := by
  induction h with
  | name => rfl
  | reference life mutable _ ih => rw [Ty.hint, ih]
  | paren _ ih => rw [Ty.hint, ih]
  | pointer rooted before hname rest _ ih =>
    rw [← ih]
    rw [Ty.hint, Path.ident?_pointer, Segment.lastWrapped_pointer place before hname]
    rfl

/-- What a bare name tells is what the innermost frame that has it says. -/
theorem Ty.hint_ofName (place : Place) (n : String) : (Ty.path (.ofName n)).hint place =
    (Frame.find? place.typeParams n).getD (.named [n] place.scope) := by
  unfold Path.ofName
  rw [Ty.hint]
  cases hfind : Frame.find? place.typeParams n with
  | none => simp [Path.ident?, hfind, Segment.lastWrapped, Segment.name]
  | some hint => simp [Path.ident?, hfind]

/-- **What is known of a type parameter.** It is the first trait among its bounds: those beside the
parameter, and behind them those of the predicates on its bare name in the order of the text.
Nothing is known if no trait is among them. While the declaration is the innermost one with
parameters, every type that is the parameter behind references, parentheses and pointers tells the
same, in whatever scope it is written and whatever is declared there. -/
theorem Generics.frame_firstTrait {generics : Generics} (hdistinct : generics.Distinct)
    {param : String} {bounds : List Bound} (hparam : (param, bounds) ∈ generics.params)
    (place : Place) : ∃ hint, (generics.frame place).lookup param = some hint ∧
    (∀ before binder path after,
      bounds ++ boundsOn param generics.predicates =
          before ++ Bound.trait false binder path :: after →
        (∀ b ∈ before, b.trait? = none) → hint = .named path.names place.scope) ∧
    (hint = .unknown ↔ ∀ b ∈ bounds ++ boundsOn param generics.predicates, b.trait? = none) ∧
    ∀ (inside : Place) (ty : Ty), inside.typeParams.head? = some (generics.frame place) →
      ty.Wraps param → ty.hint inside = hint := by
  have hlookup : (generics.frame place).lookup param = _ := lookup_frame hdistinct hparam
  refine ⟨_, hlookup, ?_, place.boundHint_eq_unknown, ?_⟩
  · intro before binder path after hbounds hbefore
    rw [hbounds]
    exact place.boundHint_of_first hbefore binder path
  · intro inside ty hinside hty
    obtain ⟨outer, houter⟩ := List.head?_eq_some_iff.1 hinside
    rw [hty.hint_eq, Ty.hint_ofName, houter, Frame.find?, List.findSome?_cons, hlookup]
    rfl

/-- Bounds of `T` beside the parameter and in three predicates, the first trait in the second of
these. -/
def Generics.spread : Generics where
  params := [("U", [.trait false [] (.ofName "Copy")]),
    ("T", [.lifetime "a", .trait true [] (.ofName "Sized")])]
  predicates := [(.path (.ofName "T"), [.lifetime "b"]),
    (.slice (.path (.ofName "T")), [.trait false [] (.ofName "Clone")]),
    (.path (.ofName "T"), [.trait true [] (.ofName "Sized"), .trait false ["c"] (.ofName "Draw")]),
    (.path (.ofName "T"), [.trait false [] (.ofName "Late")])]

theorem Generics.frame_firstTrait_spread :
    (spread.frame { scope := 3 }).lookup "T" = some (.named ["Draw"] 3) ∧
    (Ty.reference (some "a") false
      (.path (.plain false [.angled "Box" [.type (.paren (.path (.ofName "T")))]]))).hint
        { scope := 5, typeParams := [spread.frame { scope := 3 }] } = .named ["Draw"] 3 := by
  have hdistinct : spread.Distinct := by
    unfold Distinct
    decide
  obtain ⟨hint, hlookup, hfirst, -, hinside⟩ :=
    frame_firstTrait hdistinct (List.mem_cons_of_mem _ List.mem_cons_self) { scope := 3 }
  have hhint : hint = .named ["Draw"] 3 :=
    hfirst [.lifetime "a", .trait true [] (.ofName "Sized"), .lifetime "b",
      .trait true [] (.ofName "Sized")] ["c"] (.ofName "Draw") [.trait false [] (.ofName "Late")]
      rfl (by simp [Bound.trait?])
  refine ⟨hhint ▸ hlookup, hhint ▸ hinside _ _ rfl ?_⟩
  exact .reference _ _ (.pointer false [] (by decide) [] (.paren .name))

end Calligraph
