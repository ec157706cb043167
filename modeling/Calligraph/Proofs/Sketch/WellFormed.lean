import Calligraph.Proofs.Sketch.Hint
import Calligraph.Proofs.Sketch.Shape
import Calligraph.Sketch.FrontEnd

/-!
# Sketches are well-formed

The indices in a sketch lead somewhere. Scopes are recorded before anything names them and stay
where they are, so every scope that is named is there (`Drafted.sound`). Routines are recorded in
the order of the text, each before the node of its body (`Drafted.heads_eq`). Resolving a call asks
for the scopes that its target names only (`Bindings.resolve_congr`), so it misses none.
-/

namespace Calligraph

variable {M : Type}

/-! ## Scopes -/

/-- The scopes that a node names. -/
def Mark.scopes : Mark → List Nat
  | .call target => target.scopes
  | _ => []

/-- A node of the kind of its mark, which names scopes below `n` only. -/
def Mark.Fits (n : Nat) (entry : NodeKind × Position × Mark) : Prop :=
  entry.1 = entry.2.2.kind ∧ ∀ i ∈ entry.2.2.scopes, i < n

theorem Mark.Fits.mono {entry : NodeKind × Position × Mark} {m n : Nat} (h : Mark.Fits m entry)
    (hmn : m ≤ n) : Mark.Fits n entry :=
  ⟨h.1, fun i hi => Nat.lt_of_lt_of_le (h.2 i hi) hmn⟩

/-- A node with others below it. -/
theorem Mark.fits_node {n : Nat} {kind : NodeKind} {mark : Mark} {ns : List (Branch Mark)}
    (pos : Position) (hmark : Mark.Fits n (kind, pos, mark))
    (hns : ∀ entry ∈ Branch.entriesAll ns, Mark.Fits n entry) :
    ∀ entry ∈ Branch.entriesAll [.mk kind pos mark ns], Mark.Fits n entry := by
  rw [Branch.entriesAll_single]
  exact List.forall_mem_cons.2 ⟨hmark, hns⟩

theorem Place.Tells.scope_lt {place : Place} {n : Nat} (h : place.Tells (TypeHint.Settled n)) :
    place.scope < n :=
  (h.named []).2 _ (List.mem_singleton_self _)

theorem Place.Tells.settled_mono {place : Place} {m n : Nat}
    (h : place.Tells (TypeHint.Settled m)) (hmn : m ≤ n) : place.Tells (TypeHint.Settled n) :=
  h.mono fun _ hq => ⟨hq.1, hq.2.mono hmn⟩

theorem Place.Tells.within {place : Place} {n : Nat} (h : place.Tells (TypeHint.Settled n)) :
    place.Tells (TypeHint.Within n) :=
  h.mono fun _ hq => hq.2

namespace Draft

/-- All scopes that a draft names are recorded, and return types do not depend on calls. -/
structure Sound (d : Draft) : Prop where
  locals : ∀ frame ∈ d.locals, frame.All (TypeHint.Within d.scopes.size)
  routines : ∀ r ∈ d.routines, r.returns.Settled d.scopes.size ∧ r.scope < d.scopes.size
  impls : ∀ i ∈ d.impls, i.scope < d.scopes.size

variable {d e : Draft} {place : Place}

theorem Sound.with_locals (h : d.Sound) {locals : List Frame}
    (hl : ∀ frame ∈ locals, frame.All (TypeHint.Within d.scopes.size)) :
    Sound { d with locals } :=
  ⟨hl, h.routines, h.impls⟩

theorem Sound.bind (h : d.Sound) (hplace : place.Tells (TypeHint.Settled d.scopes.size))
    {hint : TypeHint} (hhint : hint.Within d.scopes.size) (pat : Pat) :
    Sound ((Drafting.bind place hint pat).run d).2 := by
  obtain ⟨decls, locals⟩ := d
  cases locals with
  | nil => exact h
  | cons frame outer =>
    obtain ⟨hframe, houter⟩ := List.forall_mem_cons.1 h.locals
    exact h.with_locals (List.forall_mem_cons.2 ⟨hplace.within.bind pat hhint hframe, houter⟩)

theorem scopes_bind (d : Draft) (place : Place) (hint : TypeHint) (pat : Pat) :
    ((Drafting.bind place hint pat).run d).2.scopes = d.scopes := by
  obtain ⟨decls, locals⟩ := d
  cases locals <;> rfl

theorem Notes.scopes_eq (h : d.Notes place e) : e.scopes = d.scopes := by
  cases h with
  | bind pat _ => exact d.scopes_bind place _ pat
  | type path => rfl
  | impl selfType trait => rfl

theorem Notes.sound (h : d.Notes place e) (hplace : place.Tells (TypeHint.Settled d.scopes.size))
    (hd : d.Sound) : e.Sound := by
  cases h with
  | bind pat hhint =>
    refine hd.bind hplace ?_ pat
    rcases hhint with rfl | ⟨expr, rfl⟩
    · exact hplace.unknown.2
    · exact expr.within_hint hplace.within hplace.scope_lt hd.locals
  | type path => exact ⟨hd.locals, hd.routines, hd.impls⟩
  | impl selfType trait =>
    refine ⟨hd.locals, hd.routines, fun i hi => ?_⟩
    rcases Array.mem_push.1 hi with hi | rfl
    · exact hd.impls i hi
    · exact hplace.scope_lt

theorem Sound.declare (h : d.Sound) (hplace : place.Tells (TypeHint.Settled d.scopes.size))
    (owner : List String) (sig : Signature) : Sound (d.declare place owner sig) := by
  refine ⟨h.locals, fun r hr => ?_, h.impls⟩
  rcases Array.mem_push.1 hr with hr | rfl
  · exact h.routines r hr
  · refine ⟨?_, hplace.scope_lt⟩
    cases sig.output with
    | none => exact hplace.unknown
    | some ty => exact hplace.hint ty

/-- A scope more leaves the scopes that were there. -/
theorem Sound.enter (h : d.Sound) (scope : Scope) :
    Sound { d with scopes := d.scopes.push scope } := by
  have hle : d.scopes.size ≤ (d.scopes.push scope).size := by simp
  refine ⟨fun frame hf => (h.locals frame hf).within_mono hle, fun r hr => ?_, fun i hi => ?_⟩
  · obtain ⟨⟨hplain, hwithin⟩, hscope⟩ := h.routines r hr
    exact ⟨⟨hplain, hwithin.mono hle⟩, Nat.lt_of_lt_of_le hscope hle⟩
  · exact Nat.lt_of_lt_of_le (h.impls i hi) hle

end Draft

/-- Drafting keeps drafts sound, and the nodes that are drafted name recorded scopes. -/
theorem Drafted.sound {v : Survey M} {place : Place} {d e : Draft} {ns : List (Branch Mark)} {x : M}
    (h : Drafted v place d ns e x) (hplace : place.Tells (TypeHint.Settled d.scopes.size))
    (hd : d.Sound) :
    d.scopes.size ≤ e.scopes.size ∧ e.Sound ∧
      ∀ entry ∈ Branch.entriesAll ns, Mark.Fits e.scopes.size entry := by
  induction h with
  | nothing => exact ⟨Nat.le_refl _, hd, fun _ hn => nomatch hn⟩
  | append _ _ ih₁ ih₂ =>
    obtain ⟨hde, he, hns⟩ := ih₁ hplace hd
    obtain ⟨hef, hf, hms⟩ := ih₂ (hplace.settled_mono hde) he
    refine ⟨Nat.le_trans hde hef, hf, fun entry hentry => ?_⟩
    rw [Branch.entriesAll_append] at hentry
    rcases List.mem_append.1 hentry with hentry | hentry
    · exact (hns entry hentry).mono hef
    · exact hms entry hentry
  | @call place d e ns x pos func _ ih =>
    obtain ⟨hde, he, hns⟩ := ih hplace hd
    have htarget : (func.target place d.locals).Within d.scopes.size :=
      func.within_target hplace.scope_lt
    exact ⟨hde, he, Mark.fits_node pos
      ⟨rfl, fun i hi => Nat.lt_of_lt_of_le (htarget i hi) hde⟩ hns⟩
  | method pos receiver name _ ih =>
    obtain ⟨hde, he, hns⟩ := ih hplace hd
    have hhint := receiver.within_hint hplace.within hplace.scope_lt hd.locals
    exact ⟨hde, he, Mark.fits_node pos
      ⟨rfl, fun i hi => Nat.lt_of_lt_of_le (hhint i hi) hde⟩ hns⟩
  | before hnote _ ih =>
    have he := hnote.sound hplace hd
    rw [← hnote.scopes_eq] at hplace ⊢
    exact ih hplace he
  | after _ hnote ih =>
    obtain ⟨hde, he, hns⟩ := ih hplace hd
    have hf := hnote.sound (hplace.settled_mono hde) he
    rw [hnote.scopes_eq]
    exact ⟨hde, hf, hns⟩
  | block _ ih =>
    have hopen := hd.with_locals (List.forall_mem_cons.2 ⟨.nil, hd.locals⟩)
    obtain ⟨hde, he, hns⟩ := ih hplace hopen
    exact ⟨hde, he.with_locals fun frame hf => he.locals frame (List.mem_of_mem_tail hf), hns⟩
  | routine owner sig _ ih =>
    have hinner := hplace.under sig.generics
    have hown := (hd.declare hinner owner sig).with_locals
      (List.forall_mem_singleton.2 (hinner.within.signature sig))
    obtain ⟨hde, he, hns⟩ := ih hinner hown
    -- The frames around the routine are put back; their scopes are still there.
    refine ⟨hde, he.with_locals fun frame hf => ?_, ?_⟩
    · exact (hd.locals frame hf).within_mono hde
    · exact Mark.fits_node sig.pos ⟨rfl, fun _ hi => nomatch hi⟩ hns
  | required owner sig =>
    have hinner := hplace.under sig.generics
    exact ⟨Nat.le_refl _, hd.declare hinner owner sig, fun _ hn => nomatch hn⟩
  | @enter place d e ns x scope _ ih =>
    have hle : d.scopes.size ≤ (d.scopes.push scope).size := by simp
    have hlt : d.scopes.size < (d.scopes.push scope).size := by simp
    -- The type parameters are kept, so what they name has to be there still.
    have hinner : Place.Tells (TypeHint.Settled (d.scopes.push scope).size)
        { place with scope := d.scopes.size } :=
      Place.tells_settled hlt (hplace.settled_mono hle).typeParams
    obtain ⟨hde, he, hns⟩ := ih hinner (hd.enter scope)
    exact ⟨Nat.le_trans hle hde, he, hns⟩
  | under generics _ ih => exact ih (hplace.under generics) hd
  | module pos _ ih =>
    obtain ⟨hde, he, hns⟩ := ih hplace hd
    exact ⟨hde, he, Mark.fits_node pos ⟨rfl, fun _ hi => nomatch hi⟩ hns⟩

/-! ## Routines -/

/-- A routine of the syntax. -/
structure Head where
  sig : Signature
  hasBody : Bool

/-- The routines in the order of the text. -/
def Survey.heads : Survey (List Head) where
  nothing := []
  append := (· ++ ·)
  call _ below := below
  method _ _ below := below
  routine sig below := ⟨sig, true⟩ :: below
  required sig := [⟨sig, false⟩]
  module _ below := below

/-- The name and the parameter types of a routine. -/
def Head.title (h : Head) : Option String × List String :=
  (some h.sig.name, h.sig.renderParams)

/-- The name and the parameter types of a routine as declared. -/
def RoutineDecl.title (d : RoutineDecl) : Option String × List String :=
  (d.path.getLast?, d.params)

/-- The routines with a body among routines that are counted from `i` on, each with its place. -/
def Head.bodies (i : Nat) (heads : List Head) : List (Nat × Position) :=
  ((heads.zipIdx i).filter fun x => x.1.hasBody).map fun x => (x.2, x.1.sig.pos)

theorem Head.bodies_append (i : Nat) (heads others : List Head) :
    Head.bodies i (heads ++ others) =
      Head.bodies i heads ++ Head.bodies (i + heads.length) others := by
  simp [Head.bodies, List.zipIdx_append]

theorem Head.exists_of_mem_bodies {heads : List Head} {j : Nat} {pos : Position}
    (h : (j, pos) ∈ Head.bodies 0 heads) : ∃ head, heads[j]? = some head ∧ head.hasBody = true := by
  obtain ⟨⟨head, i⟩, hx, hj⟩ := List.mem_map.1 h
  obtain ⟨hmem, hbody⟩ := List.mem_filter.1 hx
  cases hj
  exact ⟨head, List.mem_zipIdx_iff_getElem?.1 hmem, hbody⟩

/-- The routine that a node is the body of, with the place of the node. -/
def Mark.declared? : NodeKind × Position × Mark → Option (Nat × Position)
  | (_, pos, .declaration i) => some (i, pos)
  | _ => none

theorem Draft.Notes.routines_eq {place : Place} {d e : Draft} (h : d.Notes place e) :
    e.routines = d.routines := by
  cases h with
  | bind pat _ =>
    obtain ⟨decls, locals⟩ := d
    cases locals <;> rfl
  | type path => rfl
  | impl selfType trait => rfl

theorem Draft.titles_declare (d : Draft) (place : Place) (owner : List String) (sig : Signature)
    (hasBody : Bool) :
    (d.declare place owner sig).routines.toList.map RoutineDecl.title =
      d.routines.toList.map RoutineDecl.title ++ [Head.title ⟨sig, hasBody⟩] := by
  have hpush : (d.declare place owner sig).routines = d.routines.push
      ⟨owner ++ [sig.name], sig.renderParams, (sig.output.map (Ty.hint place)).getD .unknown,
        place.scope⟩ := rfl
  simp [hpush, RoutineDecl.title, Head.title]

/-- Drafting records the routines of the syntax in order, and the nodes of their bodies come in the
same order. -/
theorem Drafted.heads_eq {place : Place} {d e : Draft} {ns : List (Branch Mark)}
    {heads : List Head} (h : Drafted .heads place d ns e heads) :
    e.routines.toList.map RoutineDecl.title =
        d.routines.toList.map RoutineDecl.title ++ heads.map Head.title ∧
      (Branch.entriesAll ns).filterMap Mark.declared? = Head.bodies d.routines.size heads := by
  induction h with
  | nothing => exact ⟨(List.append_nil _).symm, rfl⟩
  | @append place d e f ns ms x y _ _ ih₁ ih₂ =>
    obtain ⟨htitles₁, hbodies₁⟩ := ih₁
    obtain ⟨htitles₂, hbodies₂⟩ := ih₂
    -- The second part counts its routines on from those of the first.
    have hsize : e.routines.size = d.routines.size + x.length := by
      simpa using congrArg List.length htitles₁
    constructor
    · rw [htitles₂, htitles₁, List.append_assoc, ← List.map_append]
      rfl
    · rw [Branch.entriesAll_append, List.filterMap_append, hbodies₁, hbodies₂, hsize,
        ← Head.bodies_append]
      rfl
  | call pos func _ ih =>
    obtain ⟨htitles, hbodies⟩ := ih
    refine ⟨htitles, ?_⟩
    rw [callNode, Branch.entriesAll_single, List.filterMap_cons_none rfl]
    exact hbodies
  | method pos receiver name _ ih =>
    obtain ⟨htitles, hbodies⟩ := ih
    refine ⟨htitles, ?_⟩
    rw [callNode, Branch.entriesAll_single, List.filterMap_cons_none rfl]
    exact hbodies
  | before hnote _ ih =>
    rw [hnote.routines_eq] at ih
    exact ih
  | after _ hnote ih =>
    rw [hnote.routines_eq]
    exact ih
  | block _ ih => exact ih
  | @routine place d e ns x owner sig _ ih =>
    obtain ⟨htitles, hbodies⟩ := ih
    rw [Draft.titles_declare d _ owner sig true, List.append_assoc] at htitles
    refine ⟨htitles, ?_⟩
    have hsize : (d.declare (place.under sig.generics) owner sig).routines.size =
        d.routines.size + 1 := Array.size_push ..
    rw [hsize] at hbodies
    rw [Branch.entriesAll_single, List.filterMap_cons]
    exact congrArg ((d.routines.size, sig.pos) :: ·) hbodies
  | required owner sig => exact ⟨Draft.titles_declare _ _ owner sig false, rfl⟩
  | enter scope _ ih => exact ih
  | under generics _ ih => exact ih
  | module pos _ ih =>
    obtain ⟨htitles, hbodies⟩ := ih
    refine ⟨htitles, ?_⟩
    rw [Branch.entriesAll_single, List.filterMap_cons_none rfl]
    exact hbodies

/-! ## Sketches -/

namespace Sketch

/-- The scopes that a sketch names anywhere. -/
def scopeIds (s : Sketch) : List Nat :=
  s.arena.nodes.toList.flatMap (fun n => n.payload.scopes) ++
    s.routines.toList.flatMap (fun d => d.scope :: d.returns.scopes) ++
    s.impls.toList.map ImplDecl.scope

/-- The routines that nodes are the bodies of, in the order of the nodes, with their places. -/
def bodies (s : Sketch) : List (Nat × Position) :=
  s.arena.nodes.toList.filterMap fun n => Mark.declared? n.entry

/-- The indices in a sketch lead somewhere, and its routines are `heads`. -/
structure WellFormed (heads : List Head) (s : Sketch) : Prop where
  scope_lt : ∀ i ∈ s.scopeIds, i < s.scopes.size
  declaration_iff : ∀ node, s.arena.kind node = .declaration ↔
    ∃ i < s.routines.size, s.arena.payload? node = some (.declaration i)
  call_iff : ∀ node, s.arena.kind node = .call ↔
    ∃ target, s.arena.payload? node = some (.call target)
  titles_eq : s.routines.toList.map RoutineDecl.title = heads.map Head.title
  /-- The bodies are those of the routines that have one, each once and in order. -/
  bodies_eq : s.bodies = Head.bodies 0 heads
  returns_plain : ∀ d ∈ s.routines, d.returns.IsPlain

section OfItems

variable (home : List String) (items : List Item)

theorem sound_ofItems :
    (Item.drafted home items).2.Sound ∧ ∀ entry ∈ Branch.entriesAll (Item.drafted home items).1,
      Mark.Fits (ofItems home items).scopes.size entry := by
  have hplace : Place.Tells (TypeHint.Settled 1) {} :=
    Place.tells_settled Nat.one_pos fun _ hf => nomatch hf
  have hstart : Draft.Sound { scopes := #[Scope.ofModule home items] } :=
    ⟨by simp, by simp, by simp⟩
  exact ((Item.drafted_follows .heads home items).sound hplace hstart).2

theorem entries_ofItems :
    (ofItems home items).arena.nodes.toList.map Node.entry =
      (.other, Arena.nowhere, Mark.root) :: Branch.entriesAll (Item.drafted home items).1 :=
  Arena.map_entry_grown Mark.root _

variable {home items}

theorem fits_ofItems {n : Node Mark} (h : n ∈ (ofItems home items).arena.nodes.toList) :
    Mark.Fits (ofItems home items).scopes.size n.entry := by
  have hmem : n.entry ∈ (ofItems home items).arena.nodes.toList.map Node.entry :=
    List.mem_map_of_mem h
  rw [entries_ofItems] at hmem
  rcases List.mem_cons.1 hmem with hroot | hbelow
  · rw [hroot]
    exact ⟨rfl, fun _ hi => nomatch hi⟩
  · exact (sound_ofItems home items).2 _ hbelow

/-- The kind of a node is that of its mark. -/
theorem kind_ofItems (node : Nat) :
    (ofItems home items).arena.kind node =
      (((ofItems home items).arena.payload? node).map Mark.kind).getD .other := by
  unfold Arena.kind Arena.payload?
  cases hn : (ofItems home items).arena.nodes[node]? with
  | none => rfl
  | some n => exact (fits_ofItems (Array.mem_toList_iff.2 (Array.mem_of_getElem? hn))).1

variable (home items)

theorem scope_lt_ofItems :
    ∀ i ∈ (ofItems home items).scopeIds, i < (ofItems home items).scopes.size := by
  obtain ⟨hsound, -⟩ := sound_ofItems home items
  intro i hi
  rw [scopeIds, List.mem_append, List.mem_append] at hi
  rcases hi with (hi | hi) | hi
  · obtain ⟨n, hn, hscope⟩ := List.mem_flatMap.1 hi
    exact (fits_ofItems hn).2 i hscope
  · obtain ⟨d, hd, hscope⟩ := List.mem_flatMap.1 hi
    obtain ⟨hreturns, hown⟩ := hsound.routines d (Array.mem_toList_iff.1 hd)
    rcases List.mem_cons.1 hscope with rfl | hscope
    · exact hown
    · exact hreturns.2 i hscope
  · obtain ⟨d, hd, rfl⟩ := List.mem_map.1 hi
    exact hsound.impls d (Array.mem_toList_iff.1 hd)

theorem heads_ofItems :
    (ofItems home items).routines.toList.map RoutineDecl.title =
        (Item.surveyAll .heads items).map Head.title ∧
      (ofItems home items).bodies = Head.bodies 0 (Item.surveyAll .heads items) := by
  obtain ⟨htitles, hbodies⟩ := (Item.drafted_follows .heads home items).heads_eq
  refine ⟨htitles, ?_⟩
  have hentries : (ofItems home items).bodies =
      ((ofItems home items).arena.nodes.toList.map Node.entry).filterMap Mark.declared? := by
    rw [bodies, List.filterMap_map]
    rfl
  rw [hentries, entries_ofItems, List.filterMap_cons_none rfl]
  exact hbodies

theorem mem_bodies_of_payload? {s : Sketch} {node i : Nat}
    (h : s.arena.payload? node = some (.declaration i)) : ∃ pos, (i, pos) ∈ s.bodies := by
  obtain ⟨n, hn, hpayload⟩ := Option.map_eq_some_iff.1 h
  have hmem : n ∈ s.arena.nodes.toList := Array.mem_toList_iff.2 (Array.mem_of_getElem? hn)
  refine ⟨n.position, List.mem_filterMap.2 ⟨n, hmem, ?_⟩⟩
  rw [Node.entry, hpayload]
  rfl

/-- A node that is the body of a routine is the body of one that is there. -/
theorem lt_size_of_payload?_ofItems {node i : Nat}
    (h : (ofItems home items).arena.payload? node = some (.declaration i)) :
    i < (ofItems home items).routines.size := by
  obtain ⟨htitles, hbodies⟩ := heads_ofItems home items
  obtain ⟨pos, hmem⟩ := mem_bodies_of_payload? h
  have hsize : (ofItems home items).routines.size = (Item.surveyAll .heads items).length := by
    simpa using congrArg List.length htitles
  rw [hbodies] at hmem
  obtain ⟨head, hhead, -⟩ := Head.exists_of_mem_bodies hmem
  rw [hsize]
  exact (List.getElem?_eq_some_iff.1 hhead).1

theorem wellFormed_ofItems :
    (ofItems home items).WellFormed (Item.surveyAll .heads items) where
  scope_lt := scope_lt_ofItems home items
  declaration_iff node := by
    rw [kind_ofItems]
    constructor
    · intro hkind
      match hmark : (ofItems home items).arena.payload? node, hkind with
      | some (.declaration i), _ => exact ⟨i, lt_size_of_payload?_ofItems home items hmark, rfl⟩
    · rintro ⟨i, -, hmark⟩
      rw [hmark]
      rfl
  call_iff node := by
    rw [kind_ofItems]
    constructor
    · intro hkind
      match (ofItems home items).arena.payload? node, hkind with
      | some (.call target), _ => exact ⟨target, rfl⟩
    · rintro ⟨target, hmark⟩
      rw [hmark]
      rfl
  titles_eq := (heads_ofItems home items).1
  bodies_eq := (heads_ofItems home items).2
  returns_plain d hd := ((sound_ofItems home items).1.routines d hd).1.1

end OfItems

end Sketch

/-! ## Resolution -/

namespace Bindings

variable {s s' : Sketch}

theorem typeAt_congr (b : Bindings) {scope : Nat} (h : s'.scopes[scope]? = s.scopes[scope]?)
    (path : List String) : b.typeAt s' path scope = b.typeAt s path scope := by
  simp only [typeAt, h]

theorem routineAt_congr (b : Bindings) {scope : Nat} (h : s'.scopes[scope]? = s.scopes[scope]?)
    (path : List String) : b.routineAt s' path scope = b.routineAt s path scope := by
  simp only [routineAt, h, b.typeAt_congr h]

mutual

/-- Of a sketch, the meaning of a target depends on the scopes that the target names only. -/
theorem resolve_congr (b : Bindings) : (target : CallTarget) →
    (∀ i ∈ target.scopes, s'.scopes[i]? = s.scopes[i]?) → b.resolve s' target = b.resolve s target
  | .path path scope, h => b.routineAt_congr (h scope (List.mem_singleton_self _)) path
  | .construct path scope, h => b.routineAt_congr (h scope (List.mem_singleton_self _)) path
  | .method receiver name, h => by
    rw [resolve, resolve, typeOf_congr b receiver h]
  | .dynamic, _ => rfl

theorem typeOf_congr (b : Bindings) : (hint : TypeHint) →
    (∀ i ∈ hint.scopes, s'.scopes[i]? = s.scopes[i]?) → b.typeOf s' hint = b.typeOf s hint
  | .named path scope, h => b.typeAt_congr (h scope (List.mem_singleton_self _)) path
  | .returnOf target, h => by
    have htarget := resolve_congr b target h
    cases target with
    | construct path scope =>
      simp only [typeOf, htarget]
      rw [b.typeAt_congr (h scope (List.mem_singleton_self _))]
    | _ => simp only [typeOf, htarget]
  | .unknown, _ => rfl

end

end Bindings

/-- The scopes that the target of a node names are named by the sketch. -/
theorem Sketch.mem_scopeIds_of_callAt {s : Sketch} {node : Nat} {target : CallTarget}
    (h : s.callAt node = some target) {i : Nat} (hi : i ∈ target.scopes) : i ∈ s.scopeIds := by
  have hpayload : s.arena.payload? node = some (.call target) := by
    unfold callAt at h
    split at h
    · next hmark => cases h; exact hmark
    · cases h
  obtain ⟨n, hn, hcall⟩ := Option.map_eq_some_iff.1 hpayload
  have hmem : i ∈ s.arena.nodes.toList.flatMap fun n => n.payload.scopes :=
    List.mem_flatMap.2
      ⟨n, Array.mem_toList_iff.2 (Array.mem_of_getElem? hn), by rw [hcall]; exact hi⟩
  exact List.mem_append_left _ (List.mem_append_left _ hmem)

/-- **Nothing that a sketch refers to is missing.** It is well-formed, so every node of a routine
declares one, and resolving the call of a node finds all scopes that it asks for: it would give the
same if there were more of them. -/
theorem Sketch.nothing_missing_ofItems (home : List String) (items : List Item) :
    let s := Sketch.ofItems home items
    s.WellFormed (Item.surveyAll .heads items) ∧
    (∀ (b : Bindings) (node : Nat), s.arena.kind node = .declaration →
      (Sketch.frontEnd.declared b s node).isSome) ∧
    ∀ (b : Bindings) (node : Nat) (target : CallTarget), s.callAt node = some target →
      (∀ i ∈ target.scopes, ∃ scope, s.scopes[i]? = some scope) ∧
      ∀ more : Array Scope,
        b.resolve { s with scopes := s.scopes ++ more } target = b.resolve s target := by
  intro s
  have hwf : s.WellFormed (Item.surveyAll .heads items) := wellFormed_ofItems home items
  refine ⟨hwf, fun b node hkind => ?_, fun b node target hcall => ?_⟩
  · obtain ⟨i, hi, hmark⟩ := (hwf.declaration_iff node).1 hkind
    simp [Sketch.frontEnd, Sketch.routineAt, hmark, hi]
  · have hlt (i : Nat) (hi : i ∈ target.scopes) : i < s.scopes.size :=
      hwf.scope_lt i (mem_scopeIds_of_callAt hcall hi)
    refine ⟨fun i hi => ⟨_, Array.getElem?_eq_getElem (hlt i hi)⟩, fun more => ?_⟩
    exact b.resolve_congr target fun i hi => Array.getElem?_append_left (hlt i hi)

/-- A trait method without a body, and a routine with a call after it. -/
theorem Sketch.nothing_missing_ofItems_requiredMethod :
    let call : Expr := .call ⟨3, 2⟩ [] (.path (.plain false [.plain "g"]) []) []
    let s := Sketch.ofItems [] [
      .traitDef "T" {} [.function ⟨"m", ⟨1, 3⟩, {}, [.receiver], none⟩ none],
      .function ⟨"f", ⟨2, 3⟩, {}, [], none⟩ [.expr call]]
    s.bodies = [(1, ⟨2, 3⟩)] ∧ s.arena.kind 1 = .declaration ∧
      (Sketch.frontEnd.declared {} s 1).isSome ∧
      s.callAt 2 = some (.path ["g"] 0) ∧ ∃ scope, s.scopes[0]? = some scope := by
  intro call s
  have hkind : s.arena.kind 1 = .declaration := by decide
  have hcall : s.callAt 2 = some (.path ["g"] 0) := by decide
  obtain ⟨hwf, hdeclared, hresolve⟩ := Sketch.nothing_missing_ofItems [] [
    .traitDef "T" {} [.function ⟨"m", ⟨1, 3⟩, {}, [.receiver], none⟩ none],
    .function ⟨"f", ⟨2, 3⟩, {}, [], none⟩ [.expr call]]
  exact ⟨hwf.bodies_eq, hkind, hdeclared {} 1 hkind, hcall,
    (hresolve {} 2 _ hcall).1 0 (List.mem_singleton_self _)⟩

end Calligraph
