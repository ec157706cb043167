import Calligraph.Proofs.Analysis.Sentinel
import Calligraph.Proofs.Binding.Lookup
import Calligraph.Proofs.Project.Load

/-!
# Where the ends of edges come from

Every end of an edge that is not a sentinel is a routine that is declared: a caller in the unit of
the call, with its body, and a callee in some unit or library, as the first of its path. A method is
never found by its name alone (`Project.ends_declared`).
-/

namespace Calligraph

/-- An end of a call that is not a sentinel was found. -/
theorem eq_some_of_isSentinel {found : Option Symbol} {missing : Symbol}
    (hmissing : missing.isSentinel = true) (h : (found.getD missing).isSentinel = false) :
    found = some (found.getD missing) := by
  cases found with
  | none => exact Bool.noConfusion (hmissing.symm.trans h)
  | some symbol => rfl

/-! ## Callers -/

/-- The items declare `d` as a routine with a body. -/
def Sketch.DeclaresBody (home : List String) (items : List Item) (d : RoutineDecl) : Prop :=
  ∃ (i : Nat) (head : Head), (Item.surveyAll .heads items)[i]? = some head ∧ head.hasBody = true ∧
    (Sketch.ofItems home items).routines[i]? = some d

theorem Sketch.declaresBody_of_routineAt {home : List String} {items : List Item} {node : Nat}
    {d : RoutineDecl} (h : (Sketch.ofItems home items).routineAt node = some d) :
    Sketch.DeclaresBody home items d := by
  unfold Sketch.routineAt at h
  split at h
  · next i hpayload =>
    obtain ⟨pos, hmem⟩ := Sketch.mem_bodies_of_payload? hpayload
    rw [(Sketch.heads_ofItems home items).2] at hmem
    obtain ⟨head, hhead, hbody⟩ := Head.exists_of_mem_bodies hmem
    exact ⟨i, head, hhead, hbody, h⟩
  · cases h

namespace Project

variable {p : Project Sketch.frontEnd} {index node : Nat} {unit : ParsedUnit Sketch}
  {scopes : List Nat}

theorem routineAt_of_caller
    (h : ((p.view index unit).site scopes node).caller.isSentinel = false) :
    ∃ around d, unit.tree.routineAt around = some d ∧
      ((p.view index unit).site scopes node).caller = ⟨(RoutineName.ofDecl d).text⟩ := by
  have hfound : scopes.findSome? (p.view index unit).declaring =
      some ((p.view index unit).site scopes node).caller := eq_some_of_isSentinel rfl h
  obtain ⟨around, -, haround⟩ := List.exists_of_findSome?_eq_some hfound
  obtain ⟨n, hn, htext⟩ := eq_text_of_bind haround
  obtain ⟨d, hd, rfl⟩ := Option.map_eq_some_iff.1 hn
  exact ⟨around, d, hd, htext⟩

/-! ## Callees -/

theorem resolve_of_callee
    (h : ((p.view index unit).site scopes node).callee.isSentinel = false) :
    ∃ target r, Bindings.resolve p.bindings unit.tree target = some r ∧
      ((p.view index unit).site scopes node).callee = ⟨r.name.text⟩ := by
  have hfound : (p.view index unit).referenced node =
      some ((p.view index unit).site scopes node).callee := eq_some_of_isSentinel rfl h
  obtain ⟨n, hn, htext⟩ := eq_text_of_bind hfound
  obtain ⟨r, hr, rfl⟩ := Option.map_eq_some_iff.1 hn
  obtain ⟨target, -, hresolve⟩ := Option.bind_eq_some_iff.1 hr
  exact ⟨target, r, hresolve, htext⟩

/-! ## Projects -/

theorem returnsPlain_of_reads {source : Source} (h : Reads source unit) :
    unit.tree.ReturnsPlain := by
  obtain ⟨items, -, rfl⟩ := h
  exact (Sketch.wellFormed_ofItems source.home items).returns_plain

theorem returnsPlain_of_load {title : String} {sources : List Source}
    {references : List Reference} (h : load Sketch.frontEnd title sources references = .ok p)
    {s : Sketch} (hs : s ∈ p.units.map ParsedUnit.tree) : s.ReturnsPlain := by
  obtain ⟨unit, hunit, rfl⟩ := List.mem_map.1 hs
  obtain ⟨i, hi⟩ := List.mem_iff_getElem?.1 hunit
  obtain ⟨source, -, hreads⟩ := exists_getElem?_of_forall₂ (reads_of_load h).1 hi
  exact returnsPlain_of_reads hreads

/-- **No end of an edge is invented.** In a project that was taken in, the edges are those of the
calls. A caller that is not a sentinel is a routine with a body in the source of the call. A callee
that is not a sentinel is the first routine that a unit or a library declares with its path. A
method that is resolved belongs to the type that its receiver has, which is known: it is the type's
own, or if the type has none, that of the first of its traits that has one. -/
theorem ends_declared {title : String} {sources : List Source} {references : List Reference}
    (h : load Sketch.frontEnd title sources references = .ok p) :
    let sketches := p.units.map ParsedUnit.tree
    let b : Bindings := p.bindings
    let sites := p.walks.flatMap fun w => w.sites.toList
    p.analyze.graph.edges = sites.map CallSite.edge ∧
    (∀ site ∈ sites, site.caller.isSentinel = false →
      ∃ source items d, sources[site.unit]? = some source ∧
        SourceFile.parse source.text = .ok items ∧ Sketch.DeclaresBody source.home items d ∧
        site.caller = ⟨(RoutineName.ofDecl d).text⟩) ∧
    (∀ site ∈ sites, site.callee.isSentinel = false →
      ∃ n, Bindings.firstNamed sketches p.libraries (pathKey n.path) = some n ∧
        site.callee = ⟨n.text⟩) ∧
    ∀ s ∈ sketches, ∀ (node : Nat) (receiver : TypeHint) (name : String) (n : RoutineName),
      s.callAt node = some (.method receiver name) →
      Sketch.frontEnd.referenced p.bindings s node = some n →
      ∃ type, b.typeOf s receiver = some type ∧
        pathKey type ∈
          sketches.flatMap Sketch.typeKeys ++ p.libraries.flatMap Library.ownerKeys ∧
        Bindings.DeclaresMethod sketches p.libraries (b.traitsOf sketches type) type name n := by
  intro sketches b sites
  obtain ⟨hreads, hb⟩ := reads_of_load h
  have hplain (s : Sketch) (hs : s ∈ sketches) : s.ReturnsPlain := returnsPlain_of_load h hs
  refine ⟨p.edges_analyze_eq_map, fun site hsite hcaller => ?_, fun site hsite hcallee => ?_,
    fun s hs node receiver name n hcall hn => ?_⟩
  · obtain ⟨unit, scopes, node, hunit, heq⟩ := exists_node_of_mem_sites hsite
    obtain ⟨source, hsource, items, hitems, rfl⟩ := exists_getElem?_of_forall₂ hreads hunit
    rw [heq] at hcaller
    obtain ⟨around, d, hd, htext⟩ := routineAt_of_caller hcaller
    exact ⟨source, items, d, hsource, hitems, Sketch.declaresBody_of_routineAt hd, heq ▸ htext⟩
  · obtain ⟨unit, scopes, node, -, heq⟩ := exists_node_of_mem_sites hsite
    rw [heq] at hcallee
    obtain ⟨target, r, hr, htext⟩ := resolve_of_callee hcallee
    rw [hb] at hr
    obtain ⟨key, hkey⟩ := Bindings.exists_key_of_resolve hr
    have hfirst := Bindings.firstNamed_of_getElem? hplain hkey
    rw [← Bindings.pathKey_of_firstNamed hfirst] at hfirst
    exact ⟨r.name, hfirst, heq ▸ htext⟩
  · obtain ⟨r, hr, rfl⟩ := Option.map_eq_some_iff.1 hn
    rw [hcall] at hr
    have hresolve : b.resolve s (.method receiver name) = some r := hr
    have hbuild : b = Bindings.build sketches p.libraries := hb
    obtain ⟨type, htype, hmethod⟩ := Option.bind_eq_some_iff.1 hresolve
    rw [hbuild] at htype hmethod ⊢
    exact ⟨type, htype, Bindings.mem_typeKeys_of_typeOf hplain htype,
      Bindings.declaresMethod_of_methodOf hplain hmethod⟩

/-! ## A call of an inherited method -/

/-- A method that its type has from a trait is called. -/
def inheriting : Source where
  id := "a.rs"
  text := "struct T; trait Tr \x7b fn m(&self) \x7b\x7d \x7d " ++
    "impl Tr for T \x7b\x7d fn f(t: &T) \x7b t.m(); \x7d"

/-- The method that a node calls, with the routine that it is resolved to. -/
def methodAt (b : Bindings) (s : Sketch) (node : Nat) : Option (String × RoutineName) :=
  match s.callAt node with
  | some (.method _ name) => (Sketch.frontEnd.referenced b s node).map fun n => (name, n)
  | _ => none

theorem methodAt_eq_some {b : Bindings} {s : Sketch} {node : Nat} {name : String} {n : RoutineName}
    (h : methodAt b s node = some (name, n)) :
    (∃ receiver, s.callAt node = some (.method receiver name)) ∧
      Sketch.frontEnd.referenced b s node = some n := by
  unfold methodAt at h
  split at h
  · next receiver _ hcall =>
    obtain ⟨_, hn, heq⟩ := Option.map_eq_some_iff.1 h
    cases heq
    exact ⟨⟨receiver, hcall⟩, hn⟩
  · cases h

theorem load_inheriting :
    ∃ p : Project Sketch.frontEnd, load Sketch.frontEnd "p" [inheriting] [] = .ok p ∧
      ((p.walks.flatMap fun w => w.sites.toList).map fun s => (s.unit, s.edge)) =
        [(0, ⟨⟨"f(&T)"⟩, ⟨"Tr::m()"⟩⟩)] ∧
      p.units.map (fun unit => methodAt p.bindings unit.tree 3) =
        [some ("m", ⟨["Tr", "m"], []⟩)] := by
  have hload : (load Sketch.frontEnd "p" [inheriting] []).toOption.any (fun p =>
      (((p.walks.flatMap fun w => w.sites.toList).map fun s => (s.unit, s.edge)) =
        [(0, ⟨⟨"f(&T)"⟩, ⟨"Tr::m()"⟩⟩)] ∧
      p.units.map (fun unit => methodAt p.bindings unit.tree 3) =
        [some ("m", ⟨["Tr", "m"], []⟩)] : Bool)) = true := by
    decide +kernel
  cases hp : load Sketch.frontEnd "p" [inheriting] [] with
  | error cause =>
    rw [hp] at hload
    cases hload
  | ok p =>
    rw [hp] at hload
    exact ⟨p, rfl, of_decide_eq_true hload⟩

theorem ends_declared_inheriting :
    ∃ p : Project Sketch.frontEnd, load Sketch.frontEnd "p" [inheriting] [] = .ok p ∧
      (∃ site ∈ p.walks.flatMap fun w => w.sites.toList,
        site.edge = ⟨⟨"f(&T)"⟩, ⟨"Tr::m()"⟩⟩ ∧
        (∃ items d, SourceFile.parse inheriting.text = .ok items ∧
          Sketch.DeclaresBody [] items d ∧ site.caller = ⟨(RoutineName.ofDecl d).text⟩) ∧
        ∃ n, Bindings.firstNamed (p.units.map ParsedUnit.tree) p.libraries (pathKey n.path) =
          some n ∧ site.callee = ⟨n.text⟩) ∧
      ∃ type, Bindings.DeclaresMethod (p.units.map ParsedUnit.tree) p.libraries
        (Bindings.traitsOf p.bindings (p.units.map ParsedUnit.tree) type) type "m"
        ⟨["Tr", "m"], []⟩ := by
  obtain ⟨p, hp, hsites, hmethods⟩ := load_inheriting
  obtain ⟨-, hcallers, hcallees, hresolved⟩ := ends_declared hp
  refine ⟨p, hp, ?_, ?_⟩
  · obtain ⟨site, hsite, heq⟩ := List.mem_map.1 (hsites ▸ List.mem_singleton_self _)
    obtain ⟨hunit, hedge⟩ := Prod.mk.inj heq
    obtain ⟨hcaller, hcallee⟩ := Edge.mk.inj hedge
    obtain ⟨source, items, d, hsource, hitems, hd, htext⟩ :=
      hcallers site hsite (by rw [hcaller]; decide)
    rw [hunit] at hsource
    cases hsource
    exact ⟨site, hsite, hedge, ⟨items, d, hitems, hd, htext⟩,
      hcallees site hsite (by rw [hcallee]; decide)⟩
  · obtain ⟨unit, hunit, heq⟩ := List.mem_map.1 (hmethods ▸ List.mem_singleton_self _)
    obtain ⟨⟨receiver, hcall⟩, hn⟩ := methodAt_eq_some heq
    obtain ⟨type, -, -, hmethod⟩ :=
      hresolved unit.tree (List.mem_map_of_mem hunit) 3 receiver "m" _ hcall hn
    exact ⟨type, hmethod⟩

end Project

end Calligraph
