import Mathlib.Data.List.Forall2
import Calligraph.Project
import Calligraph.Sketch.FrontEnd

/-!
# Projects that were taken in

A project is there if all its sources and references could be taken in, and then each unit is what
its source was read as.
-/

namespace Calligraph

open List (Forall₂)

variable {α β ε : Type}

/-- One step after another succeeds if both do. -/
theorem bind_eq_ok_iff {x : Except ε α} {f : α → Except ε β} {b : β} :
    x >>= f = .ok b ↔ ∃ a, x = .ok a ∧ f a = .ok b := by
  cases x with
  | error cause => simp [bind, Except.bind]
  | ok a => simp [bind, Except.bind]

theorem mapM_eq_ok_iff {f : α → Except ε β} {xs : List α} {ys : List β} :
    xs.mapM f = .ok ys ↔ Forall₂ (fun x y => f x = .ok y) xs ys := by
  induction xs generalizing ys with
  | nil =>
    rw [List.mapM_nil, List.forall₂_nil_left_iff]
    exact ⟨fun h => (Except.ok.inj h).symm, fun h => congrArg _ h.symm⟩
  | cons x xs ih =>
    rw [List.mapM_cons, bind_eq_ok_iff, List.forall₂_cons_left_iff]
    constructor
    · rintro ⟨y, hy, h⟩
      obtain ⟨rest, hrest, h⟩ := bind_eq_ok_iff.1 h
      exact ⟨y, rest, hy, ih.1 hrest, (Except.ok.inj h).symm⟩
    · rintro ⟨y, rest, hy, hrest, rfl⟩
      exact ⟨y, hy, bind_eq_ok_iff.2 ⟨rest, ih.2 hrest, rfl⟩⟩

theorem exists_getElem?_of_forall₂ {R : α → β → Prop} {xs : List α} {ys : List β}
    (h : Forall₂ R xs ys) {i : Nat} {y : β} (hy : ys[i]? = some y) :
    ∃ x, xs[i]? = some x ∧ R x y := by
  induction h generalizing i with
  | nil => simp at hy
  | @cons x y' xs ys hxy _ ih =>
    cases i with
    | zero =>
      cases hy
      exact ⟨x, rfl, hxy⟩
    | succ i => exact ih hy

namespace Project

variable {fe : FrontEnd} {title : String} {sources : List Source} {references : List Reference}

theorem load_eq_ok_iff {p : Project fe} :
    load fe title sources references = .ok p ↔
      ∃ units libraries, Forall₂ (fun s u => parseUnit fe s = .ok u) sources units ∧
        Forall₂ (fun r l => loadReference fe r = .ok l) references libraries ∧
        p = ofUnits fe title units libraries := by
  unfold load
  rw [bind_eq_ok_iff]
  constructor
  · rintro ⟨units, hunits, h⟩
    obtain ⟨libraries, hlibraries, h⟩ := bind_eq_ok_iff.1 h
    exact ⟨units, libraries, mapM_eq_ok_iff.1 hunits, mapM_eq_ok_iff.1 hlibraries,
      (Except.ok.inj h).symm⟩
  · rintro ⟨units, libraries, hunits, hlibraries, rfl⟩
    exact ⟨units, mapM_eq_ok_iff.2 hunits,
      bind_eq_ok_iff.2 ⟨libraries, mapM_eq_ok_iff.2 hlibraries, rfl⟩⟩

theorem parseUnit_eq_ok_iff {source : Source} {unit : ParsedUnit fe.Tree} :
    parseUnit fe source = .ok unit ↔
      ∃ tree, fe.parse source = .ok tree ∧ unit = ⟨source.id, tree⟩ := by
  unfold parseUnit
  cases fe.parse source <;> simp [eq_comm]

/-- The unit is what the source was read as. -/
def Reads (source : Source) (unit : ParsedUnit Sketch) : Prop :=
  ∃ items, SourceFile.parse source.text = .ok items ∧
    unit = ⟨source.id, .ofItems source.home items⟩

theorem reads_of_parseUnit {source : Source} {unit : ParsedUnit Sketch}
    (h : parseUnit Sketch.frontEnd source = .ok unit) : Reads source unit := by
  obtain ⟨tree, htree, rfl⟩ := parseUnit_eq_ok_iff.1 h
  have hsketch : Sketch.ofSource source = .ok tree := htree
  unfold Sketch.ofSource at hsketch
  split at hsketch
  · next items hitems =>
    cases hsketch
    exact ⟨items, hitems, rfl⟩
  · cases hsketch

/-- The units of a project of sketches are its sources in their order, and its bindings are those of
its units and libraries. -/
theorem reads_of_load {p : Project Sketch.frontEnd}
    (h : load Sketch.frontEnd title sources references = .ok p) :
    Forall₂ Reads sources p.units ∧
      p.bindings = Bindings.build (p.units.map ParsedUnit.tree) p.libraries := by
  obtain ⟨units, libraries, hunits, -, rfl⟩ := load_eq_ok_iff.1 h
  exact ⟨hunits.imp fun _ _ => reads_of_parseUnit, rfl⟩

end Project

end Calligraph
