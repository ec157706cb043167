import Calligraph.Export.Format
import Calligraph.Proofs.Export.DotText
import Calligraph.Proofs.Export.JsonText

/-!
# Reports read back from JSON

A report in JSON holds the nodes of the graph with their sentinel flags, the edges and the
diagnostics. All of it is read back from the text.
-/

namespace Calligraph

/-- What the text of a report holds. -/
structure Exported where
  /-- The nodes, each with its sentinel flag. -/
  nodes : List (Symbol × Bool)
  edges : List Edge
  diagnostics : List Diagnostic
deriving Repr, DecidableEq

/-- What is exported of a report. -/
def Report.exported (r : Report) : Exported where
  nodes := r.graph.symbols.map fun s => (s, s.isSentinel)
  edges := r.graph.edges
  diagnostics := r.diagnostics

namespace Exported

/-! ## Values -/

def nodeOf? : JsonValue → Option (Symbol × Bool)
  | .object [("name", .text name), ("sentinel", .boolean sentinel)] => some (⟨name⟩, sentinel)
  | _ => none

def edgeOf? : JsonValue → Option Edge
  | .object [("from", .text caller), ("to", .text callee)] => some ⟨⟨caller⟩, ⟨callee⟩⟩
  | _ => none

def kindOf? : String → Option DiagnosticKind
  | "unresolved_caller" => some .unresolvedCaller
  | "unresolved_callee" => some .unresolvedCallee
  | _ => none

def diagnosticOf? : JsonValue → Option Diagnostic
  | .object [("kind", .text kind), ("unit", .text unit), ("line", .number line),
      ("column", .number column)] => do
    return ⟨← kindOf? kind, unit, ⟨line, column⟩⟩
  | _ => none

/-- What a value holds, if it is that of a report. -/
def ofJson? : JsonValue → Option Exported
  | .object [("nodes", .list nodes), ("edges", .list edges), ("diagnostics", .list diagnostics)] =>
    do return ⟨← nodes.mapM nodeOf?, ← edges.mapM edgeOf?, ← diagnostics.mapM diagnosticOf?⟩
  | _ => none

/-- What a text holds, if it is that of a report. -/
def ofText? (text : String) : Option Exported :=
  match JsonValue.read text.toList.length text.toList with
  | some (v, ['\n']) => ofJson? v
  | _ => none

theorem nodeOf?_nodeJson (s : Symbol) : nodeOf? (Report.nodeJson s) = some (s, s.isSentinel) :=
  rfl

theorem edgeOf?_edgeJson (e : Edge) : edgeOf? (Report.edgeJson e) = some e :=
  rfl

theorem diagnosticOf?_diagnosticJson (d : Diagnostic) :
    diagnosticOf? (Report.diagnosticJson d) = some d := by
  obtain ⟨kind, unit, position⟩ := d
  cases kind <;> rfl

/-- Values that are read back one by one are read back in a list. -/
theorem mapM_map {α β : Type} {read : JsonValue → Option β} {write : α → JsonValue} {f : α → β}
    (h : ∀ x, read (write x) = some (f x)) (xs : List α) :
    (xs.map write).mapM read = some (xs.map f) := by
  induction xs with
  | nil => rfl
  | cons x rest ih => rw [List.map_cons, List.mapM_cons, h, ih]; rfl

theorem ofJson?_json (r : Report) : ofJson? r.json = some r.exported := by
  have hedges := mapM_map (f := id) edgeOf?_edgeJson r.graph.edges
  have hdiagnostics := mapM_map (f := id) diagnosticOf?_diagnosticJson r.diagnostics
  simp only [ofJson?, Report.json, mapM_map nodeOf?_nodeJson, hedges, hdiagnostics, List.map_id]
  rfl

theorem ofText?_renderJson (r : Report) : ofText? r.renderJson = some r.exported := by
  have hread : JsonValue.read r.renderJson.toList.length r.renderJson.toList =
      some (r.json, ['\n']) := by
    rw [Report.renderJson, String.toList_append]
    refine JsonValue.read_pretty 0 ?_ r.json _ (by simp)
    rintro _ _ ⟨⟩
    rfl
  rw [ofText?, hread]
  exact ofJson?_json r

end Exported

/-- **The text of a report determines the report**: the nodes with their flags, the edges and the
diagnostics are read back from it in order, so no two reports have the same text; and the edges are
those that are read back from the text in DOT. -/
theorem Report.renderJson_determines (r : Report) :
    Exported.ofText? (r.render .json) =
      some ⟨r.graph.symbols.map fun s => (s, s.isSentinel), r.graph.edges, r.diagnostics⟩ ∧
    (∀ r' : Report, r.render .json = r'.render .json ↔
      r.graph.edges = r'.graph.edges ∧ r.diagnostics = r'.diagnostics) ∧
    (Exported.ofText? (r.render .json)).map Exported.edges =
      (Dot.decode (r.render .dot)).map CallGraph.edges := by
  refine ⟨Exported.ofText?_renderJson r, fun r' => ⟨fun h => ?_, fun h => ?_⟩, ?_⟩
  · have hboth : some r.exported = some r'.exported := by
      rw [← Exported.ofText?_renderJson r, ← Exported.ofText?_renderJson r']
      exact congrArg _ h
    have hsame := Option.some.inj hboth
    exact ⟨congrArg Exported.edges hsame, congrArg Exported.diagnostics hsame⟩
  · obtain ⟨⟨edges⟩, diagnostics⟩ := r
    obtain ⟨⟨edges'⟩, diagnostics'⟩ := r'
    obtain ⟨rfl, rfl⟩ := h
    rfl
  · show (Exported.ofText? r.renderJson).map _ = (Dot.decode (Dot.render r.graph)).map _
    rw [Exported.ofText?_renderJson, Dot.decode_render]
    rfl

end Calligraph
