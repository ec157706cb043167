import Calligraph.Export.Dot
import Calligraph.Proofs.Export.Quoted

/-!
# Graphs read back from DOT

The text of a graph is a sequence of lines. No label breaks its line, since a line break in it is
escaped; so the lines can be told apart first (`lines_render`), and an edge can be read from its own
line (`readEdge_edgeLine`).
-/

namespace Calligraph

/-! ## Lines -/

/-- The lines of a text, each without the line break that ends it. -/
def Text.lines (text : String) : List String :=
  (text.toList.splitOn '\n').dropLast.map String.ofList

theorem Text.splitOn_breaks {lines : List String} (h : ∀ line ∈ lines, '\n' ∉ line.toList) :
    ((lines.map (· ++ "\n")).flatMap String.toList).splitOn '\n' =
      lines.map String.toList ++ [[]] := by
  induction lines with
  | nil => rfl
  | cons line rest ih =>
    have hbreak : "\n".toList = ['\n'] := rfl
    rw [List.map_cons, List.flatMap_cons, String.toList_append, hbreak, List.append_assoc,
      List.singleton_append,
      List.splitOn_append_cons_self_of_not_mem (h line List.mem_cons_self),
      ih fun l hl => h l (List.mem_cons_of_mem _ hl)]
    rfl

/-- Lines that hold no line break are the lines of the text they make. -/
theorem Text.lines_join {lines : List String} (h : ∀ line ∈ lines, '\n' ∉ line.toList) :
    Text.lines (String.join (lines.map (· ++ "\n"))) = lines := by
  rw [Text.lines, String.toList_join, Text.splitOn_breaks h, List.dropLast_concat, List.map_map]
  simp [Function.comp_def]

namespace Dot

/-! ## Labels -/

/-- The character that a label goes on with. -/
def readChar : List Char → Option (Char × List Char)
  | '\\' :: 'n' :: rest => some ('\n', rest)
  | '\\' :: c :: rest => some (c, rest)
  | c :: rest => some (c, rest)
  | [] => none

theorem readChar_escapeChar (c : Char) (rest : List Char) :
    readChar (escapeChar c ++ rest) = some (c, rest) := by
  unfold escapeChar
  split
  · rfl
  · rfl
  · rfl
  · next hslash hquote hbreak =>
    rw [List.singleton_append]
    unfold readChar
    split <;> simp_all

theorem length_lt_of_readChar {cs rest : List Char} {c : Char} (h : readChar cs = some (c, rest)) :
    rest.length < cs.length := by
  unfold readChar at h
  split at h
  case h_4 => cases h
  all_goals
    cases h
    simp only [List.length_cons]
    omega

theorem escapeChar_ne_quote (c : Char) (rest : List Char) : escapeChar c ≠ '"' :: rest := by
  unfold escapeChar
  split <;> simp_all

/-- How labels are written between quotes. -/
def escape : Escape where
  write := escapeChar
  read := readChar
  read_write := readChar_escapeChar
  length_lt := length_lt_of_readChar
  not_quote := escapeChar_ne_quote

theorem quoted_toList (text : String) :
    (quoted text).toList = '"' :: (text.toList.flatMap escape.write ++ ['"']) := by
  simp [quoted, escape]

theorem break_not_mem_escapeChar (c : Char) : '\n' ∉ escapeChar c := by
  unfold escapeChar
  split
  · decide
  · decide
  · decide
  · next hslash hquote hbreak => simpa using fun h => hbreak h.symm

theorem break_not_mem_quoted (text : String) : '\n' ∉ (quoted text).toList := by
  rw [quoted_toList]
  simp [escape, break_not_mem_escapeChar]

/-- The text with `put` in every place of a character. -/
def replaceChar (c : Char) (put text : List Char) : List Char :=
  text.flatMap fun x => if x = c then put else [x]

/-- Labels are escaped by three replacements one after the other. The one of backslashes is the
first, so it meets none that the others put in. -/
theorem flatMap_escapeChar (text : List Char) :
    text.flatMap escapeChar =
      replaceChar '\n' ['\\', 'n']
        (replaceChar '"' ['\\', '"'] (replaceChar '\\' ['\\', '\\'] text)) := by
  simp only [replaceChar, List.flatMap_assoc]
  congr 1
  funext c
  unfold escapeChar
  split
  · rfl
  · rfl
  · rfl
  · next hslash hquote hbreak =>
    rw [if_neg hslash, List.flatMap_singleton, if_neg hquote, List.flatMap_singleton,
      if_neg hbreak]

/-! ## Edges -/

/-- The edge of a line. -/
def readEdge (line : String) : Option Edge :=
  match line.toList with
  | '\t' :: '"' :: rest =>
    match escape.readQuoted rest with
    | some (caller, ' ' :: '-' :: '>' :: ' ' :: '"' :: rest) =>
      match escape.readQuoted rest with
      | some (callee, [';']) => some ⟨⟨String.ofList caller⟩, ⟨String.ofList callee⟩⟩
      | _ => none
    | _ => none
  | _ => none

theorem edgeLine_toList (e : Edge) :
    (edgeLine e).toList =
      '\t' :: '"' :: (e.caller.text.toList.flatMap escape.write ++
        '"' :: ' ' :: '-' :: '>' :: ' ' :: '"' :: (e.callee.text.toList.flatMap escape.write ++
          '"' :: [';'])) := by
  simp [edgeLine, quoted_toList]

theorem readEdge_edgeLine (e : Edge) : readEdge (edgeLine e) = some e := by
  unfold readEdge
  rw [edgeLine_toList]
  simp only [Escape.readQuoted_write, String.ofList_toList]

theorem break_not_mem_edgeLine (e : Edge) : '\n' ∉ (edgeLine e).toList := by
  simp [edgeLine, break_not_mem_quoted]

/-! ## Graphs -/

/-- The graph of a text: the edges of its lines between the two lines of the header and the closing
line. -/
def decode (text : String) : Option CallGraph :=
  (((Text.lines text).drop 2).dropLast.mapM readEdge).map CallGraph.mk

theorem lines_render (g : CallGraph) : Text.lines (render g) = lines g := by
  refine Text.lines_join fun line hline => ?_
  simp only [lines, List.mem_append, List.mem_cons, List.mem_map, List.not_mem_nil,
    or_false] at hline
  rcases hline with ((rfl | rfl) | ⟨e, -, rfl⟩) | rfl
  · decide
  · decide
  · exact break_not_mem_edgeLine e
  · decide

theorem mapM_readEdge (edges : List Edge) : (edges.map edgeLine).mapM readEdge = some edges := by
  induction edges with
  | nil => rfl
  | cons e rest ih => rw [List.map_cons, List.mapM_cons, readEdge_edgeLine, ih]; rfl

theorem decode_render (g : CallGraph) : decode (render g) = some g := by
  have hedges : ((lines g).drop 2).dropLast = g.edges.map edgeLine := by simp [lines]
  rw [decode, lines_render, hedges, mapM_readEdge]
  rfl

/-- **The text of a graph determines the graph**: `decode` gives back its edges in order, each as
often as it occurs, so no two graphs have the same text. The text is a header of two lines, a line
for each edge and a closing line, where labels are escaped by three replacements. -/
theorem render_determines (g : CallGraph) :
    decode (render g) = some g ∧
    (∀ g', render g = render g' ↔ g = g') ∧
    Text.lines (render g) =
      ["digraph graph_name \x7b", "\tgraph [ rankdir = LR ];"] ++ g.edges.map edgeLine ++
        ["\x7d"] ∧
    ∀ label : String, quoted label =
      "\"" ++ String.ofList (replaceChar '\n' ['\\', 'n'] (replaceChar '"' ['\\', '"']
        (replaceChar '\\' ['\\', '\\'] label.toList))) ++ "\"" := by
  refine ⟨decode_render g, fun g' => ⟨fun h => ?_, fun h => h ▸ rfl⟩, lines_render g,
    fun label => ?_⟩
  · have hboth : some g = some g' := by rw [← decode_render g, h, decode_render g']
    exact Option.some.inj hboth
  · rw [← flatMap_escapeChar]
    rfl

end Dot

end Calligraph
