import Calligraph.Binding
import Calligraph.Grammar.File
import Calligraph.Sketch.OfItems

/-!
# The front-end of sketches
-/

namespace Calligraph

def Sketch.ofSource (source : Source) : Except Fault Sketch :=
  match SourceFile.parse source.text with
  | .ok items => .ok (.ofItems source.home items)
  | .error position => .error (.malformed position "syntax error")

def Sketch.frontEnd : FrontEnd where
  Payload := Mark
  Tree := Sketch
  Library := Library
  Bindings := Bindings
  Routine := RoutineName
  arena s := s.arena
  parse := Sketch.ofSource
  load := Library.load
  bind := Bindings.build
  declared _ s node := (s.routineAt node).map RoutineName.ofDecl
  referenced b s node := ((s.callAt node).bind (b.resolve s)).map BoundRoutine.name
  isCall b s node :=
    match s.callAt node with
    | some target => b.isCall s target
    | none => true
  display := RoutineName.text

end Calligraph
