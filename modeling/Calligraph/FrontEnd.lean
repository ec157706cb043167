import Calligraph.Arena
import Calligraph.Failure

/-!
# Front-ends

A front-end knows a language: it makes a tree of the text of a unit, takes in what references
declare, and tells which routine a node declares or calls. The rest of the analysis sees a tree only
through its arena and a routine only through its text.
-/

namespace Calligraph

/-- The text of a unit, and the module that its declarations belong to. -/
structure Source where
  id : String
  text : String
  home : List String := []
deriving Repr, DecidableEq, Inhabited

inductive ReferenceText where
  | inline (text : String)
  /-- A file, with what reading it gave. -/
  | file (path : String) (content : Except FileError String)

/-- Declarations of routines that are not in the project. -/
structure Reference where
  name : String
  text : ReferenceText

structure FrontEnd where
  Payload : Type
  /-- What is known of a unit. -/
  Tree : Type
  /-- What is known of a reference. -/
  Library : Type
  /-- What is known of all units and references together. -/
  Bindings : Type
  /-- What a routine is to the front-end. -/
  Routine : Type
  arena : Tree → Arena Payload
  parse : Source → Except Fault Tree
  load : Reference → Except Fault Library
  bind : List Tree → List Library → Bindings
  /-- The routine that a node declares. -/
  declared : Bindings → Tree → Nat → Option Routine
  referenced : Bindings → Tree → Nat → Option Routine
  /-- A node with the form of a call calls something. -/
  isCall : Bindings → Tree → Nat → Bool
  display : Routine → String

end Calligraph
