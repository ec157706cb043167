import Calligraph.Grammar.Input

/-!
# Precedence of operators
-/

namespace Calligraph.Precedence

/-! A higher number binds tighter. -/

def lowest : Nat := 0
def assign : Nat := 1
def range : Nat := 2
def compare : Nat := 6
def cast : Nat := 13

/-- Operators between two operands with their precedence, longer ones first. -/
def table : List (String × Nat) :=
  [("<<=", assign), (">>=", assign), ("+=", assign), ("-=", assign), ("*=", assign),
    ("/=", assign), ("%=", assign), ("^=", assign), ("&=", assign), ("|=", assign),
    ("&&", 4), ("||", 3), ("<<", 10), (">>", 10),
    ("==", compare), ("<=", compare), ("!=", compare), (">=", compare),
    ("+", 11), ("-", 11), ("*", 12), ("/", 12), ("%", 12), ("^", 8), ("&", 9), ("|", 7),
    ("<", compare), (">", compare)]

def operator? (ts : List Token) : Option (String × Nat) :=
  table.find? fun (op, _) => Ahead.punct ts op

def assignAhead (ts : List Token) : Bool :=
  Ahead.punct ts "=" && !Ahead.punct ts "=>"

/-- The precedence of what follows an operand. -/
def next (ts : List Token) : Nat :=
  match operator? ts with
  | some (_, p) => p
  | none =>
    if assignAhead ts then assign
    else if Ahead.punct ts ".." then range
    else if Ahead.word ts "as" then cast
    else lowest

end Calligraph.Precedence
