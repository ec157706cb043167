import Calligraph.Text.Position

/-!
# Tokens

The tokens of a source text, with the text between a pair of delimiters as one token. Operators are
kept as single characters that know whether another one follows at once, because the grammar
decides how many of them belong together.
-/

namespace Calligraph

inductive Delimiter where
  | paren
  | bracket
  | brace
deriving Repr, DecidableEq, Inhabited

/-- What a literal says, as far as anything depends on it. -/
inductive Literal where
  /-- An integer in any base, and whether a type suffix follows its digits. -/
  | int (value : Nat) (suffixed : Bool)
  /-- A number with a point or an exponent, as written. -/
  | float (text : String)
  /-- A text, raw or not. -/
  | text
  /-- Characters, bytes and the rest. -/
  | other
deriving Repr, DecidableEq, Inhabited

inductive Token where
  | ident (name : String) (pos : Position)
  | lifetime (name : String) (pos : Position)
  | punct (char : Char) (joint : Bool) (pos : Position)
  | literal (value : Literal) (pos : Position)
  | group (delimiter : Delimiter) (opened closed : Position) (tokens : List Token)
deriving Repr, Inhabited

namespace Token

def pos : Token → Position
  | .ident _ p => p
  | .lifetime _ p => p
  | .punct _ _ p => p
  | .literal _ p => p
  | .group _ p _ _ => p

def isGroup (d : Delimiter) : Token → Bool
  | .group d' _ _ _ => d == d'
  | _ => false

mutual

/-- How many tokens there are, counting those between delimiters. -/
def size : Token → Nat
  | .group _ _ _ ts => sizes ts + 1
  | _ => 1

def sizes : List Token → Nat
  | [] => 0
  | t :: ts => t.size + sizes ts

end

end Token

end Calligraph
