import Calligraph.Export.Dot
import Calligraph.Export.Json

/-!
# Output formats
-/

namespace Calligraph

inductive OutputFormat where
  | dot
  | json
deriving Repr, DecidableEq, Inhabited

namespace OutputFormat

def name : OutputFormat → String
  | .dot => "dot"
  | .json => "json"

def ofName? : String → Option OutputFormat
  | "dot" => some .dot
  | "json" => some .json
  | _ => none

end OutputFormat

def Report.render (r : Report) : OutputFormat → String
  | .dot => Dot.render r.graph
  | .json => r.renderJson

end Calligraph
