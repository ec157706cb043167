import Calligraph.Config

/-!
# Arguments of the command line
-/

namespace Calligraph

/-- What an argument can set. -/
inductive Flag where
  | input
  | folder
  | workspace
  | reference
  | config
  | output
  | format
  | name
  | jobs
  | sequential
  | verbose
  | logJson
  | help
  | version
deriving Repr, DecidableEq, Inhabited

namespace Flag

/-- The flag that is written after two dashes. -/
def ofWord? : String → Option Flag
  | "input" => some .input
  | "folder" => some .folder
  | "workspace" => some .workspace
  | "reference" => some .reference
  | "config" => some .config
  | "output" => some .output
  | "format" => some .format
  | "name" => some .name
  | "jobs" => some .jobs
  | "sequential" => some .sequential
  | "verbose" => some .verbose
  | "log-json" => some .logJson
  | "help" => some .help
  | "version" => some .version
  | _ => none

/-- The flag that is written after one dash. -/
def ofLetter? : Char → Option Flag
  | 'i' => some .input
  | 'd' => some .folder
  | 'r' => some .reference
  | 'c' => some .config
  | 'o' => some .output
  | 'f' => some .format
  | 'j' => some .jobs
  | 'v' => some .verbose
  | 'h' => some .help
  | 'V' => some .version
  | _ => none

def takesValue : Flag → Bool
  | .sequential | .verbose | .logJson | .help | .version => false
  | _ => true

end Flag

/-- Why arguments lead to no run. -/
inductive Usage where
  | misuse
  | help
  | version
deriving Repr, DecidableEq, Inhabited

def Usage.code : Usage → Nat
  | .misuse => 2
  | .help | .version => 0

structure Arguments where
  config : Option Bytes := none
  output : Option String := none
  /-- What counts over the configuration file. -/
  overrides : Config := {}
  verbose : Nat := 0
  logJson : Bool := false
deriving Repr, DecidableEq, Inhabited

namespace Arguments

/-- A number of 64 bits, which a plus sign may stand before. -/
def parseCount? (text : String) : Option Nat :=
  let digits := match text.toList with
    | '+' :: rest => rest
    | cs => cs
  if digits.isEmpty || !digits.all Char.isDigit then none
  else
    let n := digits.foldl (fun n c => 10 * n + (c.toNat - '0'.toNat)) 0
    if n < 0x10000000000000000 then some n else none

/-- A value for what has none yet. -/
def once {α : Type} (old : Option α) (new : α) : Except Usage (Option α) :=
  if old.isSome then .error .misuse else .ok (some new)

def path (value : Bytes) : Except Usage Bytes :=
  if value.isEmpty then .error .misuse else .ok value

def valid {α : Type} : Option α → Except Usage α
  | some a => .ok a
  | none => .error .misuse

/-- Takes in a flag with its value. Only a path need not be a text. -/
def give (a : Arguments) (flag : Flag) (value : Bytes) : Except Usage Arguments := do
  let c := a.overrides
  match flag with
  | .input => return { a with overrides := { c with inputs := c.inputs ++ [← path value] } }
  | .folder => return { a with overrides := { c with folders := c.folders ++ [← path value] } }
  | .reference =>
    return { a with overrides := { c with references := c.references ++ [← path value] } }
  | .workspace =>
    return { a with overrides := { c with workspace := ← once c.workspace (← path value) } }
  | .config => return { a with config := ← once a.config (← path value) }
  | .output => return { a with output := ← once a.output (← valid value.text?) }
  | .format =>
    let format ← valid (value.text?.bind OutputFormat.ofName?)
    return { a with overrides := { c with format := ← once c.format format } }
  | .name => return { a with overrides := { c with name := ← once c.name (← valid value.text?) } }
  | .jobs =>
    let jobs ← valid (value.text?.bind parseCount?)
    return { a with overrides := { c with jobs := ← once c.jobs jobs } }
  | _ => throw .misuse

def mark (a : Arguments) (flag : Flag) : Except Usage Arguments := do
  match flag with
  | .sequential =>
    let parallel ← once a.overrides.parallel false
    return { a with overrides := { a.overrides with parallel } }
  | .verbose => return { a with verbose := a.verbose + 1 }
  | .logJson => if a.logJson then throw .misuse else return { a with logJson := true }
  | .help => throw .help
  | .version => throw .version
  | _ => throw .misuse

/-- Takes in letters after one dash. What stands after the letter of a flag with a value is the
value; if nothing does, the flag still waits for it. -/
def letters (a : Arguments) : Bytes → Except Usage (Arguments × Option Flag)
  | [] => return (a, none)
  | c :: rest => do
    let flag ← valid (Flag.ofLetter? (Char.ofUInt8 c))
    if !flag.takesValue then
      letters (← a.mark flag) rest
    else
      match rest with
      | [] => return (a, some flag)
      | Bytes.equals :: value => return (← a.give flag value, none)
      | value => return (← a.give flag value, none)

/-- Takes in a word after two dashes, perhaps with its value. -/
def word (a : Arguments) (arg : Bytes) : Except Usage (Arguments × Option Flag) := do
  let (name, rest) := arg.span (· ≠ Bytes.equals)
  let flag ← valid ((Bytes.text? name).bind Flag.ofWord?)
  match flag.takesValue, rest with
  | true, [] => return (a, some flag)
  | true, _ :: value => return (← a.give flag value, none)
  | false, [] => return (← a.mark flag, none)
  | false, _ :: _ => throw .misuse

/-- The argument may be a value of its own. -/
def isValue (arg : Bytes) : Bool :=
  arg == [Bytes.dash] || arg.head? != some Bytes.dash

/-- Takes in arguments; `waiting` is a flag whose value is still to come. -/
def take (a : Arguments) : Option Flag → List Bytes → Except Usage Arguments
  | none, [] => return a
  | some _, [] => throw .misuse
  | some flag, arg :: rest => do
    if isValue arg then take (← a.give flag arg) none rest else throw .misuse
  | none, arg :: rest => do
    match arg with
    | [Bytes.dash, Bytes.dash] => if rest.isEmpty then return a else throw .misuse
    | Bytes.dash :: Bytes.dash :: word => do
      let (a, waiting) ← a.word word
      take a waiting rest
    | Bytes.dash :: c :: more => do
      let (a, waiting) ← a.letters (c :: more)
      take a waiting rest
    | _ => throw .misuse

def parse (args : List Bytes) : Except Usage Arguments :=
  take {} none args

end Arguments

end Calligraph
