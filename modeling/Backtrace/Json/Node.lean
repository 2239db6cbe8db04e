/-!
A JSON text as a tree in which the place where the text goes wrong is kept. A reader that walks the
tree from left to right meets the same first problem as one that walks the text.
-/
namespace Backtrace.Json

inductive Problem
  /-- It is not JSON. -/
  | malformed
  /-- It ends too early. -/
  | truncated
  /-- It is JSON of another shape than asked for. -/
  | mismatch
deriving DecidableEq, Repr

/-- The problem where a text goes wrong, as it shows to one that wants the value there, to one that
passes over it, and to one that wants the name of a variant. -/
structure Fault where
  wanted : Problem
  skipped : Problem
  variant : Problem
deriving DecidableEq, Repr

namespace Fault

def same (problem : Problem) : Fault := ⟨problem, problem, problem⟩

end Fault

/-- A number: a natural number below 2^64, another one as it is written, or one too large for a
double, which is refused unless it is passed over. -/
inductive Number
  | natural (value : Nat)
  | other (text : String)
  | huge (text : String)
deriving DecidableEq, Repr

/-- A value. A string without text holds a surrogate without its partner. A container is closed, or
holds the fault that keeps it from being closed, in one of its parts or after them. -/
inductive Node
  | null
  | bool (value : Bool)
  | number (value : Number)
  | string (text : Option String)
  | array (items : List Node) (fault : Option Fault)
  | object (members : List (Option String × Node)) (fault : Option Fault)
  | bad (fault : Fault)

namespace Node

def text (text : String) : Node := .string (some text)

def natural (value : Nat) : Node := .number (.natural value)

def list (items : List Node) : Node := .array items none

def record (members : List (String × Node)) : Node :=
  .object (members.map fun (key, value) => (some key, value)) none

/-- The value of a member, the last one of that name. -/
def get? (key : String) : Node → Option Node
  | .object members _ => (members.reverse.find? (·.1 = some key)).map (·.2)
  | _ => none

/-- What is wrong with a value for one that wants a value of another kind: the value itself if it
is spoilt, else its kind. -/
def refusal : Node → Problem
  | .bad fault => fault.wanted
  | .number (.huge _) => .malformed
  | .string none => .malformed
  | _ => .mismatch

def fault? : Node → Option Fault
  | .array _ fault => fault
  | .object _ fault => fault
  | .bad fault => some fault
  | _ => none

end Node

structure Tree where
  root : Node
  clean : Bool

end Backtrace.Json
