import Backtrace.Method

/-!
Where a compiled method comes from: the method that a programmer wrote, and the lambda or local function in it. Links in
the metadata come first, names second; state machines are undone before closures, so that an asynchronous lambda is
both. A generated name holds the host's name in angle brackets, a letter for the kind, and a suffix; hosts may be such
names themselves, so brackets nest.
-/
namespace Backtrace

/-! ### Generated names -/

inductive GeneratedKind
  | stateMachine
  | lambda
  | localFunction
  | displayClass
  | other (letter : Char)
deriving DecidableEq

namespace GeneratedKind

def ofLetter (letter : Char) : GeneratedKind :=
  if letter = 'd' then .stateMachine
  else if letter = 'b' then .lambda
  else if letter = 'g' then .localFunction
  else if letter = 'c' then .displayClass
  else .other letter

def letter : GeneratedKind → Char
  | .stateMachine => 'd'
  | .lambda => 'b'
  | .localFunction => 'g'
  | .displayClass => 'c'
  | .other letter => letter

theorem letter_ofLetter (c : Char) : (ofLetter c).letter = c := by
  unfold ofLetter
  repeat' split
  all_goals simp_all [letter]

end GeneratedKind

/-- Splits a text at the bracket that closes what is open, `depth` brackets inside it being open. -/
def atClosing? : (depth : Nat) → List Char → Option (List Char × List Char)
  | _, [] => none
  | depth, c :: cs =>
    if c = '<' then (atClosing? (depth + 1) cs).map fun (l, r) => (c :: l, r)
    else if c = '>' then
      match depth with
      | 0 => some ([], cs)
      | depth + 1 => (atClosing? depth cs).map fun (l, r) => (c :: l, r)
    else (atClosing? depth cs).map fun (l, r) => (c :: l, r)

structure GeneratedName where
  host : String
  kind : Option GeneratedKind
  suffix : String

namespace GeneratedName

def ofText? (name : String) : Option GeneratedName :=
  match name.toList with
  | '<' :: rest =>
    (atClosing? 0 rest).map fun (host, tail) =>
      match tail with
      | [] => ⟨String.ofList host, none, ""⟩
      | letter :: suffix => ⟨String.ofList host, some (.ofLetter letter), String.ofList suffix⟩
  | _ => none

end GeneratedName

/-- The number of a lambda in its host: the digits behind two underscores, or behind the first
underscore after those. -/
def lambdaOrdinal? (suffix : String) : Option UInt32 := do
  let digits ← ['_', '_'].isPrefixOf? suffix.toList
  let digits := match Text.around? '_' digits with
    | some (_, tail) => tail
    | none => digits
  return UInt32.ofNat (← Text.numeral? UInt32.size digits)

def localFunctionName? (suffix : String) : Option String := do
  let body ← ['_', '_'].isPrefixOf? suffix.toList
  let (name, _) ← Text.around? '|' body
  if name.isEmpty then none else some (String.ofList name)

/-! ### Origins -/

inductive Machine
  | async
  | iterator
deriving DecidableEq

structure Closure where
  name : String
  ordinal : Option UInt32
  host : Option Method

/-- The source of a compiled method. The target describes the code that runs; it is unknown where
only names tell. -/
structure Origin where
  target : Option Method
  name : String
  declaringType : Option TypeRef
  machine : Option Machine
  closure : Option Closure

namespace Origin

def machineHost? (type : Option TypeRef) : Option (String × Option TypeRef) := do
  let type ← type
  let name ← GeneratedName.ofText? type.simpleName
  if name.kind = some .stateMachine ∧ name.host ≠ "" then some (name.host, type.enclosing) else none

def closureOfName? (name : String) (host : Option Method) : Option (String × Closure) := do
  let parts ← GeneratedName.ofText? name
  if parts.host = "" then none
  else
    match parts.kind with
    | some .lambda => some (parts.host, ⟨name, lambdaOrdinal? parts.suffix, host⟩)
    | some .localFunction => some (parts.host, ⟨(localFunctionName? parts.suffix).getD name, none, host⟩)
    | _ => none

inductive Body
  | unknown
  | plain
  | closure (host : Option Method)

def bodyOf (method : Method) : Body :=
  match method.synthesis with
  | .unknown => .unknown
  | .plain | .asyncMachine _ | .iteratorMachine _ => .plain
  | .closure _ => .closure method.link

structure Unrolled where
  target : Option Method
  name : String
  declaringType : Option TypeRef
  machine : Option Machine
  body : Body

namespace Unrolled

def itself (method : Method) (body : Body) : Unrolled :=
  ⟨some method, method.name, method.declaringType, none, body⟩

/-- What the name of a state machine's type tells of the method that it was made for. -/
def ofTypeName (method : Method) (machine : Option Machine) : Unrolled :=
  match machineHost? method.declaringType with
  | some (host, outer) => ⟨none, host, outer, machine, .unknown⟩
  | none => ⟨none, method.name, method.declaringType, machine, .unknown⟩

/-- A state machine, by its link or else by the name of its type. -/
def ofMachine (method : Method) (machine : Machine) : Unrolled :=
  match method.link with
  | some origin => ⟨some origin, origin.name, origin.declaringType, some machine, bodyOf origin⟩
  | none => ofTypeName method (some machine)

def of (method : Method) : Unrolled :=
  match method.synthesis with
  | .asyncMachine _ => ofMachine method .async
  | .iteratorMachine _ => ofMachine method .iterator
  | .unknown =>
    if method.name = "MoveNext" ∧ (machineHost? method.declaringType).isSome then ofTypeName method none
    else itself method .unknown
  | .plain | .closure _ => itself method (bodyOf method)

end Unrolled

def ofClosure (method : Unrolled) (host : Option Method) : String × Option TypeRef × Closure :=
  let (name, closure) := (closureOfName? method.name host).getD
    ((host.map (·.name)).getD method.name, ⟨method.name, none, host⟩)
  (name, (host.bind (·.declaringType)).or method.declaringType, closure)

def of (method : Method) : Origin :=
  let unrolled := Unrolled.of method
  let (name, declaringType, closure) := match unrolled.body with
    | .closure host =>
      let (name, declaringType, closure) := ofClosure unrolled host
      (name, declaringType, some closure)
    | .unknown =>
      match closureOfName? unrolled.name none with
      | some (host, closure) => (host, unrolled.declaringType, some closure)
      | none => (unrolled.name, unrolled.declaringType, none)
    | .plain => (unrolled.name, unrolled.declaringType, none)
  { target := unrolled.target
    name
    declaringType := declaringType.bind TypeRef.source?
    machine := unrolled.machine
    closure }

end Origin

end Backtrace
