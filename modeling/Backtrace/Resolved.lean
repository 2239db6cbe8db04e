import Backtrace.Failure
import Backtrace.Method.Origin

/-!
Methods and frames as they are shown. A method is resolved from the metadata of a compiled method; a frame without a
method, or whose method cannot be resolved, has a text of its own.
-/
namespace Backtrace

/-- The elements of a tuple type with their names in source, and the type around the tuple. -/
structure Tuple where
  wrapper : Option String
  types : List String
  names : List (Option String)
deriving DecidableEq

structure ResolvedParameter where
  name : Option String
  type : String
  keyword : Option String
  tuple : Option Tuple
deriving DecidableEq

inductive MemberKind
  | method
  | constructor
  | staticConstructor
deriving DecidableEq

namespace MemberKind

def ofName (name : String) : MemberKind :=
  if name = ".ctor" then .constructor
  else if name = ".cctor" then .staticConstructor
  else .method

end MemberKind

/-- A method as it is shown: the host as it was written, and the lambda or local function in it that
runs. Where nothing is known of that, its parameters are missing. -/
structure ResolvedMethod where
  declaringType : Option String := none
  name : String := ""
  generics : Option String := none
  returns : Option ResolvedParameter := none
  parameters : List ResolvedParameter := []
  isAsync : Bool := false
  isLambda : Bool := false
  ordinal : Option UInt32 := none
  subName : Option String := none
  subParameters : Option (List ResolvedParameter) := none
  kind : MemberKind := .method
deriving DecidableEq

namespace ResolvedMethod

def hasSub (method : ResolvedMethod) : Bool := method.isLambda || (method.subName.getD "") ≠ ""

end ResolvedMethod

/-! ### Parameters -/

/-- The first `count` names of tuple elements; a missing or empty name is none. -/
def elementNames : (count : Nat) → List (Option String) → List (Option String)
  | 0, _ => []
  | count + 1, [] => none :: elementNames count []
  | count + 1, name :: names => name.filter (· ≠ "") :: elementNames count names

theorem elementNames_length (count : Nat) (names : List (Option String)) :
    (elementNames count names).length = count := by
  fun_induction elementNames count names <;> simp_all

namespace Tuple

def ofElements (wrapper : Option String) (elements : List TypeRef) (names : List (Option String)) : Tuple :=
  ⟨wrapper, TypeRef.displayEach elements, elementNames elements.length names⟩

def of? (type : TypeRef) (names : List (Option String)) : Option Tuple :=
  if type.isValueTuple then some (ofElements none type.arguments names)
  else
    match type.arguments with
    | [inner] =>
      if inner.isValueTuple then some (ofElements (some (type.displayBare false)) inner.arguments names) else none
    | _ => none

end Tuple

namespace TypeRef

def referent (type : TypeRef) : TypeRef × Bool :=
  match type.shape with
  | .byRef element => (element, true)
  | _ => (type, false)

end TypeRef

namespace Parameter

/-- A reference is passed with `ref` unless its modifier says otherwise. -/
def resolve (parameter : Parameter) : ResolvedParameter :=
  let (type, isRef) := parameter.type.referent
  { name := parameter.name.filter (· ≠ "")
    type := type.display false
    keyword := parameter.modifier.keyword?.or (if isRef then some "ref" else none)
    tuple := parameter.tupleNames.bind (Tuple.of? type) }

end Parameter

/-! ### Methods -/

def instantiated (argument given : TypeRef) : TypeRef :=
  if argument.isGenericParameter && !given.isGenericParameter then given else argument

/-- The generic arguments of a method as they are shown. A type that the compiler made up repeats
the method's parameters at the end of its own arguments, with the types that they stand for. -/
def shownArguments (arguments : List TypeRef) (runtime : Option TypeRef) : List TypeRef :=
  match runtime with
  | none => arguments
  | some type =>
    if type.isGenerated ∧ arguments.length ≤ type.arguments.length then
      List.zipWith instantiated arguments (type.arguments.drop (type.arguments.length - arguments.length))
    else arguments

def genericDisplay? (arguments : List TypeRef) (runtime : Option TypeRef) : Option String :=
  TypeRef.displayArguments? (shownArguments arguments runtime)

namespace Method

def parameters? (method : Method) : Except Failure (List ResolvedParameter) :=
  if method.stripped then .error (.stripped method.id) else .ok (method.parameters.map Parameter.resolve)

def outline (origin : Origin) : ResolvedMethod where
  declaringType := origin.declaringType.map (TypeRef.display true)
  name := origin.name
  isAsync := origin.machine = some .async
  returns := origin.target.bind fun target => target.returns.map Parameter.resolve

def targetParameters? (origin : Origin) : Except Failure (Option (List ResolvedParameter)) :=
  match origin.target with
  | some target => some <$> target.parameters?
  | none => .ok none

def hostParameters (host : Option Method) : List ResolvedParameter :=
  match host.map parameters? with
  | some (.ok parameters) => parameters
  | _ => []

/-- The method whose generic arguments are shown: the host of a closure, else the code that runs. -/
def genericSource? (origin : Origin) : Option Method := (origin.closure.bind (·.host)).or origin.target

/-- What is shown for a method. It fails only where the parameters of the code that runs are stripped. -/
def resolve (method : Method) : Except Failure ResolvedMethod := do
  let origin := Origin.of method
  let parameters ← targetParameters? origin
  let shown := { outline origin with
    generics := (genericSource? origin).bind fun source =>
      genericDisplay? source.genericArguments method.declaringType }
  match origin.closure with
  | some closure => return { shown with
      isLambda := true
      ordinal := closure.ordinal
      subName := some closure.name
      subParameters := parameters
      parameters := hostParameters closure.host }
  | none => return { shown with
      kind := .ofName origin.name
      parameters := parameters.getD [] }

end Method

/-! ### Frames -/

structure Location where
  file : String
  line : Option UInt32 := none

namespace Location

def text (location : Location) : String :=
  match location.line with
  | some line => location.file ++ ":" ++ Text.decimalText line.toNat
  | none => location.file

end Location

/-- A frame of a call stack. Its raw text is shown where the method cannot be. -/
structure RawFrame where
  method : Option Method := none
  file : Option String := none
  line : Option UInt32 := none
  text : String
  unresolved : Bool := false

namespace RawFrame

def ofMethod (method : Method) : RawFrame := { method := some method, text := "at " ++ method.name }

def ofText (text : String) : RawFrame := { text, unresolved := true }

/-- Line 0 stands for an unknown line. -/
def located (frame : RawFrame) (file : String) (line : Option UInt32) : RawFrame :=
  { frame with file := some file, line := line.filter (· ≠ 0) }

def withText (frame : RawFrame) (text : String) : RawFrame := { frame with text }

def location (frame : RawFrame) : Option Location :=
  (frame.file.filter (· ≠ "")).map fun file => ⟨file, frame.line.filter (· ≠ 0)⟩

end RawFrame

inductive ResolvedFrame
  | method (shown : ResolvedMethod) (location : Option Location)
  | raw (text : String)

namespace ResolvedFrame

def method? : ResolvedFrame → Option ResolvedMethod
  | .method shown _ => some shown
  | .raw _ => none

def isRaw (frame : ResolvedFrame) : Bool := frame.method?.isNone

end ResolvedFrame

end Backtrace
