import Backtrace.Text
import Backtrace.TypeRef

/-! Methods of a program: their metadata, and how compiled methods point at those they were made for. -/
namespace Backtrace

structure MethodId where
  value : UInt64
deriving DecidableEq

namespace MethodId

def text (id : MethodId) : String := "0x" ++ String.ofList (Text.hexPadded 8 id.value.toNat)

end MethodId

inductive Modifier
  | none
  | ref
  | out
  | «in»
  | params
deriving DecidableEq

namespace Modifier

def keyword? : Modifier → Option String
  | .none => Option.none
  | .ref => some "ref"
  | .out => some "out"
  | .in => some "in"
  | .params => some "params"

end Modifier

/-- A parameter or a return value. The names of tuple elements belong to the tuple type that it has
or wraps. -/
structure Parameter where
  name : Option String := none
  type : TypeRef
  modifier : Modifier := .none
  tupleNames : Option (List (Option String)) := none

/-- What the metadata says about a method that the compiler may have made up, with the method that it
was made for. -/
inductive Synthesis
  | unknown
  | plain
  | asyncMachine (origin : Option MethodId)
  | iteratorMachine (origin : Option MethodId)
  | closure (host : Option MethodId)
deriving DecidableEq

namespace Synthesis

def link? : Synthesis → Option MethodId
  | .unknown | .plain => none
  | .asyncMachine origin | .iteratorMachine origin => origin
  | .closure host => host

end Synthesis

structure MethodRecord where
  id : MethodId
  name : String
  declaringType : Option TypeRef := none
  returns : Option Parameter := none
  parameters : List Parameter := []
  genericArguments : List TypeRef := []
  synthesis : Synthesis := .unknown
  stripped : Bool := false

structure Method extends MethodRecord where
  link : Option Method := none

namespace Method

def record (method : Method) : MethodRecord := method.toMethodRecord

end Method

end Backtrace
