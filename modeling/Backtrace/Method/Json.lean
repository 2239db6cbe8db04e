import Backtrace.TypeRef.Json
import Backtrace.Method

/-! Parameters and methods in JSON. -/
namespace Backtrace
open Json

def nullOr (write : α → Node) (value : Option α) : Node := (value.map write).getD .null

namespace MethodId

def ofJson (node : Node) : Decoded MethodId := do return ⟨UInt64.ofNat (← node.asNatural UInt64.size)⟩

def toJson (id : MethodId) : Node := .natural id.value.toNat

end MethodId

namespace Modifier

def words : List (String × Modifier) :=
  [("none", .none), ("ref", .ref), ("out", .out), ("in", .in), ("params", .params)]

def word : Modifier → String
  | .none => "none"
  | .ref => "ref"
  | .out => "out"
  | .in => "in"
  | .params => "params"

end Modifier

structure ParameterDraft where
  name : Option (Option String) := none
  type : Option TypeRef := none
  modifier : Option Modifier := none
  tupleNames : Option (Option (List (Option String))) := none

namespace ParameterDraft

def finish (draft : ParameterDraft) : Decoded Parameter := do
  return {
    name := draft.name.join
    type := ← required draft.type
    modifier := draft.modifier.getD .none
    tupleNames := draft.tupleNames.join }

end ParameterDraft

def parameterFields (depth : Nat) : Fields ParameterDraft where
  names := ["name", "type", "modifier", "tuple_element_names"]
  blank := {}
  take draft key value := match key with
    | "name" => return { draft with name := ← once draft.name (value.asOption Node.asText) }
    | "type" => return { draft with type := ← once draft.type (TypeRef.ofJson depth .direct value) }
    | "modifier" => return { draft with modifier := ← once draft.modifier (word? Modifier.words depth value) }
    | "tuple_element_names" => return { draft with
        tupleNames := ← once draft.tupleNames
          (value.asOption (Node.asListAt depth fun _ => Node.asOption Node.asText)) }
    | _ => do value.pass; return draft

namespace Parameter

def ofJson (depth : Nat) : Node → Decoded Parameter := recordAt depth parameterFields ParameterDraft.finish

def toJson (parameter : Parameter) : Node := .record [
  ("name", nullOr .text parameter.name),
  ("type", parameter.type.toJson),
  ("modifier", .text parameter.modifier.word),
  ("tuple_element_names", nullOr (fun names => .list (names.map (nullOr .text))) parameter.tupleNames)]

end Parameter

def linkFields (name : String) : Fields (Option (Option MethodId)) where
  names := [name]
  blank := none
  take draft key value :=
    if key = name then once draft (value.asOption MethodId.ofJson)
    else do value.pass; return draft

namespace Synthesis

def kinds : List String := ["unknown", "plain", "async_state_machine", "iterator_state_machine", "closure"]

def ofParts (parts : Parts) : String → Decoded Synthesis
  | "unknown" => do parts.decodeUnit; return .unknown
  | "plain" => do parts.decodeUnit; return .plain
  | "async_state_machine" => return .asyncMachine (← parts.decode (linkFields "origin")).join
  | "iterator_state_machine" => return .iteratorMachine (← parts.decode (linkFields "origin")).join
  | "closure" => return .closure (← parts.decode (linkFields "host")).join
  | _ => .error .mismatch

def ofJson (depth : Nat) (node : Node) : Decoded Synthesis :=
  match depth with
  | 0 => .error node.refusalAtLimit
  | depth + 1 => do
    let (kind, parts) ← kindAndParts kinds .direct depth node
    ofParts parts kind

def toJson : Synthesis → Node
  | .unknown => .record [("kind", .text "unknown")]
  | .plain => .record [("kind", .text "plain")]
  | .asyncMachine origin => .record [("kind", .text "async_state_machine"), ("origin", nullOr MethodId.toJson origin)]
  | .iteratorMachine origin =>
    .record [("kind", .text "iterator_state_machine"), ("origin", nullOr MethodId.toJson origin)]
  | .closure host => .record [("kind", .text "closure"), ("host", nullOr MethodId.toJson host)]

end Synthesis

structure MethodDraft where
  id : Option MethodId := none
  name : Option String := none
  declaringType : Option (Option TypeRef) := none
  returns : Option (Option Parameter) := none
  parameters : Option (List Parameter) := none
  genericArguments : Option (List TypeRef) := none
  synthesis : Option Synthesis := none
  stripped : Option Bool := none

namespace MethodDraft

def finish (draft : MethodDraft) : Decoded MethodRecord := do
  return {
    id := ← required draft.id
    name := ← required draft.name
    declaringType := draft.declaringType.join
    returns := draft.returns.join
    parameters := draft.parameters.getD []
    genericArguments := draft.genericArguments.getD []
    synthesis := draft.synthesis.getD .unknown
    stripped := draft.stripped.getD false }

end MethodDraft

def methodFields (depth : Nat) : Fields MethodDraft where
  names := ["id", "name", "declaring_type", "returns", "parameters", "generic_arguments", "synthesis", "stripped"]
  blank := {}
  take draft key value := match key with
    | "id" => return { draft with id := ← once draft.id (MethodId.ofJson value) }
    | "name" => return { draft with name := ← once draft.name value.asText }
    | "declaring_type" => return { draft with
        declaringType := ← once draft.declaringType (value.asOption (TypeRef.ofJson depth .direct)) }
    | "returns" => return { draft with returns := ← once draft.returns (value.asOption (Parameter.ofJson depth)) }
    | "parameters" => return { draft with
        parameters := ← once draft.parameters (value.asListAt depth Parameter.ofJson) }
    | "generic_arguments" => return { draft with
        genericArguments := ← once draft.genericArguments
          (value.asListAt depth fun depth => TypeRef.ofJson depth .direct) }
    | "synthesis" => return { draft with synthesis := ← once draft.synthesis (Synthesis.ofJson depth value) }
    | "stripped" => return { draft with stripped := ← once draft.stripped value.asBool }
    | _ => do value.pass; return draft

namespace MethodRecord

def ofJson (depth : Nat) : Node → Decoded MethodRecord := recordAt depth methodFields MethodDraft.finish

def toJson (method : MethodRecord) : Node := .record [
  ("id", method.id.toJson),
  ("name", .text method.name),
  ("declaring_type", TypeRef.optionToJson method.declaringType),
  ("returns", nullOr Parameter.toJson method.returns),
  ("parameters", .list (method.parameters.map Parameter.toJson)),
  ("generic_arguments", .list (TypeRef.listToJson method.genericArguments)),
  ("synthesis", method.synthesis.toJson),
  ("stripped", .bool method.stripped)]

end MethodRecord

end Backtrace
