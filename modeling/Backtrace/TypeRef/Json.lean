import Backtrace.Json.Decode
import Backtrace.TypeRef

/-! Type references in JSON. -/
namespace Backtrace
open Json

structure ElementDraft where
  element : Option TypeRef := none
  rank : Option Nat := none

def arrayFields (type : Node → Decoded TypeRef) : Fields ElementDraft where
  names := ["element", "rank"]
  blank := {}
  take draft key value := match key with
    | "element" => return { draft with element := ← once draft.element (type value) }
    | "rank" => return { draft with rank := ← once draft.rank (value.asNatural 256) }
    | _ => do value.pass; return draft

def elementFields (type : Node → Decoded TypeRef) : Fields (Option TypeRef) where
  names := ["element"]
  blank := none
  take draft key value := match key with
    | "element" => once draft (type value)
    | _ => do value.pass; return draft

namespace Shape

def kinds : List String := ["named", "generic_parameter", "array", "pointer", "by_ref"]

def ofParts (type : Node → Decoded TypeRef) (parts : Parts) : String → Decoded (Shape TypeRef)
  | "named" => do parts.decodeUnit; return .named
  | "generic_parameter" => do parts.decodeUnit; return .genericParameter
  | "array" => do
    let draft ← parts.decode (arrayFields type)
    return .array (← required draft.element) (UInt8.ofNat (← required draft.rank))
  | "pointer" => return .pointer (← required (← parts.decode (elementFields type)))
  | "by_ref" => return .byRef (← required (← parts.decode (elementFields type)))
  | _ => .error .mismatch

/-- Decodes a shape. `type` decodes the types among its parts, which have been set aside. -/
def ofJson (depth : Nat) (source : Source) (type : Node → Decoded TypeRef) (node : Node) :
    Decoded (Shape TypeRef) := do
  let (kind, parts) ← kindAndParts kinds source depth node
  ofParts type parts kind

end Shape

structure TypeDraft where
  space : Option (Option String) := none
  name : Option String := none
  arguments : Option (List TypeRef) := none
  enclosing : Option (Option TypeRef) := none
  shape : Option (Shape TypeRef) := none

namespace TypeDraft

def finish (draft : TypeDraft) : Decoded TypeRef := do
  return {
    space := draft.space.join
    name := ← required draft.name
    arguments := draft.arguments.getD []
    enclosing := draft.enclosing.join
    shape := draft.shape.getD .named }

end TypeDraft

def typeFields (depth : Nat) (source : Source) (type : Node → Decoded TypeRef)
    (inner : Option (Source → Node → Decoded TypeRef)) : Fields TypeDraft where
  names := ["namespace", "name", "generic_arguments", "enclosing", "shape"]
  blank := {}
  take draft key value := match key with
    | "namespace" => return { draft with space := ← once draft.space (value.asOption Node.asText) }
    | "name" => return { draft with name := ← once draft.name value.asText }
    | "generic_arguments" => return { draft with
        arguments := ← once draft.arguments (value.asList (inner.map (· source))) }
    | "enclosing" => return { draft with enclosing := ← once draft.enclosing (value.asOption type) }
    | "shape" => return { draft with shape := ← once draft.shape (match inner with
        | none => .error value.refusalAtLimit
        | some inner => Shape.ofJson (depth - 1) source (inner .setAside) value) }
    | _ => do value.pass; return draft

namespace TypeRef

/-- Decodes a type. -/
def ofJson : (depth : Nat) → Source → Node → Decoded TypeRef
  | 0, _, node => .error node.refusalAtLimit
  | depth + 1, source, node => do
    let inner := match depth with
      | 0 => none
      | depth + 1 => some (ofJson depth)
    let draft ← (typeFields depth source (ofJson depth source) inner).decode source node
    draft.finish

mutual
def toJson : TypeRef → Node
  | ⟨space, name, arguments, enclosing, shape⟩ => .record [
    ("namespace", (space.map Node.text).getD .null),
    ("name", .text name),
    ("generic_arguments", .list (listToJson arguments)),
    ("enclosing", optionToJson enclosing),
    ("shape", match shape with
      | .named => .record [("kind", .text "named")]
      | .genericParameter => .record [("kind", .text "generic_parameter")]
      | .array element rank => .record [
        ("kind", .text "array"), ("element", toJson element), ("rank", .natural rank.toNat)]
      | .pointer element => .record [("kind", .text "pointer"), ("element", toJson element)]
      | .byRef element => .record [("kind", .text "by_ref"), ("element", toJson element)])]

def listToJson : List TypeRef → List Node
  | [] => []
  | type :: types => toJson type :: listToJson types

def optionToJson : Option TypeRef → Node
  | none => .null
  | some type => toJson type
end

end TypeRef

end Backtrace
