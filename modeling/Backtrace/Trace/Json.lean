import Backtrace.Method.Json

/-! Recorded traces: the methods, the exception with its causes and where it was seen, and how they stand in JSON. -/
namespace Backtrace

structure FrameRecord where
  method : Option MethodId := none
  file : Option String := none
  line : Option UInt32 := none
  text : Option String := none
  symbol : Option String := none
  address : Option UInt64 := none

structure ExceptionRecord where
  type : String
  message : String := ""
  frames : List FrameRecord := []
  inner : Option ExceptionRecord := none

structure TraceRecord where
  methods : List MethodRecord := []
  exception : Option ExceptionRecord := none
  callSite : List FrameRecord := []

open Json

structure FrameDraft where
  method : Option (Option MethodId) := none
  file : Option (Option String) := none
  line : Option (Option Nat) := none
  text : Option (Option String) := none
  symbol : Option (Option String) := none
  address : Option (Option Nat) := none

namespace FrameDraft

def finish (draft : FrameDraft) : FrameRecord where
  method := draft.method.join
  file := draft.file.join
  line := draft.line.join.map UInt32.ofNat
  text := draft.text.join
  symbol := draft.symbol.join
  address := draft.address.join.map UInt64.ofNat

end FrameDraft

def frameFields (_depth : Nat) : Fields FrameDraft where
  names := ["method", "file", "line", "text", "symbol", "address"]
  blank := {}
  take draft key value := match key with
    | "method" => return { draft with method := ← once draft.method (value.asOption MethodId.ofJson) }
    | "file" => return { draft with file := ← once draft.file (value.asOption Node.asText) }
    | "line" => return { draft with line := ← once draft.line (value.asOption (Node.asNatural UInt32.size)) }
    | "text" => return { draft with text := ← once draft.text (value.asOption Node.asText) }
    | "symbol" => return { draft with symbol := ← once draft.symbol (value.asOption Node.asText) }
    | "address" => return { draft with address := ← once draft.address (value.asOption (Node.asNatural UInt64.size)) }
    | _ => do value.pass; return draft

namespace FrameRecord

def ofJson (depth : Nat) : Node → Decoded FrameRecord := recordAt depth frameFields fun draft => .ok draft.finish

def toJson (frame : FrameRecord) : Node := .record [
  ("method", nullOr MethodId.toJson frame.method),
  ("file", nullOr .text frame.file),
  ("line", nullOr (fun line => .natural line.toNat) frame.line),
  ("text", nullOr .text frame.text),
  ("symbol", nullOr .text frame.symbol),
  ("address", nullOr (fun address => .natural address.toNat) frame.address)]

end FrameRecord

structure ExceptionDraft where
  type : Option String := none
  message : Option String := none
  frames : Option (List FrameRecord) := none
  inner : Option (Option ExceptionRecord) := none

namespace ExceptionDraft

def finish (draft : ExceptionDraft) : Decoded ExceptionRecord := do
  return {
    type := ← required draft.type
    message := draft.message.getD ""
    frames := draft.frames.getD []
    inner := draft.inner.join }

end ExceptionDraft

def exceptionFields (depth : Nat) (exception : Node → Decoded ExceptionRecord) : Fields ExceptionDraft where
  names := ["type", "message", "frames", "inner"]
  blank := {}
  take draft key value := match key with
    | "type" => return { draft with type := ← once draft.type value.asText }
    | "message" => return { draft with message := ← once draft.message value.asText }
    | "frames" => return { draft with frames := ← once draft.frames (value.asListAt depth FrameRecord.ofJson) }
    | "inner" => return { draft with inner := ← once draft.inner (value.asOption exception) }
    | _ => do value.pass; return draft

namespace ExceptionRecord

def ofJson : (depth : Nat) → Node → Decoded ExceptionRecord
  | 0, node => .error node.refusalAtLimit
  | depth + 1, node => do
    let draft ← (exceptionFields depth (ofJson depth)).decode .direct node
    draft.finish

def toJson : ExceptionRecord → Node
  | ⟨type, message, frames, inner⟩ => .record [
    ("type", .text type),
    ("message", .text message),
    ("frames", .list (frames.map FrameRecord.toJson)),
    ("inner", match inner with
      | none => .null
      | some inner => toJson inner)]

end ExceptionRecord

structure TraceDraft where
  methods : Option (List MethodRecord) := none
  exception : Option (Option ExceptionRecord) := none
  callSite : Option (List FrameRecord) := none

namespace TraceDraft

def finish (draft : TraceDraft) : TraceRecord where
  methods := draft.methods.getD []
  exception := draft.exception.join
  callSite := draft.callSite.getD []

end TraceDraft

def traceFields (depth : Nat) : Fields TraceDraft where
  names := ["methods", "exception", "call_site"]
  blank := {}
  take draft key value := match key with
    | "methods" => return { draft with methods := ← once draft.methods (value.asListAt depth MethodRecord.ofJson) }
    | "exception" => return { draft with
        exception := ← once draft.exception (value.asOption (ExceptionRecord.ofJson depth)) }
    | "call_site" => return { draft with callSite := ← once draft.callSite (value.asListAt depth FrameRecord.ofJson) }
    | _ => do value.pass; return draft

namespace TraceRecord

def ofJson (depth : Nat) : Node → Decoded TraceRecord := recordAt depth traceFields fun draft => .ok draft.finish

def toJson (trace : TraceRecord) : Node := .record [
  ("methods", .list (trace.methods.map MethodRecord.toJson)),
  ("exception", nullOr ExceptionRecord.toJson trace.exception),
  ("call_site", .list (trace.callSite.map FrameRecord.toJson))]

end TraceRecord

namespace Json

def ofText (decode : Node → Decoded α) (text : String) : Decoded α := do
  let tree := Tree.ofText text
  let value ← decode tree.root
  unless tree.clean do .error .malformed
  return value

end Json

def TraceRecord.ofText (text : String) : Json.Decoded TraceRecord := Json.ofText (ofJson Json.maxDepth) text

end Backtrace
