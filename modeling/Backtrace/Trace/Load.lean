import Backtrace.Method.Table
import Backtrace.Symbol
import Backtrace.Trace
import Backtrace.Trace.Json

/-! Loading a recorded trace: linking its methods and building its frames. -/
namespace Backtrace

namespace FrameRecord

/-- A frame before its text is replaced and its place is added. A method comes before a symbol, and a
symbol before a text. -/
def base (table : MethodTable) (record : FrameRecord) : Except Failure RawFrame :=
  match record.method, record.symbol with
  | some id, _ =>
    match table.get? id with
    | some method => .ok (.ofMethod method)
    | none => .error (.unknownFrameMethod id)
  | none, some symbol => .ok (.ofText (Symbol.frameText symbol record.address))
  | none, none => .ok (.ofText (record.text.getD "at <unknown>"))

def load (table : MethodTable) (record : FrameRecord) : Except Failure RawFrame := do
  let frame ← record.base table
  let frame := match record.text with
    | some text => frame.withText text
    | none => frame
  return match record.file with
    | some file => frame.located file record.line
    | none => frame

end FrameRecord

structure Exception where
  type : String
  message : String
  frames : List RawFrame
  inner : Option Exception

namespace Exception

def load (table : MethodTable) : ExceptionRecord → Except Failure Exception
  | ⟨type, message, frames, inner⟩ => do
    let frames ← frames.mapM (FrameRecord.load table)
    match inner with
    | none => return { type, message, frames, inner := none }
    | some inner => return { type, message, frames, inner := some (← load table inner) }

def view : ExceptionView Exception where
  type := Exception.type
  message := Exception.message
  cause := Exception.inner
  frames := Exception.frames

end Exception

structure LoadedTrace where
  methods : MethodTable
  exception : Option Exception
  callSite : List RawFrame

namespace TraceRecord

def loadWith (methods : MethodTable) (trace : TraceRecord) : Except Failure LoadedTrace := do
  let exception ← trace.exception.mapM (Exception.load methods)
  let callSite ← trace.callSite.mapM (FrameRecord.load methods)
  return { methods, exception, callSite }

def load (trace : TraceRecord) : Except Failure LoadedTrace := do
  trace.loadWith (← MethodTable.build trace.methods)

end TraceRecord

end Backtrace
