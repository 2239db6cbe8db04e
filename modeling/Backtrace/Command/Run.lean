import Backtrace.Command.Host
import Backtrace.Command.Request
import Backtrace.Trace.Json
import Backtrace.Trace
import Backtrace.Trace.Load

/-!
Running a command. All that can go wrong goes wrong before the first line is printed: a run that
fails has printed nothing.
-/
namespace Backtrace

inductive RunFault
  | log (fault : LogFault)
  | file (fault : FileFault)
  | json (problem : Json.Problem)
  | failure (failure : Failure)
deriving DecidableEq

namespace RunFault

def line : RunFault → String
  | .log fault => "Failed to initialize logging: " ++ fault.message
  | .file fault => "Error: IO error: " ++ fault.message
  | .json .malformed => "Error: JSON error: malformed text"
  | .json .truncated => "Error: JSON error: unexpected end of text"
  | .json .mismatch => "Error: JSON error: unexpected shape"
  | .failure reason => "Error: " ++ reason.message

end RunFault

def block (text : String) : String := if text.toList.getLast? = some '\n' then text else text ++ "\n"

namespace Host

variable {m : Type → Type} [Monad m]

def attempt (fault : ε → RunFault) (action : m (Except ε α)) : ExceptT RunFault m α :=
  ExceptT.mk (Except.mapError fault <$> action)

def demand (fault : ε → RunFault) (value : Except ε α) : ExceptT RunFault m α :=
  ExceptT.mk (pure (value.mapError fault))

def textOf (bytes : ByteArray) : Except FileFault String :=
  match String.fromUTF8? bytes with
  | some text => .ok text
  | none => .error .notText

def readText (source : m (Except FileFault ByteArray)) : ExceptT RunFault m String := do
  demand .file (textOf (← attempt .file source))

def loadTrace (host : Host m) (file : String) : ExceptT RunFault m LoadedTrace := do
  let record ← demand .json (TraceRecord.ofText (← readText (host.readFile file)))
  demand .failure record.load

def printLine (host : Host m) (text : String) : m Unit := host.print (text ++ "\n")

def render (host : Host m) (options : Options) (trace : LoadedTrace) : m Unit := do
  let resolver := Resolver.ofOptions options
  match trace.exception with
  | some exception =>
    let (formatted, _) := options.formatException Exception.view [] exception (some trace.callSite) resolver
    host.printLine formatted.message
    host.print (block formatted.stackTrace)
  | none => host.print (block (options.formatTrace [] trace.callSite resolver).1)

def rows (options : Options) (trace : LoadedTrace) : Except Failure (List Row) :=
  let resolver := Resolver.ofOptions options
  match trace.exception with
  | some exception =>
    (options.aggregate Exception.view [] exception (some trace.callSite) resolver).1.map ExceptionTrace.rows
  | none => .ok (frameRows 0 (options.document [] trace.callSite resolver).1.frames)

def perform (host : Host m) (options : Options) : Command → ExceptT RunFault m Unit
  | .render file => do host.render options (← host.loadTrace file)
  | .frames file => do
    let rows ← demand .failure (rows options (← host.loadTrace file))
    rows.forM fun row => host.printLine (row.text (Renderer.ofOptions options))
  | .postprocess input => do
    let text ← readText (if input = "-" then host.readInput else host.readFile input)
    host.print ((Processor.ofOptions options).process text)

/-- The log first, then the options, then the command. Gives the exit status. -/
def run (host : Host m) (environment : Environment) (invocation : Invocation) : m UInt32 := do
  let work : ExceptT RunFault m Unit := do
    attempt .log (host.startLog environment)
    let options ← demand .failure (Options.build environment (.ofFlags invocation.flags))
    host.perform options invocation.command
  match ← work.run with
  | .ok () => return 0
  | .error fault =>
    host.complain fault.line
    return 1

def versionText : String := "demyst 0.0.0\n"

def helpText : String := "\n".intercalate [
  "Usage: demyst [FLAGS] render FILE | frames FILE | postprocess INPUT",
  "  --full-params --plain --no-cache --no-postprocess",
  "  --boundary TEXT --path-style STYLE --markup STYLE --font-size SIZE --continuation TEXT",
  "  --log-level LEVEL --log-format FORMAT", ""]

def serve (host : Host m) (environment : Environment) (arguments : List String) : m UInt32 := do
  match Request.ofArguments arguments with
  | .ok (.run invocation) => host.run environment invocation
  | .ok .version =>
    host.print versionText
    return 0
  | .ok .help =>
    host.print helpText
    return 0
  | .error fault =>
    host.complain ("usage: " ++ fault.message)
    return 2

end Host

end Backtrace
