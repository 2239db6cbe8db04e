import Backtrace.Command.Run
import Std.Time.DateTime

/-! The program: the machine it runs on as the host of a run. -/
namespace Backtrace

/-- A fault by the system's number for it, which some actions give with its sign turned. -/
def FileFault.ofError : IO.Error → FileFault
  | .noFileOrDirectory _ _ _ => .noEntry
  | .alreadyExists _ _ _ => .exists
  | .inappropriateType _ code _ => if code = 21 ∨ code = 0 - 21 then .isDirectory else .notDirectory
  | .invalidArgument file code details =>
    if code = 36 ∨ code = 0 - 36 then .nameTooLong
    else .other (toString (IO.Error.invalidArgument file code details))
  | error => .other (toString error)

def guarded (action : IO α) : IO (Except FileFault α) := do
  return (← action.toBaseIO).mapError FileFault.ofError

partial def readAll (stream : IO.FS.Stream) (bytes : ByteArray) : IO ByteArray := do
  let more ← stream.read 65536
  if more.isEmpty then return bytes else readAll stream (bytes ++ more)

def padded (width n : Nat) : String :=
  let digits := Nat.toDigits 10 n
  String.ofList (List.replicate (width - digits.length) '0' ++ digits)

def dateOfToday : IO String := do
  let date := Std.Time.PlainDate.ofEpochDay (← Std.Time.Timestamp.now).toDaysSinceUnixEpoch
  return padded 4 date.year.toNat ++ "-" ++ padded 2 date.month.toNat ++ "-" ++ padded 2 date.day.toNat

/-- The machine. A path that goes on behind a slash is one of a directory. -/
def machine : Host IO where
  today := dateOfToday
  isDirectory path := do
    if path.isEmpty then return false
    return (← guarded (IO.FS.realPath (path ++ "/."))).toBool
  makeDirectory path := guarded (IO.FS.createDir path)
  makeFile path := guarded do discard (IO.FS.Handle.mk path .append)
  readFile path := guarded (IO.FS.readBinFile path)
  readInput := guarded do readAll (← IO.getStdin) .empty
  print text := do (← IO.getStdout).putStr text
  complain line := do (← IO.getStderr).putStrLn line

def watchedKeys : List String := ["DEMYST_LOG_FILE", "DEMYST_PATH_STYLE", "DEMYST_MARKUP", "DEMYST_FONT_SIZE",
  "DEMYST_NO_MARKUP", "DEMYST_FULL_PARAMS", "DEMYST_NO_CACHE", "DEMYST_NO_POSTPROCESS", "DEMYST_BOUNDARY"]

end Backtrace

def main (arguments : List String) : IO UInt32 := do
  let values ← Backtrace.watchedKeys.mapM fun key => do return (key, ← IO.getEnv key)
  Backtrace.machine.serve (fun key => (values.lookup key).join) arguments
