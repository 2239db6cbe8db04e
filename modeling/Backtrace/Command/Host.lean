import Backtrace.Options

/-!
What a run needs of its surroundings, and how it makes its log file there: the path of the file is taken apart, and the
directories that are missing on it are made.
-/
namespace Backtrace

/-! ### Paths -/

inductive FileFault
  | noEntry
  | exists
  | notDirectory
  | isDirectory
  | nameTooLong
  | notText
  | other (text : String)
deriving DecidableEq

namespace FileFault

def message : FileFault → String
  | .noEntry => "No such file or directory (os error 2)"
  | .exists => "File exists (os error 17)"
  | .notDirectory => "Not a directory (os error 20)"
  | .isDirectory => "Is a directory (os error 21)"
  | .nameTooLong => "File name too long (os error 36)"
  | .notText => "stream did not contain valid UTF-8"
  | .other text => text

end FileFault

/-- A path as it is written: how it starts, and its parts between slashes. A path that starts at the
root or at the current directory says so before its parts. -/
structure Path where
  start : String
  parts : List String

namespace Path

def isIdle (part : String) : Bool := part = "" || part = "."

def ofText (text : String) : Path :=
  match text.splitOn "/" with
  | "" :: part :: parts => ⟨"/", part :: parts⟩
  | "." :: parts => ⟨"./", parts⟩
  | parts => ⟨"", parts⟩

def text (path : Path) : String :=
  if path.parts.isEmpty ∧ path.start ≠ "/" then "." else path.start ++ "/".intercalate path.parts

/-- The directory that a path lies in and its name there, if it ends in one. What leads nowhere behind
either is dropped; the rest of the directory stays as it is written. -/
def split? (path : Path) : Option (Path × String) :=
  match path.parts.reverse.dropWhile isIdle with
  | [] => none
  | ".." :: _ => none
  | name :: above => some ({ path with parts := (above.dropWhile isIdle).reverse }, name)

end Path

def joinPath (directory path : String) : String :=
  if path.toList.head? = some '/' then path
  else if directory = "" ∨ directory.toList.getLast? = some '/' then directory ++ path
  else directory ++ "/" ++ path

def logFile (path : String) (isDirectory : Bool) (today : String) : String :=
  if isDirectory then joinPath path (today ++ "-demyst.log") else path

/-! ### Hosts -/

structure Host (m : Type → Type) where
  today : m String
  isDirectory : String → m Bool
  makeDirectory : String → m (Except FileFault Unit)
  /-- Makes an empty file, unless there is a file already. -/
  makeFile : String → m (Except FileFault Unit)
  readFile : String → m (Except FileFault ByteArray)
  readInput : m (Except FileFault ByteArray)
  print : String → m Unit
  complain : String → m Unit

inductive LogFault
  | noName (path : String)
  | directory (fault : FileFault)
  | file (fault : FileFault)
deriving DecidableEq

namespace LogFault

def message : LogFault → String
  | .noName path => "Invalid log file path: " ++ path
  | .directory fault => "File logging error: " ++ fault.message
  | .file fault => "Failed to initialize logging: failed to create log file: " ++ fault.message

end LogFault

namespace Host

variable {m : Type → Type} [Monad m]

def ensureDirectory (host : Host m) (path : Path) : m (Except FileFault Unit) := do
  match ← host.makeDirectory path.text with
  | .ok () => return .ok ()
  | .error fault => return if ← host.isDirectory path.text then .ok () else .error fault

/-- Makes a directory, given by its parts from the last to the first, and those above it where one
is missing. -/
def ensureDirectories (host : Host m) (start : String) : List String → m (Except FileFault Unit)
  | [] => return .ok ()
  | part :: above =>
    if Path.isIdle part then ensureDirectories host start above
    else do
      let path : Path := ⟨start, (part :: above).reverse⟩
      match ← host.ensureDirectory path with
      | .error .noEntry =>
        match ← ensureDirectories host start above with
        | .ok () => host.ensureDirectory path
        | .error fault => return .error fault
      | result => return result

def startLog (host : Host m) (environment : Environment) : m (Except LogFault Unit) := do
  match environment "DEMYST_LOG_FILE" with
  | none => return .ok ()
  | some given =>
    let target := logFile given (← host.isDirectory given) (← host.today)
    match (Path.ofText target).split? with
    | none => return .error (.noName target)
    | some (directory, name) =>
      match ← host.ensureDirectories directory.start directory.parts.reverse with
      | .error fault => return .error (.directory fault)
      | .ok () =>
        match ← host.makeFile (joinPath directory.text name) with
        | .error fault => return .error (.file fault)
        | .ok () => return .ok ()

end Host

end Backtrace
