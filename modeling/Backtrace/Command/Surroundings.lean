import Backtrace.Command.Host

/-!
A host whose files are a tree in memory and whose outputs are kept. A path is followed part by part in the tree, and
each part but the last has to lead to a directory.
-/
namespace Backtrace

/-! ### Trees of files -/

inductive Entry
  | file (bytes : ByteArray)
  | directory (entries : List (String × Entry))

abbrev Place := List String

namespace Entry

def entries : Entry → List (String × Entry)
  | .file _ => []
  | .directory entries => entries

/-- What stands at a place, changed at a place below it. Whatever lies on the way there becomes a
directory and keeps what it holds. -/
def alter (change : Option Entry → Entry) : Place → Option Entry → Entry
  | [], held => change held
  | name :: place, held =>
    let entries := (held.map Entry.entries).getD []
    .directory ((name, alter change place (entries.lookup name)) :: entries.filter (·.1 ≠ name))

end Entry

def maxName : Nat := 255

def maxPath : Nat := 4095

/-- A place that a path has led to: what stands there, and the names that lead to it with the
directories that hold them, the nearest first. -/
structure Spot where
  here : Option Entry
  above : List (String × Entry) := []

namespace Spot

def place (spot : Spot) : Place := (spot.above.map (·.1)).reverse

def up (spot : Spot) : Spot :=
  match spot.above with
  | [] => spot
  | (_, directory) :: above => ⟨some directory, above⟩

def step (spot : Spot) (part : String) : Except FileFault Spot :=
  match spot.here with
  | none => .error .noEntry
  | some (.file _) => .error .notDirectory
  | some (.directory entries) =>
    if maxName < part.utf8ByteSize then .error .nameTooLong
    else if part = "" ∨ part = "." then .ok spot
    else if part = ".." then .ok spot.up
    else .ok ⟨entries.lookup part, (part, .directory entries) :: spot.above⟩

end Spot

structure FileTree where
  entries : List (String × Entry)

namespace FileTree

def empty : FileTree := ⟨[]⟩

def root (tree : FileTree) : Entry := .directory tree.entries

def alter (tree : FileTree) (place : Place) (change : Option Entry → Entry) : FileTree :=
  ⟨(Entry.alter change place (some tree.root)).entries⟩

def addFile (tree : FileTree) (place : Place) (bytes : ByteArray) : FileTree :=
  tree.alter place fun _ => .file bytes

def addDirectory (tree : FileTree) (place : Place) : FileTree :=
  tree.alter place fun held => .directory ((held.map Entry.entries).getD [])

def find (tree : FileTree) (here : Place) (path : String) : Except FileFault Spot := do
  if path = "" then .error .noEntry
  else if maxPath < path.utf8ByteSize then .error .nameTooLong
  else
    let above := if path.toList.head? = some '/' then [] else here
    (above ++ path.splitOn "/").foldlM Spot.step ⟨some tree.root, []⟩

def isDirectory (tree : FileTree) (here : Place) (path : String) : Bool :=
  match tree.find here path with
  | .ok ⟨some (.directory _), _⟩ => true
  | _ => false

def read (tree : FileTree) (here : Place) (path : String) : Except FileFault ByteArray := do
  match (← tree.find here path).here with
  | some (.file bytes) => .ok bytes
  | some (.directory _) => .error .isDirectory
  | none => .error .noEntry

def makeDirectory (tree : FileTree) (here : Place) (path : String) : Except FileFault FileTree := do
  let spot ← tree.find here path
  if spot.here.isSome then .error .exists
  return tree.addDirectory spot.place

def makeFile (tree : FileTree) (here : Place) (path : String) : Except FileFault (Option Place × FileTree) := do
  let spot ← tree.find here path
  match spot.here with
  | some (.file _) => return (none, tree)
  | some (.directory _) => .error .isDirectory
  | none => return (some spot.place, tree.addFile spot.place .empty)

end FileTree

/-! ### Surroundings -/

structure Surroundings where
  tree : FileTree
  /-- The directory that relative paths start from. -/
  here : Place := []
  input : ByteArray := .empty
  today : String
  output : String := ""
  complaints : String := ""
  /-- The files that were made, the last one first. -/
  made : List Place := []

namespace Surroundings

def makeDirectory (path : String) (s : Surroundings) : Except FileFault Unit × Surroundings :=
  match s.tree.makeDirectory s.here path with
  | .ok tree => (.ok (), { s with tree })
  | .error fault => (.error fault, s)

def makeFile (path : String) (s : Surroundings) : Except FileFault Unit × Surroundings :=
  match s.tree.makeFile s.here path with
  | .ok (made, tree) => (.ok (), { s with tree, made := made.toList ++ s.made })
  | .error fault => (.error fault, s)

def host : Host (StateM Surroundings) where
  today s := (s.today, s)
  isDirectory path s := (s.tree.isDirectory s.here path, s)
  makeDirectory := makeDirectory
  makeFile := makeFile
  readFile path s := (s.tree.read s.here path, s)
  readInput s := (.ok s.input, s)
  print text s := ((), { s with output := s.output ++ text })
  complain line s := ((), { s with complaints := s.complaints ++ line ++ "\n" })

end Surroundings

end Backtrace
