import Backtrace.Line

/-!
The grammar of the markers of a line. Regions of the return type and of the name stand side by side,
and the markers of the file region take turns. The regions of a line are in order exactly where its
markers are words of this grammar.
-/
namespace Backtrace

inductive Region
  | returnType
  | name
  | file
deriving DecidableEq

namespace Region

def opening : Region → Marker
  | .returnType => .returnStart
  | .name => .nameStart
  | .file => .fileStart

def closing : Region → Marker
  | .returnType => .returnEnd
  | .name => .nameEnd
  | .file => .fileEnd

end Region

namespace Marker

def isFile : Marker → Bool
  | .fileStart | .fileEnd => true
  | .returnStart | .returnEnd | .nameStart | .nameEnd => false

def ofText (cs : List Char) : List Marker := cs.filterMap ofSentinel?

def sides (markers : List Marker) : List Marker := markers.filter (!isFile ·)

def files (markers : List Marker) : List Marker := markers.filter isFile

theorem sides_cons (marker : Marker) (markers : List Marker) :
    sides (marker :: markers) = if isFile marker then sides markers else marker :: sides markers := by
  cases file : isFile marker <;> simp [sides, file]

theorem files_cons (marker : Marker) (markers : List Marker) :
    files (marker :: markers) = if isFile marker then marker :: files markers else files markers := by
  cases file : isFile marker <;> simp [files, file]

inductive Pairs (kinds : Region → Prop) : List Marker → Prop
  | nil : Pairs kinds []
  | pair {region : Region} {markers : List Marker} (kind : kinds region) (rest : Pairs kinds markers) :
      Pairs kinds (region.opening :: region.closing :: markers)

/-- The markers of the file region in turns, an opening one first. -/
inductive Alternating : List Marker → Prop
  | nil : Alternating []
  | open_ : Alternating [.fileStart]
  | pair {markers : List Marker} (rest : Alternating markers) : Alternating (.fileStart :: .fileEnd :: markers)

/-- The grammar of the markers of a line. -/
structure InOrder (markers : List Marker) : Prop where
  sides : Pairs (· ≠ .file) (sides markers)
  files : Alternating (files markers)

/-- Whether the file region stays open behind the last marker. -/
def leavesFileOpen (markers : List Marker) : Bool := (files markers).getLast? = some .fileStart

theorem pairs_cons_iff {kinds : Region → Prop} {marker : Marker} {markers : List Marker} :
    Pairs kinds (marker :: markers) ↔ ∃ region, kinds region ∧ marker = region.opening ∧
      ∃ rest, markers = region.closing :: rest ∧ Pairs kinds rest := by
  constructor
  · intro pairs
    cases pairs with
    | pair kind rest => exact ⟨_, kind, rfl, _, rfl, rest⟩
  · intro first
    obtain ⟨region, kind, rfl, rest, rfl, pairs⟩ := first
    exact .pair kind pairs

theorem not_pairs_closing {kinds : Region → Prop} (region : Region) {markers : List Marker} :
    ¬Pairs kinds (region.closing :: markers) := by
  intro pairs
  obtain ⟨other, -, same, -⟩ := pairs_cons_iff.1 pairs
  cases region <;> cases other <;> cases same

theorem alternating_cons_iff {marker : Marker} {markers : List Marker} :
    Alternating (marker :: markers) ↔ marker = .fileStart ∧
      (markers = [] ∨ ∃ rest, markers = .fileEnd :: rest ∧ Alternating rest) := by
  constructor
  · intro turns
    cases turns with
    | open_ => exact ⟨rfl, .inl rfl⟩
    | pair rest => exact ⟨rfl, .inr ⟨_, rfl, rest⟩⟩
  · rintro ⟨rfl, rfl | ⟨rest, rfl, turns⟩⟩
    · exact .open_
    · exact .pair turns

theorem pairs_of_alternating {markers : List Marker} (turns : Alternating markers) :
    Pairs (· = .file) (if markers.getLast? = some .fileStart then markers ++ [.fileEnd] else markers) := by
  induction turns with
  | nil => exact .nil
  | open_ => exact @Pairs.pair _ .file [] rfl .nil
  | @pair markers rest ih =>
    cases markers with
    | nil => exact @Pairs.pair _ .file [] rfl .nil
    | cons marker markers =>
      rw [List.getLast?_cons_cons, List.getLast?_cons_cons]
      split at ih <;> simp_all only [if_true, if_false, List.cons_append] <;>
        exact @Pairs.pair _ .file _ rfl ih

end Marker

namespace Regions
open Marker

def SidesFollow : (returnType name : Bool) → List Marker → Prop
  | false, false, markers => Pairs (· ≠ .file) markers
  | true, false, markers => ∃ rest, markers = .returnEnd :: rest ∧ Pairs (· ≠ .file) rest
  | false, true, markers => ∃ rest, markers = .nameEnd :: rest ∧ Pairs (· ≠ .file) rest
  | true, true, _ => False

def FilesFollow : (file : Bool) → List Marker → Prop
  | false, markers => Alternating markers
  | true, markers => markers = [] ∨ ∃ rest, markers = .fileEnd :: rest ∧ Alternating rest

structure Follows (open_ : Regions) (markers : List Marker) : Prop where
  sides : SidesFollow open_.returnType open_.name (sides markers)
  files : FilesFollow open_.file (files markers)

theorem follows_start {markers : List Marker} : Follows {} markers ↔ InOrder markers :=
  ⟨fun follows => ⟨follows.sides, follows.files⟩, fun order => ⟨order.sides, order.files⟩⟩

theorem pairs_opening_iff (region : Region) {markers : List Marker} (kind : region ≠ .file) :
    Pairs (· ≠ .file) (region.opening :: markers) ↔
      ∃ rest, markers = region.closing :: rest ∧ Pairs (· ≠ .file) rest := by
  rw [pairs_cons_iff]
  constructor
  · intro pairs
    obtain ⟨other, -, same, rest⟩ := pairs
    cases region <;> cases other <;> first | exact rest | cases same
  · intro rest
    exact ⟨region, kind, rfl, rest⟩

theorem follows_iff {open_ : Regions} {markers : List Marker} : Follows open_ markers ↔
    SidesFollow open_.returnType open_.name (Marker.sides markers) ∧
      FilesFollow open_.file (Marker.files markers) :=
  ⟨fun follows => ⟨follows.sides, follows.files⟩, fun follows => ⟨follows.1, follows.2⟩⟩

/-- A marker that is taken moves from what may follow to what may follow behind it. -/
theorem follows_cons_of_ok {open_ next : Regions} {marker : Marker}
    (single : ¬(open_.returnType = true ∧ open_.name = true))
    (moved : open_.mark marker = .ok next) (markers : List Marker) :
    Follows open_ (marker :: markers) ↔ Follows next markers := by
  obtain ⟨returnType, name, file⟩ := open_
  rw [follows_iff, follows_iff, sides_cons, files_cons]
  cases marker <;> simp only [mark] at moved <;> split at moved <;> cases moved
  case returnStart shut =>
    obtain ⟨rfl, rfl⟩ : returnType = false ∧ name = false := by simpa using shut
    exact and_congr_left' (pairs_opening_iff .returnType (by decide))
  case nameStart shut =>
    obtain ⟨rfl, rfl⟩ : name = false ∧ returnType = false := by simpa using shut
    exact and_congr_left' (pairs_opening_iff .name (by decide))
  case returnEnd opened =>
    obtain ⟨rfl, rfl⟩ : returnType = true ∧ name = false := by simp_all
    simp [isFile, SidesFollow]
  case nameEnd opened =>
    obtain ⟨rfl, rfl⟩ : returnType = false ∧ name = true := by simp_all
    simp [isFile, SidesFollow]
  case fileStart shut =>
    obtain rfl : file = false := by simpa using shut
    simp [isFile, FilesFollow, alternating_cons_iff]
  case fileEnd opened =>
    obtain rfl : file = true := opened
    simp [isFile, FilesFollow]

theorem single_of_ok {open_ next : Regions} {marker : Marker}
    (single : ¬(open_.returnType = true ∧ open_.name = true)) (moved : open_.mark marker = .ok next) :
    ¬(next.returnType = true ∧ next.name = true) := by
  cases marker <;> simp only [mark] at moved <;> split at moved <;> cases moved <;> simp_all

theorem not_follows_cons_of_error {open_ : Regions} {marker : Marker} {fault : RegionFault}
    (refused : open_.mark marker = .error fault) (markers : List Marker) :
    ¬Follows open_ (marker :: markers) := by
  obtain ⟨returnType, name, file⟩ := open_
  rw [follows_iff, sides_cons, files_cons]
  cases marker <;> simp only [mark] at refused <;> split at refused <;> cases refused
  case returnStart opened => cases returnType <;> cases name <;> simp_all [isFile, SidesFollow]
  case nameStart opened => cases returnType <;> cases name <;> simp_all [isFile, SidesFollow]
  case returnEnd shut =>
    cases name <;> simp_all [isFile, SidesFollow]
    exact fun pairs => absurd pairs (not_pairs_closing .returnType)
  case nameEnd shut =>
    cases returnType <;> simp_all [isFile, SidesFollow]
    exact fun pairs => absurd pairs (not_pairs_closing .name)
  case fileStart opened => simp_all [isFile, FilesFollow]
  case fileEnd shut => simp_all [isFile, FilesFollow, alternating_cons_iff]

theorem finish_ok_iff (open_ : Regions) : (∃ left, open_.finish = .ok left) ↔ Follows open_ [] := by
  obtain ⟨returnType, name, file⟩ := open_
  rw [follows_iff]
  cases returnType <;> cases name <;> cases file <;>
    simp [finish, SidesFollow, FilesFollow, Marker.sides, Marker.files, Pairs.nil, Alternating.nil]

/-- The markers behind a place are taken to the end exactly where they may follow. -/
theorem foldlM_mark_ok_iff (open_ : Regions) (single : ¬(open_.returnType = true ∧ open_.name = true))
    (markers : List Marker) :
    (∃ left, (do (← markers.foldlM mark open_).finish) = Except.ok left) ↔ Follows open_ markers := by
  induction markers generalizing open_ with
  | nil => exact finish_ok_iff open_
  | cons marker markers ih =>
    rw [List.foldlM_cons]
    cases moved : open_.mark marker with
    | error fault => simp [bind, Except.bind, not_follows_cons_of_error moved]
    | ok next =>
      rw [follows_cons_of_ok single moved]
      exact ih next (single_of_ok single moved)

theorem foldlM_step (line : List Char) (open_ : Regions) :
    line.foldlM step open_ = (ofText line).foldlM mark open_ := by
  induction line generalizing open_ with
  | nil => rfl
  | cons c line ih =>
    cases found : ofSentinel? c with
    | none => simpa [step, ofText, found, bind, Except.bind] using ih open_
    | some marker =>
      simp only [List.foldlM_cons, step, found, ofText, List.filterMap_cons]
      exact congrArg _ (funext ih)

/-- The regions of a line are in order exactly where its markers are a word of the grammar. -/
theorem ofLine_ok_iff (line : List Char) : (∃ left, ofLine line = .ok left) ↔ InOrder (ofText line) := by
  rw [← follows_start, ← foldlM_mark_ok_iff {} (by simp), ofLine, foldlM_step]

theorem file_of_foldlM_mark {open_ last : Regions} {markers : List Marker}
    (taken : markers.foldlM mark open_ = .ok last) :
    last.file = ((files markers).getLast?.map fun marker => decide (marker = .fileStart)).getD open_.file := by
  induction markers generalizing open_ with
  | nil => cases taken; rfl
  | cons marker markers ih =>
    rw [List.foldlM_cons] at taken
    cases moved : open_.mark marker with
    | error fault => simp [moved, bind, Except.bind] at taken
    | ok next =>
      rw [ih (by simpa [moved, bind, Except.bind] using taken), files_cons]
      cases marker <;> simp only [mark] at moved <;> split at moved <;> cases moved <;>
        simp only [isFile, if_true, Bool.false_eq_true, if_false, List.getLast?_cons] <;>
        cases (files markers).getLast? <;> simp

theorem left_of_ofLine {line : List Char} {left : Bool} (taken : ofLine line = .ok left) :
    left = leavesFileOpen (ofText line) := by
  rw [ofLine, foldlM_step] at taken
  cases moved : (ofText line).foldlM mark {} with
  | error fault => simp [moved, bind, Except.bind] at taken
  | ok last =>
    have file := file_of_foldlM_mark moved
    obtain ⟨returnType, name, open_⟩ := last
    cases returnType <;> cases name <;> simp [moved, bind, Except.bind, finish] at taken
    subst taken
    change open_ = _ at file
    rw [file, leavesFileOpen]
    cases (files (ofText line)).getLast? <;> simp

end Regions

end Backtrace
