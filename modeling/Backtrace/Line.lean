/-!
Lines with marked regions. A line can be written with a private character for each mark, which a later stage finds
again; where its texts hold no such character, nothing is lost. The return type and the name stand side by side; the
file region is independent of both and may stay open up to the end of the line.
-/
namespace Backtrace

/-! ### Parts of lines -/

inductive Marker
  | returnStart
  | returnEnd
  | nameStart
  | nameEnd
  | fileStart
  | fileEnd
deriving DecidableEq

namespace Marker

def all : List Marker := [.returnStart, .returnEnd, .nameStart, .nameEnd, .fileStart, .fileEnd]

def sentinel : Marker → Char
  | .returnStart => '\ue000'
  | .returnEnd => '\ue001'
  | .nameStart => '\ue002'
  | .nameEnd => '\ue003'
  | .fileStart => '\ue004'
  | .fileEnd => '\ue005'

def ofSentinel? (c : Char) : Option Marker := all.find? (·.sentinel = c)

theorem ofSentinel?_sentinel (m : Marker) : ofSentinel? m.sentinel = some m := by
  cases m <;> rfl

theorem sentinel_of_ofSentinel? {c : Char} {m : Marker} (h : ofSentinel? c = some m) : m.sentinel = c := by
  simpa using List.find?_some h

end Marker

def isSentinel (c : Char) : Bool := (Marker.ofSentinel? c).isSome

def withoutSentinels (cs : List Char) : List Char := cs.filter fun c => !isSentinel c

def stripSentinels (text : String) : String := String.ofList (withoutSentinels text.toList)

inductive Span
  | text (text : String)
  | marker (marker : Marker)
deriving DecidableEq

structure Line where
  spans : List Span := []
deriving DecidableEq

namespace Line

/-- Adds a text behind the last part, into it if that is a text as well. -/
def pushTo (text : String) : List Span → List Span
  | [] => [.text text]
  | [.text last] => [.text (last ++ text)]
  | span :: spans => span :: pushTo text spans

def pushText (line : Line) (text : String) : Line :=
  if text = "" then line else ⟨pushTo text line.spans⟩

def pushMarker (line : Line) (marker : Marker) : Line := ⟨line.spans ++ [.marker marker]⟩

def push (line : Line) : Span → Line
  | .text text => line.pushText text
  | .marker marker => line.pushMarker marker

def ofPieces (pieces : List Span) : Line := pieces.foldl push {}

def plainSpan : Span → String
  | .text text => text
  | .marker _ => ""

def decoratedSpan : Span → String
  | .text text => text
  | .marker marker => String.singleton marker.sentinel

def plain (line : Line) : String := String.join (line.spans.map plainSpan)

def decorated (line : Line) : String := String.join (line.spans.map decoratedSpan)

theorem join_pushTo (f : Span → String) (hf : ∀ a b, f (.text (a ++ b)) = f (.text a) ++ f (.text b))
    (text : String) (spans : List Span) :
    String.join ((pushTo text spans).map f) = String.join (spans.map f) ++ f (.text text) := by
  fun_induction pushTo text spans with
  | case1 => simp
  | case2 => simp [hf]
  | case3 _ _ _ ih => simp only [List.map_cons, String.join_cons, ih, String.append_assoc]

end Line

/-! ### Regions -/

inductive RegionFault
  | returnInside
  | returnUnopened
  | nameInside
  | nameUnopened
  | fileTwice
  | fileUnopened
  | returnOpen
  | nameOpen
deriving DecidableEq

namespace RegionFault

def reason : RegionFault → String
  | .returnInside => "return type region opened inside another region"
  | .returnUnopened => "return type region closed without being opened"
  | .nameInside => "name region opened inside another region"
  | .nameUnopened => "name region closed without being opened"
  | .fileTwice => "file region opened twice"
  | .fileUnopened => "file region closed without being opened"
  | .returnOpen => "return type region left open"
  | .nameOpen => "name region left open"

end RegionFault

structure Regions where
  returnType : Bool := false
  name : Bool := false
  file : Bool := false
deriving DecidableEq

namespace Regions

def mark (open_ : Regions) : Marker → Except RegionFault Regions
  | .returnStart =>
    if open_.returnType || open_.name then .error .returnInside else .ok { open_ with returnType := true }
  | .returnEnd => if open_.returnType then .ok { open_ with returnType := false } else .error .returnUnopened
  | .nameStart => if open_.name || open_.returnType then .error .nameInside else .ok { open_ with name := true }
  | .nameEnd => if open_.name then .ok { open_ with name := false } else .error .nameUnopened
  | .fileStart => if open_.file then .error .fileTwice else .ok { open_ with file := true }
  | .fileEnd => if open_.file then .ok { open_ with file := false } else .error .fileUnopened

def step (open_ : Regions) (c : Char) : Except RegionFault Regions :=
  match Marker.ofSentinel? c with
  | some marker => open_.mark marker
  | none => .ok open_

/-- At the end of a line only the file region may be open. -/
def finish (open_ : Regions) : Except RegionFault Bool :=
  if open_.returnType then .error .returnOpen
  else if open_.name then .error .nameOpen
  else .ok open_.file

def ofLine (line : List Char) : Except RegionFault Bool := do (← line.foldlM step {}).finish

end Regions

end Backtrace
