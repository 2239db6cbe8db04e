import Backtrace.Options

/-!
Turning decorated text into final text, line by line: empty lines are dropped, a line that starts with the boundary
ends the text, and in every other line separators are made alike and markers give way to tags.
-/
namespace Backtrace

/-! ### Tags -/

structure Tags where
  returnType : String × String
  name : String × String
  file : String × String

namespace Tags

def ofStyle (style : MarkupStyle) (fontSize : UInt32) : Tags :=
  match style with
  | .rich => ⟨("<i>", "</i>"), ("<b><i>", "</i></b>"),
      ("<size=" ++ Text.decimalText fontSize.toNat ++ ">", "</size>")⟩
  | .ansi => ⟨("\x1b[3m", "\x1b[23m"), ("\x1b[1m", "\x1b[22m"), ("\x1b[2m", "\x1b[22m")⟩

def tag (tags : Tags) : Marker → String
  | .returnStart => tags.returnType.1
  | .returnEnd => tags.returnType.2
  | .nameStart => tags.name.1
  | .nameEnd => tags.name.2
  | .fileStart => tags.file.1
  | .fileEnd => tags.file.2

def put (tags : Tags) (c : Char) : List Char :=
  match Marker.ofSentinel? c with
  | some marker => (tags.tag marker).toList
  | none => [c]

end Tags

/-! ### Lines -/

structure TextLine where
  body : List Char
  ending : List Char

namespace TextLine

def cons (c : Char) : List (List Char) → List (List Char)
  | [] => [[c]]
  | line :: lines => if c = '\n' then [c] :: line :: lines else (c :: line) :: lines

def split (cs : List Char) : List (List Char) := cs.foldr cons []

def ofLine (line : List Char) : TextLine :=
  match line.reverse with
  | '\n' :: '\r' :: body => ⟨body.reverse, ['\r', '\n']⟩
  | '\n' :: body => ⟨body.reverse, ['\n']⟩
  | _ => ⟨line, []⟩

def all (text : List Char) : List TextLine := (split text).map ofLine

end TextLine

namespace PathStyle

def normalize : PathStyle → Char → Char
  | .unix, c => if c = '\\' then '/' else c
  | .windows, c => if c = '/' then '\\' else c
  | .preserve, c => c

end PathStyle

/-- Whether a frame starts with `boundary`, blanks, marks and a leading `at` aside. -/
def frameStartsWith (boundary body : List Char) : Bool :=
  let text := Text.trimStart (withoutSentinels body)
  Text.startsWith boundary text ||
    match ['a', 't', ' '].isPrefixOf? text with
    | some rest => Text.startsWith boundary rest
    | none => false

def atBoundary (boundary body : List Char) : Bool :=
  frameStartsWith boundary body ||
    match Text.around? Marker.returnEnd.sentinel body with
    | some (_, rest) => frameStartsWith boundary rest
    | none => false

def atLastName (cs : List Char) : List Char × List Char :=
  let isSeparator := fun c => c = '.' || c = '+'
  let name := cs.reverse.takeWhile (!isSeparator ·)
  let qualifier := cs.reverse.dropWhile (!isSeparator ·)
  (qualifier.reverse, name.reverse)

/-- A line that only tells where the name ends gets a mark where it starts: behind the last dot or plus
sign before its end. -/
def withNameStart (body : List Char) : List Char :=
  if Marker.nameStart.sentinel ∈ body then body
  else
    match Text.around? Marker.nameEnd.sentinel body with
    | none => body
    | some (head, tail) =>
      let (qualifier, name) := atLastName head
      qualifier ++ Marker.nameStart.sentinel :: name ++ Marker.nameEnd.sentinel :: tail

structure Processor where
  enabled : Bool
  boundary : Option String
  continuation : String
  pathStyle : PathStyle
  tags : Tags

namespace Processor

def ofOptions (options : Options) : Processor where
  enabled := options.postprocess
  boundary := options.boundary.filter (· ≠ "")
  continuation := options.continuation
  pathStyle := options.pathStyle
  tags := .ofStyle options.markupStyle options.fontSize

def stopsAt (processor : Processor) (body : List Char) : Bool :=
  match processor.boundary with
  | some boundary => atBoundary boundary.toList body
  | none => false

/-- A line with tags for markers. A file region that is open at the end is closed there. -/
def tagged (processor : Processor) (body : List Char) : Except RegionFault (List Char) := do
  let fileOpen ← Regions.ofLine body
  return body.flatMap processor.tags.put ++ if fileOpen then processor.tags.file.2.toList else []

def line (processor : Processor) (body : List Char) : Except RegionFault (List Char) := do
  let text ← processor.tagged (withNameStart (body.map processor.pathStyle.normalize))
  return processor.continuation.toList ++ text

/-- The final form of lines; `number` lines that were not empty went before. -/
def lines (processor : Processor) : (number : Nat) → List TextLine → Except Failure (List Char)
  | _, [] => .ok []
  | number, ⟨[], _⟩ :: rest => lines processor number rest
  | number, ⟨c :: body, ending⟩ :: rest =>
    if processor.stopsAt (c :: body) then .ok []
    else
      match processor.line (c :: body) with
      | .error fault => .error (.region (number + 1) fault)
      | .ok line => do return line ++ ending ++ (← lines processor (number + 1) rest)

def process? (processor : Processor) (text : String) : Except Failure String :=
  String.ofList <$> processor.lines 0 (TextLine.all text.toList)

/-- The final form of a text, or the text itself where that is switched off. Where it fails, the text
is given with the reason. -/
def process (processor : Processor) (text : String) : String :=
  if processor.enabled then
    match processor.process? text with
    | .ok final => final
    | .error failure => "Failed to post-process stack trace:\n" ++ text ++ "\n=== Post-processing error: ===\n" ++
        failure.message
  else text

end Processor

end Backtrace
