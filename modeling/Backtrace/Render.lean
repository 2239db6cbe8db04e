import Backtrace.Resolved
import Backtrace.Options
import Backtrace.Line

/-!
Writing frames as lines. A line has up to three regions: the return type, the name of the method, and
the place in the source.
-/
namespace Backtrace

def placeholder : String := "?"

def orPlaceholder (text : String) : String := if text = "" then placeholder else text

namespace Tuple

def elements : List String → List (Option String) → List String
  | [], _ => []
  | type :: types, some name :: names => (orPlaceholder type ++ " " ++ name) :: elements types names
  | type :: types, none :: names => orPlaceholder type :: elements types names
  | type :: types, [] => orPlaceholder type :: elements types []

def text (tuple : Tuple) : String :=
  let inner := "(" ++ ", ".intercalate (elements tuple.types tuple.names) ++ ")"
  match tuple.wrapper with
  | some wrapper => wrapper ++ "<" ++ inner ++ ">"
  | none => inner

end Tuple

namespace ResolvedParameter

def typeText (parameter : ResolvedParameter) : String :=
  match parameter.tuple with
  | some tuple => tuple.text
  | none => orPlaceholder parameter.type

def full (parameter : ResolvedParameter) : String :=
  (match parameter.keyword with
    | some keyword => keyword ++ " "
    | none => "") ++ parameter.typeText ++
  (match parameter.name with
    | some name => " " ++ name
    | none => "")

/-- The letter of a place in the list, from `a`; after `z` they start over. -/
def placeLetter (place : Nat) : Char := Char.ofNat ('a'.toNat + place % 26)

def letter (parameter : ResolvedParameter) (place : Nat) : Char :=
  (parameter.name.bind fun name => name.toList.head?).getD (placeLetter place)

end ResolvedParameter

namespace ResolvedMethod

def returnText? (method : ResolvedMethod) : Option String :=
  let type := match method.kind with
    | .method => method.returns.map ResolvedParameter.typeText
    | .constructor | .staticConstructor => none
  match method.isAsync, type with
  | true, some type => some ("async " ++ type)
  | true, none => some "async"
  | false, type => type

end ResolvedMethod

structure Renderer where
  fullParameters : Bool
  markup : Bool
deriving DecidableEq

namespace Renderer

def ofOptions (options : Options) : Renderer := ⟨options.fullParameters, options.markup⟩

def parameterList (renderer : Renderer) : Option (List ResolvedParameter) → String
  | none => "(" ++ placeholder ++ ")"
  | some parameters => "(" ++ ", ".intercalate (parameters.mapIdx fun place parameter =>
      if renderer.fullParameters then parameter.full else String.singleton (parameter.letter place)) ++ ")"

def returnPieces (method : ResolvedMethod) : List Span :=
  match method.returnText? with
  | some text => [.marker .returnStart, .text text, .marker .returnEnd, .text " "]
  | none => []

def declaringPieces (method : ResolvedMethod) : List Span :=
  match method.declaringType.filter (· ≠ "") with
  | some type => [.text type, .text "."]
  | none => []

def ordinalPieces (method : ResolvedMethod) : List Span :=
  match method.ordinal with
  | some ordinal => [.text (" [" ++ Text.decimalText ordinal.toNat ++ "]")]
  | none => []

def constructorPieces (renderer : Renderer) (word : String) (method : ResolvedMethod) : List Span :=
  [.text word, .marker .nameStart, .text (orPlaceholder (method.declaringType.getD "")), .marker .nameEnd,
    .text (renderer.parameterList (some method.parameters))]

/-- A method with its parameters, or as the host of a lambda or local function with the parameters of that. -/
def methodPieces (renderer : Renderer) (method : ResolvedMethod) : List Span :=
  declaringPieces method ++
  [.marker .nameStart, .text (orPlaceholder method.name), .text (method.generics.getD "")] ++
  if method.hasSub then
    [.text "()+", .text (orPlaceholder (method.subName.getD "")),
      .text (renderer.parameterList method.subParameters), .text "=>\x7b…\x7d", .marker .nameEnd] ++
    ordinalPieces method
  else [.marker .nameEnd, .text (renderer.parameterList (some method.parameters))]

def memberPieces (renderer : Renderer) (method : ResolvedMethod) : List Span :=
  match method.kind with
  | .constructor => renderer.constructorPieces "new " method
  | .staticConstructor => renderer.constructorPieces "static " method
  | .method => renderer.methodPieces method

def locationPieces : Option Location → List Span
  | some location => [.text " ", .marker .fileStart, .text ("(at " ++ location.text ++ ")"), .marker .fileEnd]
  | none => []

def method (renderer : Renderer) (method : ResolvedMethod) (location : Option Location) : Line :=
  .ofPieces (returnPieces method ++ renderer.memberPieces method ++ locationPieces location)

def line (renderer : Renderer) : ResolvedFrame → Line
  | .raw text => .ofPieces [.text (stripSentinels text)]
  | .method shown location => renderer.method shown location

def plain (renderer : Renderer) (frame : ResolvedFrame) : String := (renderer.line frame).plain

def decorated (renderer : Renderer) (frame : ResolvedFrame) : String :=
  if renderer.markup then (renderer.line frame).decorated else renderer.plain frame

end Renderer

end Backtrace
