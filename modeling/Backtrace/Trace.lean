import Backtrace.Markup.Processor
import Backtrace.Render
import Backtrace.Resolver

/-!
Traces: from frames and exceptions to lines, and from these to text. Banners stand between the parts that belong to
different exceptions. A chain of causes is walked before any frame is resolved, so that a chain that is too long leaves
the resolver as it was.
-/
namespace Backtrace

/-! ### Documents -/

structure Document where
  frames : List ResolvedFrame
  renderer : Renderer

namespace Document

def count (document : Document) : Nat := document.frames.length

def plainText (document : Document) : String := "\n".intercalate (document.frames.map document.renderer.plain)

def decoratedText (document : Document) : String :=
  "\n".intercalate (document.frames.map document.renderer.decorated)

end Document

def headline (type message : String) : String := if message = "" then type else type ++ ": " ++ message

/-- What introduces the frames of a cause, or those of the code that saw the exception. -/
inductive Banner
  | inner (type message rethrownAs : String)
  | callSite

namespace Banner

def text : Banner → String
  | .inner type message rethrownAs => " ---> " ++ headline type message ++ " (rethrown as " ++ rethrownAs ++ ")"
  | .callSite => " ===> captured at:"

end Banner

structure TraceSection where
  banner : Option Banner
  document : Document

namespace TraceSection

def parts (text : Document → String) (part : TraceSection) : List String :=
  (part.banner.map Banner.text).toList ++ if part.document.frames.isEmpty then [] else [text part.document]

end TraceSection

structure ExceptionTrace where
  headline : String
  sections : List TraceSection

namespace ExceptionTrace

def compose (trace : ExceptionTrace) (text : Document → String) : String :=
  "\n".intercalate (trace.sections.flatMap (·.parts text))

def plainText (trace : ExceptionTrace) : String := trace.compose Document.plainText

def decoratedText (trace : ExceptionTrace) : String := trace.compose Document.decoratedText

def frames (trace : ExceptionTrace) : List ResolvedFrame := trace.sections.flatMap (·.document.frames)

/-- The places of all frames in order: the number of a section and that of a frame in it. -/
def places (trace : ExceptionTrace) : List (Nat × Nat) :=
  trace.sections.zipIdx.flatMap fun (part, number) => (List.range part.document.count).map (number, ·)

def frameAt? (trace : ExceptionTrace) (place : Nat × Nat) : Option ResolvedFrame :=
  trace.sections[place.1]?.bind (·.document.frames[place.2]?)

def frameCount (trace : ExceptionTrace) : Nat := trace.places.length

def frame? (trace : ExceptionTrace) (index : Nat) : Option ResolvedFrame := trace.places[index]?.bind trace.frameAt?

end ExceptionTrace

/-! ### Chains of exceptions -/

structure ExceptionView (α : Type) where
  type : α → String
  message : α → String
  cause : α → Option α
  frames : α → List RawFrame
  /-- What is shown where the trace cannot be built. -/
  display : α → String := fun exception => headline (type exception) (message exception)

/-- An exception and its causes in order, if they are no more than `limit`. `before` holds those that
went before, the latest first. -/
def causes? (cause : α → Option α) : (limit : Nat) → (before : List α) → α → Option (List α)
  | 0, _, _ => none
  | limit + 1, before, exception =>
    match cause exception with
    | none => some (exception :: before).reverse
    | some inner => causes? cause limit (exception :: before) inner

/-- The headline of an exception and its final trace; or, where that cannot be built, a notice and the
reason. -/
structure FormattedException where
  message : String
  stackTrace : String

namespace Options

def document (options : Options) (held : List Nat) (raws : List RawFrame) (resolver : Resolver) :
    Document × List Nat × Resolver :=
  let (frames, tokens, resolver) := resolver.frames held raws
  (⟨frames, .ofOptions options⟩, tokens, resolver)

/-- The sections of a chain of exceptions, and the tokens that they hold; `outer` is the type of the one
that wraps the first. -/
def sections (options : Options) (view : ExceptionView α) (outer : Option String) (held : List Nat) :
    List α → Resolver → List TraceSection × List Nat × Resolver
  | [], resolver => ([], [], resolver)
  | exception :: chain, resolver =>
    let banner := outer.map (Banner.inner (view.type exception) (view.message exception))
    let (document, tokens, resolver) := options.document held (view.frames exception) resolver
    let (rest, others, resolver) :=
      sections options view (some (view.type exception)) (tokens ++ held) chain resolver
    (⟨banner, document⟩ :: rest, tokens ++ others, resolver)

/-- The section of the call site, if its frames were given, even without any. -/
def callSiteSection (options : Options) (held : List Nat) (callSite : Option (List RawFrame))
    (resolver : Resolver) : List TraceSection × Resolver :=
  match callSite with
  | none => ([], resolver)
  | some raws =>
    let (document, _, resolver) := options.document held raws resolver
    ([⟨some .callSite, document⟩], resolver)

def aggregate (options : Options) (view : ExceptionView α) (held : List Nat) (exception : α)
    (callSite : Option (List RawFrame)) (resolver : Resolver) : Except Failure ExceptionTrace × Resolver :=
  let limit := max options.maxDepth 1
  match causes? view.cause limit [] exception with
  | none => (.error (.longChain (view.type exception) limit), resolver)
  | some chain =>
    let (parts, tokens, resolver) := options.sections view none held chain resolver
    let (last, resolver) := options.callSiteSection (tokens ++ held) callSite resolver
    (.ok ⟨headline (view.type exception) (view.message exception), parts ++ last⟩, resolver)

def formatTrace (options : Options) (held : List Nat) (raws : List RawFrame) (resolver : Resolver) :
    String × Resolver :=
  let (document, _, resolver) := options.document held raws resolver
  ((Processor.ofOptions options).process document.decoratedText, resolver)

def formatException (options : Options) (view : ExceptionView α) (held : List Nat) (exception : α)
    (callSite : Option (List RawFrame)) (resolver : Resolver) : FormattedException × Resolver :=
  match options.aggregate view held exception callSite resolver with
  | (.ok trace, resolver) =>
    (⟨trace.headline, (Processor.ofOptions options).process trace.decoratedText⟩, resolver)
  | (.error failure, resolver) =>
    (⟨view.display exception ++ "\n\nDemystifier: Unable to extract stack trace from exception: " ++
        view.type exception ++ ".", failure.message⟩, resolver)

end Options

/-! ### Listings -/

inductive Row
  | title (text : String)
  | frame (number : Nat) (shown : ResolvedFrame)

namespace ResolvedFrame

def note (frame : ResolvedFrame) : String :=
  match frame.method? with
  | none => " [raw]"
  | some shown =>
    match shown.isAsync, shown.isLambda with
    | true, true => " [async, lambda]"
    | true, false => " [async]"
    | false, true => " [lambda]"
    | false, false => ""

end ResolvedFrame

namespace Row

def column (number : Nat) : String :=
  let digits := Nat.toDigits 10 number
  String.ofList (List.replicate (4 - digits.length) ' ' ++ digits)

def text (renderer : Renderer) : Row → String
  | .title text => text
  | .frame number shown => column number ++ "  " ++ renderer.plain shown ++ shown.note

end Row

def frameRows (next : Nat) : List ResolvedFrame → List Row
  | [] => []
  | shown :: frames => .frame next shown :: frameRows (next + 1) frames

def sectionRows (next : Nat) : List TraceSection → List Row
  | [] => []
  | part :: parts =>
    (part.banner.map fun banner => Row.title banner.text).toList ++ frameRows next part.document.frames ++
      sectionRows (next + part.document.count) parts

namespace ExceptionTrace

def rows (trace : ExceptionTrace) : List Row := .title trace.headline :: sectionRows 0 trace.sections

end ExceptionTrace

end Backtrace
