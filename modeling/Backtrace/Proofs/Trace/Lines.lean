import Backtrace.Trace
import Backtrace.Proofs.Render.Lines
import Backtrace.Proofs.Resolver

/-!
Documents and traces as lists of lines. Their texts are those of their lines, and the lines do not
depend on whether marks are switched on.
-/
namespace Backtrace

variable {alphabet : Alphabet}

theorem intercalate_flatten (separator : String) {groups : List (List String)}
    (filled : ∀ group ∈ groups, group ≠ []) :
    separator.intercalate (groups.map separator.intercalate) = separator.intercalate groups.flatten := by
  induction groups with
  | nil => rfl
  | cons group groups ih =>
    obtain ⟨first, others⟩ := List.forall_mem_cons.1 filled
    rw [List.map_cons, List.flatten_cons]
    by_cases last : groups = []
    · rw [last]
      simp
    · have more : groups.flatten ≠ [] := by
        obtain ⟨next, groups, rfl⟩ := List.exists_cons_of_ne_nil last
        rw [List.flatten_cons]
        exact List.append_ne_nil_of_left_ne_nil (others next List.mem_cons_self) _
      calc
        separator.intercalate (separator.intercalate group :: groups.map separator.intercalate)
          = separator.intercalate group ++ separator ++ separator.intercalate (groups.map separator.intercalate) :=
            String.intercalate_cons_of_ne_nil (by simpa using last)
        _ = separator.intercalate group ++ separator ++ separator.intercalate groups.flatten := by rw [ih others]
        _ = separator.intercalate (group ++ groups.flatten) :=
            (String.intercalate_append_of_ne_nil first more).symm

namespace Renderer

/-- Marks do not change what a line is made of. -/
theorem line_congr {first second : Renderer} (same : first.fullParameters = second.fullParameters)
    (frame : ResolvedFrame) : first.line frame = second.line frame := by
  obtain ⟨full, markup⟩ := first
  obtain ⟨_, other⟩ := second
  obtain rfl : full = _ := same
  rfl

end Renderer

namespace Document

def lines (document : Document) : List Line := document.frames.map document.renderer.line

theorem plainText_eq (document : Document) : document.plainText = "\n".intercalate (document.lines.map Line.plain) := by
  rw [plainText, lines, List.map_map]
  rfl

theorem decoratedText_eq (options : Options) {document : Document}
    (rendered : document.renderer = .ofOptions options) :
    document.decoratedText = "\n".intercalate (document.lines.map options.written) := by
  rw [decoratedText, lines, List.map_map, rendered]
  rfl

end Document

def Banner.line (banner : Banner) : Line := ⟨[.text banner.text]⟩

theorem Banner.plain_line (banner : Banner) : banner.line.plain = banner.text := by
  simp [line, Line.plain, Line.plainSpan]

theorem Banner.written_line (banner : Banner) (options : Options) : options.written banner.line = banner.text := by
  rw [Options.written_eq_join]
  simp [line, Options.writtenSpan]

namespace TraceSection

def lines (part : TraceSection) : List Line := part.banner.toList.map Banner.line ++ part.document.lines

theorem parts_eq (part : TraceSection) (text : Document → String) (write : Line → String)
    (document : text part.document = "\n".intercalate (part.document.lines.map write))
    (banner : ∀ banner : Banner, write banner.line = banner.text) :
    ∃ groups : List (List String), (∀ group ∈ groups, group ≠ []) ∧
      part.parts text = groups.map "\n".intercalate ∧ groups.flatten = part.lines.map write := by
  refine ⟨part.banner.toList.map (fun banner => [banner.text]) ++
    if part.document.frames.isEmpty then [] else [part.document.lines.map write], ?_, ?_, ?_⟩
  · intro group member
    rcases List.mem_append.1 member with title | shown
    · obtain ⟨banner, -, rfl⟩ := List.mem_map.1 title
      exact List.cons_ne_nil _ _
    · split at shown
      · cases shown
      · next filled =>
        rw [List.mem_singleton.1 shown]
        simpa [Document.lines] using filled
  · unfold parts
    rw [List.map_append]
    refine congr (congrArg _ ?_) ?_
    · cases part.banner with
      | none => rfl
      | some banner => exact congrArg (fun text => [text]) String.intercalate_singleton.symm
    · split
      · rfl
      · rw [document]
        rfl
  · rw [List.flatten_append, lines, List.map_append, List.map_map]
    refine congr (congrArg _ ?_) ?_
    · cases part.banner with
      | none => rfl
      | some title => exact congrArg (fun text => [text]) (banner title).symm
    · split
      · next empty =>
        rw [Document.lines, List.isEmpty_iff.1 empty]
        rfl
      · exact List.append_nil _

end TraceSection

namespace ExceptionTrace

def lines (trace : ExceptionTrace) : List Line := trace.sections.flatMap (·.lines)

theorem compose_eq (trace : ExceptionTrace) (text : Document → String) (write : Line → String)
    (document : ∀ part ∈ trace.sections, text part.document = "\n".intercalate (part.document.lines.map write))
    (banner : ∀ banner : Banner, write banner.line = banner.text) :
    trace.compose text = "\n".intercalate (trace.lines.map write) := by
  have grouped : ∃ groups : List (List String), (∀ group ∈ groups, group ≠ []) ∧
      trace.sections.flatMap (·.parts text) = groups.map "\n".intercalate ∧
      groups.flatten = (trace.sections.flatMap (·.lines)).map write := by
    generalize trace.sections = parts at document
    induction parts with
    | nil => exact ⟨[], by simp, rfl, rfl⟩
    | cons part parts ih =>
      obtain ⟨first, others⟩ := List.forall_mem_cons.1 document
      obtain ⟨groups, filled, same, flat⟩ := part.parts_eq text write first banner
      obtain ⟨more, alsoFilled, alsoSame, alsoFlat⟩ := ih others
      refine ⟨groups ++ more, List.forall_mem_append.2 ⟨filled, alsoFilled⟩, ?_, ?_⟩
      · rw [List.flatMap_cons, same, alsoSame, List.map_append]
      · rw [List.flatten_append, flat, alsoFlat, List.flatMap_cons, List.map_append]
  obtain ⟨groups, filled, same, flat⟩ := grouped
  rw [compose, same, intercalate_flatten "\n" filled, flat, lines]

theorem plainText_eq (trace : ExceptionTrace) : trace.plainText = "\n".intercalate (trace.lines.map Line.plain) :=
  trace.compose_eq Document.plainText Line.plain (fun part _ => part.document.plainText_eq) Banner.plain_line

theorem decoratedText_eq (options : Options) {trace : ExceptionTrace}
    (rendered : ∀ part ∈ trace.sections, part.document.renderer = .ofOptions options) :
    trace.decoratedText = "\n".intercalate (trace.lines.map options.written) := by
  refine trace.compose_eq Document.decoratedText options.written ?_ fun banner => banner.written_line options
  intro part member
  exact Document.decoratedText_eq options (rendered part member)

end ExceptionTrace

/-! Switching marks on or off changes nothing but how the lines are written. -/

def Options.marked (options : Options) (markup : Bool) : Options := { options with markup := markup }

def Document.marked (document : Document) (markup : Bool) : Document :=
  { document with renderer := { document.renderer with markup := markup } }

theorem Document.lines_marked (document : Document) (markup : Bool) : (document.marked markup).lines = document.lines :=
  List.map_congr_left fun frame _ => Renderer.line_congr rfl frame

def TraceSection.marked (part : TraceSection) (markup : Bool) : TraceSection :=
  { part with document := part.document.marked markup }

def ExceptionTrace.marked (trace : ExceptionTrace) (markup : Bool) : ExceptionTrace :=
  { trace with sections := trace.sections.map (·.marked markup) }

theorem ExceptionTrace.lines_marked (trace : ExceptionTrace) (markup : Bool) :
    (trace.marked markup).lines = trace.lines := by
  unfold lines marked
  rw [List.flatMap_map]
  apply List.flatMap_congr
  intro part _
  exact congrArg (part.banner.toList.map Banner.line ++ ·) (part.document.lines_marked markup)

namespace Options

variable {α : Type} (options : Options) (markup : Bool)

theorem ofOptions_marked : Processor.ofOptions (options.marked markup) = .ofOptions options := rfl

theorem document_marked (held : List Nat) (raws : List RawFrame) (resolver : Resolver) :
    (options.marked markup).document held raws resolver =
      ((options.document held raws resolver).1.marked markup, (options.document held raws resolver).2) := rfl

theorem sections_marked (view : ExceptionView α) (outer : Option String) (held : List Nat) (chain : List α)
    (resolver : Resolver) :
    (options.marked markup).sections view outer held chain resolver =
      ((options.sections view outer held chain resolver).1.map (·.marked markup),
        (options.sections view outer held chain resolver).2) := by
  induction chain generalizing outer held resolver with
  | nil => rfl
  | cons exception chain ih =>
    simp only [sections, document_marked, ih]
    rfl

theorem callSiteSection_marked (held : List Nat) (callSite : Option (List RawFrame)) (resolver : Resolver) :
    (options.marked markup).callSiteSection held callSite resolver =
      ((options.callSiteSection held callSite resolver).1.map (·.marked markup),
        (options.callSiteSection held callSite resolver).2) := by
  cases callSite with
  | none => rfl
  | some raws => rfl

theorem aggregate_marked {view : ExceptionView α} {held : List Nat} {exception : α}
    {callSite : Option (List RawFrame)} {resolver after : Resolver} {trace : ExceptionTrace}
    (made : options.aggregate view held exception callSite resolver = (.ok trace, after)) :
    (options.marked markup).aggregate view held exception callSite resolver = (.ok (trace.marked markup), after) := by
  rw [aggregate] at made
  rw [aggregate, show (options.marked markup).maxDepth = options.maxDepth from rfl]
  cases walked : causes? view.cause (max options.maxDepth 1) [] exception with
  | none =>
    simp only [walked] at made
    cases made
  | some chain =>
    simp only [walked] at made
    cases made
    simp only [sections_marked, callSiteSection_marked, ExceptionTrace.marked, List.map_append]

end Options

end Backtrace
