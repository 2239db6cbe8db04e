import Backtrace.Proofs.Markup.ShownLines
import Backtrace.Proofs.Trace.Data

/-!
Where a trace stops at a boundary, with marks and without. The end of the return type is found by its
mark only, so that a frame that is at the boundary behind its return type stops the trace with marks
and not without.
-/
namespace Backtrace
open Marker

theorem frameStartsWith_congr {first second : List Char} (same : withoutSentinels first = withoutSentinels second)
    (boundary : List Char) : frameStartsWith boundary first = frameStartsWith boundary second := by
  unfold frameStartsWith
  rw [same]

theorem atBoundary_of_unmarked {body : List Char} (unmarked : ∀ c ∈ body, isSentinel c = false)
    (boundary : List Char) : atBoundary boundary body = frameStartsWith boundary body := by
  have absent : Marker.returnEnd.sentinel ∉ body := by
    intro member
    have free := unmarked _ member
    revert free
    decide
  rw [atBoundary, Text.around?_eq_none_iff.2 absent, Bool.or_false]

theorem inOrder_of_unmarked {body : List Char} (unmarked : ∀ c ∈ body, isSentinel c = false) :
    InOrder (ofText (withNameStart body)) := by
  have absent : Marker.nameEnd.sentinel ∉ body := by
    rw [sentinel_mem_iff, ofText_eq_nil unmarked]
    exact List.not_mem_nil
  rw [← nameMarked_iff.1 (.kept (.inr absent)), ofText_eq_nil unmarked]
  exact ⟨.nil, .nil⟩

theorem frameStartsWith_decorated {spans : List Span} (unmarked : Line.Unmarked spans) (boundary : List Char) :
    frameStartsWith boundary (String.join (spans.map Line.decoratedSpan)).toList =
      frameStartsWith boundary (String.join (spans.map Line.plainSpan)).toList := by
  apply frameStartsWith_congr
  rw [← Line.withoutSentinels_decorated unmarked]
  refine (withoutSentinels_eq_self fun c member => ?_).symm
  simpa [withoutSentinels] using (List.mem_filter.1 member).2

namespace Renderer

variable (renderer : Renderer)

def behindReturn (shown : ResolvedMethod) (location : Option Location) : List Span :=
  .text " " :: (renderer.memberPieces shown ++ locationPieces location)

def behindReturn? : ResolvedFrame → Option String
  | .raw _ => none
  | .method shown location => shown.returnText?.map fun _ =>
      String.join ((renderer.behindReturn shown location).map Line.plainSpan)

/-- Whether a frame starts with a boundary behind its return type. -/
def startsBehind (boundary : List Char) (frame : ResolvedFrame) : Bool :=
  match renderer.behindReturn? frame with
  | some rest => frameStartsWith boundary rest.toList
  | none => false

def startsAt (boundary : List Char) (frame : ResolvedFrame) : Bool :=
  frameStartsWith boundary (TextLine.ofLine ((renderer.plain frame).toList ++ ['\n'])).body

/-- The first frame that is at a boundary is there as a whole, and not only behind its return type. -/
def MeetsWhole (boundary : List Char) (frames : List ResolvedFrame) : Prop :=
  ∀ before frame behind, frames = before ++ frame :: behind →
    (∀ earlier ∈ before, renderer.startsAt boundary earlier = false ∧ renderer.startsBehind boundary earlier = false) →
    renderer.startsBehind boundary frame = true → renderer.startsAt boundary frame = true

variable {renderer} {boundary : List Char} {frame : ResolvedFrame} {frames : List ResolvedFrame}

theorem meetsWhole_nil : renderer.MeetsWhole boundary [] := by
  intro before frame behind parts
  cases before <;> cases parts

theorem meetsWhole_cons : renderer.MeetsWhole boundary (frame :: frames) ↔
    (renderer.startsBehind boundary frame = true → renderer.startsAt boundary frame = true) ∧
      (renderer.startsAt boundary frame = false → renderer.startsBehind boundary frame = false →
        renderer.MeetsWhole boundary frames) := by
  constructor
  · intro meets
    refine ⟨meets [] frame frames rfl (by simp), fun notAt notBehind before other behind parts earlier => ?_⟩
    apply meets (frame :: before) other behind (by rw [parts, List.cons_append])
    exact List.forall_mem_cons.2 ⟨⟨notAt, notBehind⟩, earlier⟩
  · intro both before other behind parts earlier
    obtain ⟨first, others⟩ := both
    cases before with
    | nil =>
      obtain ⟨rfl, rfl⟩ := List.cons.inj parts
      exact first
    | cons front before =>
      obtain ⟨rfl, rfl⟩ := List.cons.inj parts
      obtain ⟨⟨notAt, notBehind⟩, rest⟩ := List.forall_mem_cons.1 earlier
      exact others notAt notBehind before other behind rfl rest

theorem meetsWhole_raw {text : String} : renderer.MeetsWhole boundary (.raw text :: frames) ↔
    (renderer.startsAt boundary (.raw text) = false → renderer.MeetsWhole boundary frames) := by
  rw [meetsWhole_cons]
  constructor
  · intro both notAt
    exact both.2 notAt rfl
  · intro others
    exact ⟨fun behind => (by cases behind), fun notAt _ => others notAt⟩

variable (renderer)

theorem unmarked_pieces {shown : ResolvedMethod} {location : Option Location}
    (unmarked : Alphabet.unmarked.Over (renderer.plain (.method shown location))) :
    Line.Unmarked (returnPieces shown ++ renderer.memberPieces shown ++ locationPieces location) :=
  Line.unmarked_ofPieces_iff.1 (Line.unmarked_of_plain unmarked)

theorem around_returnEnd_of_none {shown : ResolvedMethod} {location : Option Location}
    (unmarked : Alphabet.unmarked.Over (renderer.plain (.method shown location)))
    (returned : shown.returnText? = none) :
    Text.around? Marker.returnEnd.sentinel (renderer.line (.method shown location)).decorated.toList = none := by
  have spans : Line.Unmarked (renderer.line (.method shown location)).spans := Line.unmarked_of_plain unmarked
  rw [Text.around?_eq_none_iff, sentinel_mem_iff, Line.decorated, Line.ofText_decorated spans]
  change Marker.returnEnd ∉ (renderer.method shown location).markers
  rw [markers_method, returned]
  cases location <;> simp

theorem around_returnEnd_of_some {shown : ResolvedMethod} {location : Option Location}
    (unmarked : Alphabet.unmarked.Over (renderer.plain (.method shown location))) {text : String}
    (returned : shown.returnText? = some text) :
    Text.around? Marker.returnEnd.sentinel (renderer.line (.method shown location)).decorated.toList =
      some (Marker.returnStart.sentinel :: text.toList,
        (String.join ((renderer.behindReturn shown location).map Line.decoratedSpan)).toList) := by
  rw [Text.around?_eq_some_iff]
  refine ⟨?_, List.not_mem_cons_of_ne_of_not_mem (by decide) fun member => ?_⟩
  · rw [line, Renderer.method, Line.decorated_ofPieces, returnPieces, returned]
    simp [behindReturn, Line.decoratedSpan]
  · have free := renderer.unmarked_pieces unmarked text (by simp [returnPieces, returned])
    have marked : isSentinel Marker.returnEnd.sentinel = false := free _ member
    revert marked
    decide

theorem unmarked_behindReturn {shown : ResolvedMethod} {location : Option Location}
    (unmarked : Alphabet.unmarked.Over (renderer.plain (.method shown location))) :
    Line.Unmarked (renderer.behindReturn shown location) := by
  intro text member
  rcases List.mem_cons.1 member with same | member
  · obtain rfl := Span.text.inj same
    exact Alphabet.over_of_fixed (by decide)
  · apply renderer.unmarked_pieces unmarked text
    rw [List.append_assoc]
    exact List.mem_append_right _ member

/-- With marks, a method is at the boundary as a whole or behind its return type. -/
theorem atBoundary_decorated {shown : ResolvedMethod} {location : Option Location}
    (unmarked : Alphabet.unmarked.Over (renderer.plain (.method shown location))) (boundary : List Char) :
    atBoundary boundary (renderer.line (.method shown location)).decorated.toList =
      (frameStartsWith boundary (renderer.plain (.method shown location)).toList ||
        renderer.startsBehind boundary (.method shown location)) := by
  have spans : Line.Unmarked (renderer.line (.method shown location)).spans := Line.unmarked_of_plain unmarked
  unfold atBoundary
  dsimp only [startsBehind, behindReturn?]
  rw [Line.decorated, frameStartsWith_decorated spans, ← Line.decorated]
  refine congrArg (_ || ·) ?_
  cases returned : shown.returnText? with
  | none => rw [renderer.around_returnEnd_of_none unmarked returned, Option.map_none]
  | some text =>
    rw [renderer.around_returnEnd_of_some unmarked returned, Option.map_some]
    exact frameStartsWith_decorated (renderer.unmarked_behindReturn unmarked) boundary

end Renderer

namespace Options

variable (options : Options)

def shownLines (frames : List ResolvedFrame) : List TextLine :=
  (Processor.ofOptions options).shown (TextLine.ofTexts (frames.map (Renderer.ofOptions options).decorated))

def Single (frame : ResolvedFrame) : Prop := Alphabet.line.Over ((Renderer.ofOptions options).plain frame)

variable {options} {frames : List ResolvedFrame} {shown : ResolvedMethod} {location : Option Location}

theorem Single.feed_not_mem {frame : ResolvedFrame} (single : options.Single frame) :
    '\n' ∉ ((Renderer.ofOptions options).decorated frame).toList := by
  have spans : Line.Unmarked ((Renderer.ofOptions options).line frame).spans :=
    Line.unmarked_of_plain single.unmarked_of_line
  change '\n' ∉ (options.written ((Renderer.ofOptions options).line frame)).toList
  rw [options.mem_written spans (by decide)]
  intro member
  exact (single _ member).2 rfl

theorem decorated_raw (renderer : Renderer) (text : String) :
    renderer.decorated (.raw text) = stripSentinels text := by
  unfold Renderer.decorated
  split
  · rw [Renderer.line, Line.decorated_ofPieces]
    simp [Line.decoratedSpan]
  · exact renderer.plain_raw text

theorem body_raw_unmarked (text : String) (rest : List String) :
    ∀ c ∈ (TextLine.ofLine ((stripSentinels text).toList ++ TextLine.feedBefore rest)).body,
      isSentinel c = false := by
  intro c member
  rcases List.mem_append.1 (TextLine.body_subset _ c member) with inText | inFeed
  · exact stripSentinels_unmarked text c inText
  · unfold TextLine.feedBefore at inFeed
    split at inFeed
    · cases inFeed
    · rw [List.mem_singleton.1 inFeed]
      decide

theorem ofLine_method (single : options.Single (.method shown location)) (rest : List String) :
    TextLine.ofLine (((Renderer.ofOptions options).decorated (.method shown location)).toList ++
        TextLine.feedBefore rest) =
      ⟨(options.written ((Renderer.ofOptions options).line (.method shown location))).toList,
        TextLine.feedBefore rest⟩ := by
  apply TextLine.ofLine_feedBefore single.feed_not_mem
  obtain ⟨c, last, different⟩ := options.getLast_written_method (Renderer.ofOptions options) shown location
  change (options.written ((Renderer.ofOptions options).line (.method shown location))).toList.getLast? ≠ _
  rw [last]
  exact fun same => different (Option.some.inj same)

theorem inOrder_of_single (single : ∀ frame ∈ frames, options.Single frame) {line : TextLine}
    (member : line ∈ TextLine.ofTexts (frames.map (Renderer.ofOptions options).decorated)) :
    InOrder (ofText (withNameStart line.body)) := by
  obtain ⟨text, found, rest, rfl⟩ := TextLine.mem_ofTexts member
  obtain ⟨frame, given, rfl⟩ := List.mem_map.1 found
  cases frame with
  | raw text =>
    rw [decorated_raw]
    exact inOrder_of_unmarked (body_raw_unmarked text rest)
  | method shown location =>
    have spans : Line.Unmarked ((Renderer.ofOptions options).line (.method shown location)).spans :=
      Line.unmarked_of_plain (single _ given).unmarked_of_line
    have settled := (Renderer.ofOptions options).line_settled (.method shown location)
    rw [ofLine_method (single _ given), options.withNameStart_written spans settled]
    exact (options.inOrder_written spans settled).1

/-- The final text of frames is that of the lines that are shown. -/
theorem process_of_single (enabled : options.postprocess = true) (single : ∀ frame ∈ frames, options.Single frame) :
    (Processor.ofOptions options).process
        ("\n".intercalate (frames.map (Renderer.ofOptions options).decorated)) =
      String.ofList ((options.shownLines frames).flatMap (Processor.ofOptions options).finalLine) := by
  have feedless : ∀ text ∈ frames.map (Renderer.ofOptions options).decorated, '\n' ∉ text.toList := by
    intro text member
    obtain ⟨frame, found, rfl⟩ := List.mem_map.1 member
    exact (single frame found).feed_not_mem
  have order : ∀ line ∈ options.shownLines frames, InOrder (ofText (withNameStart line.body)) := by
    intro line member
    exact inOrder_of_single single (List.takeWhile_subset _ (List.mem_filter.1 member).1)
  apply options.process_eq enabled
  rw [Processor.process?, Processor.lines_all _ feedless, options.lines_eq_of_inOrder 0 order]
  rfl

theorem startsAt_method (boundary : List Char) (shown : ResolvedMethod) (location : Option Location) :
    (Renderer.ofOptions options).startsAt boundary (.method shown location) =
      frameStartsWith boundary ((Renderer.ofOptions options).plain (.method shown location)).toList := by
  obtain ⟨c, last, different⟩ :=
    (options.marked false).getLast_written_method (Renderer.ofOptions options) shown location
  change ((Renderer.ofOptions options).plain (.method shown location)).toList.getLast? = some c at last
  have plain : ((Renderer.ofOptions options).plain (.method shown location)).toList.getLast? ≠ some '\r' := by
    rw [last]
    exact fun same => different (Option.some.inj same)
  rw [Renderer.startsAt, TextLine.ofLine_append_feed plain]

theorem shownLines_cons (options : Options) (frame : ResolvedFrame) (frames : List ResolvedFrame) :
    options.shownLines (frame :: frames) =
      let line := TextLine.ofLine (((Renderer.ofOptions options).decorated frame).toList ++
        TextLine.feedBefore (frames.map (Renderer.ofOptions options).decorated))
      if (Processor.ofOptions options).stopsAt line.body then []
      else if line.body = [] then options.shownLines frames
      else line :: options.shownLines frames := by
  unfold shownLines
  rw [List.map_cons, TextLine.ofTexts_cons_eq, Processor.shown_cons]

theorem written_method_ne_nil (options : Options) (renderer : Renderer) (shown : ResolvedMethod)
    (location : Option Location) : (options.written (renderer.line (.method shown location))).toList ≠ [] := by
  obtain ⟨c, last, -⟩ := options.getLast_written_method renderer shown location
  exact List.ne_nil_of_mem (List.mem_of_getLast? last)

theorem length_shownLines_unbounded (unbounded : (Processor.ofOptions options).boundary = none)
    (single : ∀ frame ∈ frames, options.Single frame) :
    ((options.marked true).shownLines frames).length = ((options.marked false).shownLines frames).length := by
  have onward (body : List Char) : ¬(Processor.ofOptions options).stopsAt body = true := by
    rw [Processor.stopsAt, unbounded]
    exact Bool.false_ne_true
  induction frames with
  | nil => rfl
  | cons frame frames ih =>
    obtain ⟨first, others⟩ := List.forall_mem_cons.1 single
    rw [shownLines_cons, shownLines_cons, ofOptions_marked, ofOptions_marked]
    cases frame with
    | raw text =>
      rw [decorated_raw, decorated_raw, TextLine.feedBefore_map frames
        (Renderer.ofOptions (options.marked false)).decorated (Renderer.ofOptions (options.marked true)).decorated]
      dsimp only
      rw [if_neg (onward _), if_neg (onward _)]
      split
      · exact ih others
      · rw [List.length_cons, List.length_cons, ih others]
    | method shown location =>
      rw [@ofLine_method (options.marked true) shown location first,
        @ofLine_method (options.marked false) shown location first]
      dsimp only
      rw [if_neg (onward _), if_neg (onward _), if_neg (written_method_ne_nil _ _ shown location),
        if_neg (written_method_ne_nil _ _ shown location), List.length_cons, List.length_cons, ih others]

section Stops

variable {boundary : String} (present : (Processor.ofOptions options).boundary = some boundary)
include present

theorem stopsAt_raw (text : String) (rest : List String) :
    let body := (TextLine.ofLine ((stripSentinels text).toList ++ TextLine.feedBefore rest)).body
    (Processor.ofOptions options).stopsAt body = frameStartsWith boundary.toList body := by
  intro body
  rw [Processor.stopsAt, present]
  exact atBoundary_of_unmarked (body_raw_unmarked text rest) boundary.toList

theorem stopsAt_plain (single : options.Single (.method shown location)) :
    (Processor.ofOptions options).stopsAt ((Renderer.ofOptions options).plain (.method shown location)).toList =
      frameStartsWith boundary.toList ((Renderer.ofOptions options).plain (.method shown location)).toList := by
  rw [Processor.stopsAt, present]
  exact atBoundary_of_unmarked single.unmarked_of_line boundary.toList

theorem stopsAt_decorated (single : options.Single (.method shown location)) :
    (Processor.ofOptions options).stopsAt
        ((Renderer.ofOptions options).line (.method shown location)).decorated.toList =
      (frameStartsWith boundary.toList ((Renderer.ofOptions options).plain (.method shown location)).toList ||
        (Renderer.ofOptions options).startsBehind boundary.toList (.method shown location)) := by
  rw [Processor.stopsAt, present]
  exact (Renderer.ofOptions options).atBoundary_decorated single.unmarked_of_line boundary.toList

theorem length_shownLines_raw (text : String)
    (tail : ((options.marked true).shownLines frames).length = ((options.marked false).shownLines frames).length ↔
      (Renderer.ofOptions options).MeetsWhole boundary.toList frames) :
    ((options.marked true).shownLines (.raw text :: frames)).length =
        ((options.marked false).shownLines (.raw text :: frames)).length ↔
      (Renderer.ofOptions options).MeetsWhole boundary.toList (.raw text :: frames) := by
  have stops := stopsAt_raw present text (frames.map (Renderer.ofOptions (options.marked true)).decorated)
  have startsAt (more : frames ≠ []) : (Renderer.ofOptions options).startsAt boundary.toList (.raw text) =
      (Processor.ofOptions options).stopsAt (TextLine.ofLine ((stripSentinels text).toList ++
        TextLine.feedBefore (frames.map (Renderer.ofOptions (options.marked true)).decorated))).body := by
    rw [stops, Renderer.startsAt, Renderer.plain_raw, TextLine.feedBefore, if_neg (by simpa using more)]
  rw [shownLines_cons, shownLines_cons, decorated_raw, decorated_raw, Renderer.meetsWhole_raw,
    TextLine.feedBefore_map frames (Renderer.ofOptions (options.marked false)).decorated
      (Renderer.ofOptions (options.marked true)).decorated]
  dsimp only
  rw [ofOptions_marked, ofOptions_marked]
  generalize TextLine.ofLine ((stripSentinels text).toList ++
    TextLine.feedBefore (frames.map (Renderer.ofOptions (options.marked true)).decorated)) = line at startsAt
  by_cases last : frames = []
  · subst last
    exact iff_of_true rfl fun _ => Renderer.meetsWhole_nil
  · rw [startsAt last]
    by_cases stopped : (Processor.ofOptions options).stopsAt line.body = true
    · rw [if_pos stopped, if_pos stopped]
      refine iff_of_true rfl fun notAt => ?_
      rw [stopped] at notAt
      cases notAt
    · rw [if_neg stopped, if_neg stopped, Bool.eq_false_iff.2 stopped, forall_prop_of_true rfl]
      split
      · exact tail
      · rw [List.length_cons, List.length_cons, Nat.add_right_cancel_iff]
        exact tail

/-- A method is at the boundary behind its return type with marks only. -/
theorem length_shownLines_method (single : options.Single (.method shown location))
    (tail : ((options.marked true).shownLines frames).length = ((options.marked false).shownLines frames).length ↔
      (Renderer.ofOptions options).MeetsWhole boundary.toList frames) :
    ((options.marked true).shownLines (.method shown location :: frames)).length =
        ((options.marked false).shownLines (.method shown location :: frames)).length ↔
      (Renderer.ofOptions options).MeetsWhole boundary.toList (.method shown location :: frames) := by
  have line (markup : Bool) (rest : List String) :
      TextLine.ofLine (((Renderer.ofOptions (options.marked markup)).decorated (.method shown location)).toList ++
        TextLine.feedBefore rest) =
      ⟨((options.marked markup).written ((Renderer.ofOptions options).line (.method shown location))).toList,
        TextLine.feedBefore rest⟩ := @ofLine_method (options.marked markup) shown location single rest
  have on : (Processor.ofOptions options).stopsAt
      ((options.marked true).written ((Renderer.ofOptions options).line (.method shown location))).toList = _ :=
    stopsAt_decorated present single
  have off : (Processor.ofOptions options).stopsAt
      ((options.marked false).written ((Renderer.ofOptions options).line (.method shown location))).toList = _ :=
    stopsAt_plain present single
  rw [shownLines_cons, shownLines_cons, line, line, Renderer.meetsWhole_cons, startsAt_method]
  dsimp only
  rw [ofOptions_marked, ofOptions_marked, on, off, if_neg (written_method_ne_nil _ _ shown location),
    if_neg (written_method_ne_nil _ _ shown location)]
  cases frameStartsWith boundary.toList ((Renderer.ofOptions options).plain (.method shown location)).toList with
  | true => simp
  | false =>
    cases (Renderer.ofOptions options).startsBehind boundary.toList (.method shown location) with
    | true => simp
    | false => simpa using tail

/-- With and without marks the same number of lines is shown exactly where the first frame at the
boundary is there as a whole. -/
theorem length_shownLines_iff (single : ∀ frame ∈ frames, options.Single frame) :
    ((options.marked true).shownLines frames).length = ((options.marked false).shownLines frames).length ↔
      (Renderer.ofOptions options).MeetsWhole boundary.toList frames := by
  induction frames with
  | nil => exact iff_of_true rfl Renderer.meetsWhole_nil
  | cons frame frames ih =>
    obtain ⟨first, others⟩ := List.forall_mem_cons.1 single
    cases frame with
    | raw text => exact length_shownLines_raw present text (ih others)
    | method shown location => exact length_shownLines_method present first (ih others)

end Stops

end Options

def RawFrame.Single (raw : RawFrame) : Prop := Alphabet.line.Each raw.texts ∧ Alphabet.line.Over raw.text

/-- Where a trace stops, with marks and without. Both show the same number of lines exactly where the
first frame that is at the boundary, as a whole or behind its return type, is there as a whole. -/
theorem same_stop_iff (options : Options) (enabled : options.postprocess = true) (boundary : String)
    (bounded : options.boundary = some boundary) (resolver : Resolver) (kept : resolver.Over .line) (held : List Nat)
    (raws : List RawFrame) (single : ∀ raw ∈ raws, raw.Single) :
    let frames := (options.document held raws resolver).1.frames
    (∀ markup, ((options.marked markup).formatTrace held raws resolver).1 =
      String.ofList (((options.marked markup).shownLines frames).flatMap (Processor.ofOptions options).finalLine)) ∧
    (((options.marked true).shownLines frames).length = ((options.marked false).shownLines frames).length ↔
      (Renderer.ofOptions options).MeetsWhole boundary.toList frames) := by
  intro frames
  obtain ⟨shows_, -⟩ := options.document_shows kept held fun raw member => Resolver.suits_of_texts (single raw member).1
  have fits : ∀ frame ∈ frames, options.Single frame := by
    intro frame member
    obtain ⟨raw, given, shown⟩ := shows_ frame member
    exact shown.over_plain (single raw given).1 (over_stripSentinels (single raw given).2) _
  refine ⟨fun markup => @Options.process_of_single (options.marked markup) frames enabled fits, ?_⟩
  by_cases blank : boundary = ""
  · have unbounded : (Processor.ofOptions options).boundary = none := by
      simp [Processor.ofOptions, bounded, blank]
    refine iff_of_true (Options.length_shownLines_unbounded unbounded fits) fun before frame behind _ _ _ => ?_
    rw [blank]
    rfl
  · apply Options.length_shownLines_iff _ fits
    exact Option.filter_eq_some_iff.2 ⟨bounded, by simpa using blank⟩

/-- A method without a return type stops both traces. -/
theorem same_stop_without_return :
    let raws := [RawFrame.ofText "at native",
      .ofMethod { id := ⟨1⟩, name := "Run", declaringType := some (.named "Host") }]
    let options : Options := { boundary := some "Host" }
    let frames := (options.document [] raws (.ofOptions options)).1.frames
    options.postprocess = true ∧ options.boundary = some "Host" ∧ (Resolver.ofOptions options).Over .line ∧
      (∀ raw ∈ raws, raw.Single) ∧
      (∀ markup, ((options.marked markup).formatTrace [] raws (.ofOptions options)).1 = "│ at native\n") ∧
      (Renderer.ofOptions options).MeetsWhole "Host".toList frames := by
  intro raws options frames
  have kept : (Resolver.ofOptions options).Over .line := Resolver.over_ofOptions options
  have single : ∀ raw ∈ raws, raw.Single := by
    intro raw member
    rcases List.mem_cons.1 member with rfl | member
    · exact ⟨Alphabet.each_nil, Alphabet.over_of_fixed (by decide)⟩
    · obtain rfl := List.mem_singleton.1 member
      exact ⟨Alphabet.each_of_fixed (by decide), Alphabet.over_of_fixed (by decide)⟩
  obtain ⟨formatted, meets⟩ := same_stop_iff options rfl "Host" rfl (.ofOptions options) kept [] raws single
  refine ⟨rfl, rfl, kept, single, fun markup => ?_, meets.1 (by decide +kernel)⟩
  rw [formatted markup]
  cases markup <;> decide +kernel

/-- A method whose return type stands in front of the boundary stops the trace with marks only. -/
theorem stop_differs_behind_return :
    let run : Method := {
      id := ⟨1⟩, name := "Run", declaringType := some (.named "Host")
      returns := some { type := .qualified "System" "Void" } }
    let options : Options := { boundary := some "Host" }
    RawFrame.Single (.ofMethod run) ∧
      ((options.marked true).formatTrace [] [.ofMethod run] (.ofOptions options)).1 = "" ∧
      ((options.marked false).formatTrace [] [.ofMethod run] (.ofOptions options)).1 = "│ void Host.Run()" := by
  intro run options
  exact ⟨⟨Alphabet.each_of_fixed (by decide), Alphabet.over_of_fixed (by decide)⟩, by decide, by decide⟩

end Backtrace
