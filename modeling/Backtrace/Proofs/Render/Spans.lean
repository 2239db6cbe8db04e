import Backtrace.Proofs.Markup.LineGrammar
import Mathlib.Data.List.Basic
import Mathlib.Data.List.Induction

/-!
The final form of a line told by its parts: texts with their separators made alike, and tags for
markers. Where no text of a line holds a private character, its decorated form gives all of that back.
-/
namespace Backtrace
open Marker

def Span.marker? : Span → Option Marker
  | .text _ => none
  | .marker bound => some bound

namespace Line

def markers (line : Line) : List Marker := line.spans.filterMap Span.marker?

theorem join_push (f : Span → String) (appends : ∀ a b, f (.text (a ++ b)) = f (.text a) ++ f (.text b))
    (empty : f (.text "") = "") (line : Line) (span : Span) :
    String.join ((line.push span).spans.map f) = String.join (line.spans.map f) ++ f span := by
  cases span with
  | marker marker => simp [push, pushMarker]
  | text text =>
    by_cases blank : text = ""
    · simp [push, pushText, blank, empty]
    · rw [push, pushText, if_neg blank]
      exact join_pushTo f appends text line.spans

theorem ofPieces_concat (pieces : List Span) (span : Span) :
    ofPieces (pieces ++ [span]) = (ofPieces pieces).push span := List.foldl_concat push {} span pieces

/-- What parts say one after the other is what the line of them says. -/
theorem join_ofPieces (f : Span → String) (appends : ∀ a b, f (.text (a ++ b)) = f (.text a) ++ f (.text b))
    (empty : f (.text "") = "") (pieces : List Span) :
    String.join ((ofPieces pieces).spans.map f) = String.join (pieces.map f) := by
  induction pieces using List.reverseRecOn with
  | nil => rfl
  | append_singleton pieces span ih =>
    rw [ofPieces_concat, join_push f appends empty, ih, List.map_append, List.map_singleton, String.join_append,
      String.join_cons, String.join_nil, String.append_empty]

theorem plain_ofPieces (pieces : List Span) : (ofPieces pieces).plain = String.join (pieces.map plainSpan) :=
  join_ofPieces plainSpan (fun _ _ => rfl) rfl pieces

theorem decorated_ofPieces (pieces : List Span) :
    (ofPieces pieces).decorated = String.join (pieces.map decoratedSpan) :=
  join_ofPieces decoratedSpan (fun _ _ => rfl) rfl pieces

theorem markers_pushTo (text : String) (spans : List Span) :
    (pushTo text spans).filterMap Span.marker? = spans.filterMap Span.marker? := by
  fun_induction pushTo text spans with
  | case1 => rfl
  | case2 => rfl
  | case3 span spans _ ih => simp only [List.filterMap_cons, ih]

theorem markers_push (line : Line) (span : Span) :
    (line.push span).markers = line.markers ++ [span].filterMap Span.marker? := by
  cases span with
  | marker marker => simp [push, pushMarker, markers]
  | text text =>
    by_cases blank : text = ""
    · rw [push, pushText, if_pos blank]
      exact (List.append_nil _).symm
    · rw [push, pushText, if_neg blank]
      exact (markers_pushTo text line.spans).trans (List.append_nil _).symm

theorem markers_ofPieces (pieces : List Span) : (ofPieces pieces).markers = pieces.filterMap Span.marker? := by
  induction pieces using List.reverseRecOn with
  | nil => rfl
  | append_singleton pieces span ih => rw [ofPieces_concat, markers_push, ih, List.filterMap_append]

end Line

/-! What is read off a text that holds no private characters. -/

theorem ofText_eq_nil {cs : List Char} (unmarked : ∀ c ∈ cs, isSentinel c = false) : ofText cs = [] := by
  apply List.filterMap_eq_nil_iff.2
  intro c member
  simpa [isSentinel] using unmarked c member

theorem withoutSentinels_eq_self {cs : List Char} (unmarked : ∀ c ∈ cs, isSentinel c = false) :
    withoutSentinels cs = cs := by
  apply List.filter_eq_self.2
  intro c member
  rw [unmarked c member]
  rfl

theorem put_of_unmarked (tags : Tags) {c : Char} (unmarked : isSentinel c = false) : tags.put c = [c] := by
  unfold Tags.put
  cases found : ofSentinel? c with
  | none => rfl
  | some marker => simp [isSentinel, found] at unmarked

theorem isSentinel_normalize (style : PathStyle) (c : Char) : isSentinel (style.normalize c) = isSentinel c := by
  rw [isSentinel, ofSentinel?_normalize, isSentinel]

theorem flatMap_put_normalize (tags : Tags) (style : PathStyle) {cs : List Char}
    (unmarked : ∀ c ∈ cs, isSentinel c = false) :
    (cs.map style.normalize).flatMap tags.put = cs.map style.normalize := by
  induction cs with
  | nil => rfl
  | cons c cs ih =>
    obtain ⟨head, tail⟩ := List.forall_mem_cons.1 unmarked
    rw [List.map_cons, List.flatMap_cons, ih tail, put_of_unmarked tags (by rwa [isSentinel_normalize])]
    rfl

theorem sentinel_mem_iff {marker : Marker} {cs : List Char} : marker.sentinel ∈ cs ↔ marker ∈ ofText cs := by
  constructor
  · intro member
    exact List.mem_filterMap.2 ⟨_, member, ofSentinel?_sentinel marker⟩
  · intro member
    obtain ⟨c, found, same⟩ := List.mem_filterMap.1 member
    rwa [sentinel_of_ofSentinel? same]

namespace Line

variable {spans : List Span}

/-- The texts among the parts hold no private characters. -/
def Unmarked (spans : List Span) : Prop := ∀ text, .text text ∈ spans → Alphabet.unmarked.Over text

theorem over_join_plain_iff : Alphabet.unmarked.Over (String.join (spans.map plainSpan)) ↔ Unmarked spans := by
  rw [Alphabet.over_join]
  constructor
  · exact fun each text member => each text (List.mem_map.2 ⟨.text text, member, rfl⟩)
  · intro unmarked text member
    obtain ⟨span, found, rfl⟩ := List.mem_map.1 member
    cases span with
    | text text => exact unmarked text found
    | marker marker => exact Alphabet.over_empty

theorem unmarked_of_plain {line : Line} (clean : Alphabet.unmarked.Over line.plain) : Unmarked line.spans :=
  over_join_plain_iff.1 clean

theorem unmarked_ofPieces_iff {pieces : List Span} : Unmarked (ofPieces pieces).spans ↔ Unmarked pieces := by
  rw [← over_join_plain_iff, ← plain, plain_ofPieces, over_join_plain_iff]

theorem ofText_decorated (unmarked : Unmarked spans) :
    ofText (String.join (spans.map decoratedSpan)).toList = spans.filterMap Span.marker? := by
  rw [String.toList_join, List.flatMap_map, ofText, List.filterMap_flatMap, List.filterMap_eq_flatMap_toList]
  apply List.flatMap_congr
  intro span member
  cases span with
  | text text => exact ofText_eq_nil (unmarked text member)
  | marker marker => cases marker <;> rfl

theorem withoutSentinels_join_decorated (spans : List Span) :
    withoutSentinels (String.join (spans.map decoratedSpan)).toList =
      withoutSentinels (String.join (spans.map plainSpan)).toList := by
  simp only [String.toList_join, List.flatMap_map, withoutSentinels, List.filter_flatMap]
  apply List.flatMap_congr
  intro span _
  cases span with
  | text text => rfl
  | marker marker => cases marker <;> rfl

theorem withoutSentinels_decorated (unmarked : Unmarked spans) :
    withoutSentinels (String.join (spans.map decoratedSpan)).toList = (String.join (spans.map plainSpan)).toList := by
  rw [withoutSentinels_join_decorated, withoutSentinels_eq_self (over_join_plain_iff.2 unmarked)]

structure Settled (line : Line) : Prop where
  order : InOrder line.markers
  closed : leavesFileOpen line.markers = false
  named : .nameStart ∈ line.markers ∨ .nameEnd ∉ line.markers

end Line

namespace Options

variable (options : Options)

def finalSpan : Span → String
  | .text text => String.ofList (text.toList.map options.pathStyle.normalize)
  | .marker marker => if options.markup then (Tags.ofStyle options.markupStyle options.fontSize).tag marker else ""

def finalLine (line : Line) : String := options.continuation ++ String.join (line.spans.map options.finalSpan)

def written (line : Line) : String := if options.markup then line.decorated else line.plain

def writtenSpan : Span → String
  | .text text => text
  | .marker marker => if options.markup then String.singleton marker.sentinel else ""

variable {line : Line}

theorem ofText_written (unmarked : Line.Unmarked line.spans) :
    ofText (options.written line).toList = if options.markup then line.markers else [] := by
  unfold written
  split
  · exact Line.ofText_decorated unmarked
  · apply ofText_eq_nil
    rw [Line.plain, ← Line.withoutSentinels_decorated unmarked]
    intro c member
    simpa using (List.mem_filter.1 member).2

theorem mem_written (unmarked : Line.Unmarked line.spans) {c : Char} (free : isSentinel c = false) :
    c ∈ (options.written line).toList ↔ c ∈ line.plain.toList := by
  unfold written
  split
  · rw [Line.plain, ← Line.withoutSentinels_decorated unmarked, withoutSentinels, List.mem_filter, free]
    exact (and_iff_left rfl).symm
  · rfl

theorem inOrder_written (unmarked : Line.Unmarked line.spans) (settled : line.Settled) :
    InOrder (ofText (options.written line).toList) ∧
      leavesFileOpen (ofText (options.written line).toList) = false := by
  rw [options.ofText_written unmarked]
  split
  · exact ⟨settled.order, settled.closed⟩
  · exact ⟨⟨.nil, .nil⟩, rfl⟩

theorem withNameStart_written (unmarked : Line.Unmarked line.spans) (settled : line.Settled) :
    withNameStart (options.written line).toList = (options.written line).toList := by
  apply (nameMarked_iff.1 (.kept _)).symm
  rw [sentinel_mem_iff, sentinel_mem_iff, options.ofText_written unmarked]
  split
  · exact settled.named
  · exact .inr List.not_mem_nil

theorem written_eq_join : options.written line = String.join (line.spans.map options.writtenSpan) := by
  unfold written
  by_cases shown : options.markup = true
  · rw [if_pos shown]
    refine congrArg (fun write => String.join (line.spans.map write)) (funext fun span => ?_)
    cases span with
    | text text => rfl
    | marker marker => exact (if_pos shown).symm
  · rw [if_neg shown]
    refine congrArg (fun write => String.join (line.spans.map write)) (funext fun span => ?_)
    cases span with
    | text text => rfl
    | marker marker => exact (if_neg shown).symm

theorem flatMap_put_written (unmarked : Line.Unmarked line.spans) :
    ((options.written line).toList.map options.pathStyle.normalize).flatMap
        (Tags.ofStyle options.markupStyle options.fontSize).put =
      (String.join (line.spans.map options.finalSpan)).toList := by
  have each : ∀ span ∈ line.spans,
      ((options.writtenSpan span).toList.map options.pathStyle.normalize).flatMap
        (Tags.ofStyle options.markupStyle options.fontSize).put = (options.finalSpan span).toList := by
    intro span member
    cases span with
    | text text =>
      rw [finalSpan, String.toList_ofList]
      exact flatMap_put_normalize _ _ (unmarked text member)
    | marker marker =>
      simp only [writtenSpan, finalSpan]
      split
      · rw [String.toList_singleton, List.map_singleton, PathStyle.normalize_sentinel, List.flatMap_singleton,
          Tags.put_sentinel]
      · rfl
  calc
    _ = line.spans.flatMap fun span => ((options.writtenSpan span).toList.map options.pathStyle.normalize).flatMap
          (Tags.ofStyle options.markupStyle options.fontSize).put := by
      rw [written_eq_join, String.toList_join, List.map_flatMap, List.flatMap_assoc, List.flatMap_map]
    _ = line.spans.flatMap fun span => (options.finalSpan span).toList := List.flatMap_congr each
    _ = _ := by rw [String.toList_join, List.flatMap_map]

/-- The final form of a line, told by its parts. -/
theorem finalForm_written (unmarked : Line.Unmarked line.spans) (settled : line.Settled) :
    (Processor.ofOptions options).finalForm (options.written line).toList = (options.finalLine line).toList := by
  rw [Processor.finalForm, closeFile, if_neg (by simp [options.inOrder_written unmarked settled]), finalLine,
    String.toList_append]
  exact congrArg _ (options.flatMap_put_written unmarked)

end Options

end Backtrace
