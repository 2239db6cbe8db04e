import Backtrace.Proofs.Render.Texts

/-!
The shape of the line of a frame: its markers are in order whatever its texts are, it is not empty, and
it ends in a character of its own.
-/
namespace Backtrace
open Marker

namespace Renderer

variable (renderer : Renderer)

theorem markers_returnPieces (method : ResolvedMethod) : (returnPieces method).filterMap Span.marker? =
    if method.returnText?.isSome then [.returnStart, .returnEnd] else [] := by
  unfold returnPieces
  cases method.returnText? <;> rfl

theorem markers_memberPieces (method : ResolvedMethod) :
    (renderer.memberPieces method).filterMap Span.marker? = [.nameStart, .nameEnd] := by
  have declaring : (declaringPieces method).filterMap Span.marker? = [] := by
    unfold declaringPieces
    split <;> rfl
  have ordinal : (ordinalPieces method).filterMap Span.marker? = [] := by
    unfold ordinalPieces
    split <;> rfl
  unfold memberPieces
  cases method.kind with
  | constructor => rfl
  | staticConstructor => rfl
  | method =>
    simp only [methodPieces, List.filterMap_append, declaring]
    split
    · simp only [List.filterMap_append, ordinal]
      rfl
    · rfl

theorem markers_locationPieces (location : Option Location) : (locationPieces location).filterMap Span.marker? =
    if location.isSome then [.fileStart, .fileEnd] else [] := by
  cases location <;> rfl

theorem markers_method (method : ResolvedMethod) (location : Option Location) :
    (renderer.method method location).markers =
      (if method.returnText?.isSome then [.returnStart, .returnEnd] else []) ++ [.nameStart, .nameEnd] ++
        if location.isSome then [.fileStart, .fileEnd] else [] := by
  rw [Renderer.method, Line.markers_ofPieces, List.filterMap_append, List.filterMap_append, markers_returnPieces,
    markers_memberPieces, markers_locationPieces]

/-- The markers of every line are in order and leave nothing open. -/
theorem line_settled (frame : ResolvedFrame) : (renderer.line frame).Settled := by
  cases frame with
  | raw text =>
    have bare : (renderer.line (.raw text)).markers = [] := Line.markers_ofPieces _
    exact ⟨bare ▸ ⟨.nil, .nil⟩, bare ▸ rfl, .inr (bare ▸ List.not_mem_nil)⟩
  | method shown location =>
    have name : Pairs (· ≠ .file) [.nameStart, .nameEnd] := @Pairs.pair _ .name [] (by decide) .nil
    have both : Pairs (· ≠ .file) [.returnStart, .returnEnd, .nameStart, .nameEnd] :=
      @Pairs.pair _ .returnType _ (by decide) name
    have marked := renderer.markers_method shown location
    change (renderer.line (.method shown location)).markers = _ at marked
    refine ⟨?_, ?_, .inl ?_⟩ <;> rw [marked]
    · cases shown.returnText?.isSome <;> cases location
      · exact ⟨name, .nil⟩
      · exact ⟨name, .pair .nil⟩
      · exact ⟨both, .nil⟩
      · exact ⟨both, .pair .nil⟩
    · cases shown.returnText?.isSome <;> cases location <;> rfl
    · simp

def Bracketed (pieces : List Span) : Prop :=
  ∃ (front : List Span) (text bracket : String) (markers : List Marker),
    pieces = front ++ .text (text ++ bracket) :: markers.map Span.marker ∧ bracket ∈ [")", "]", "\x7d"]

theorem Bracketed.append {pieces : List Span} (bracketed : Bracketed pieces) (front : List Span) :
    Bracketed (front ++ pieces) := by
  obtain ⟨start, text, bracket, markers, rfl, closing⟩ := bracketed
  exact ⟨front ++ start, text, bracket, markers, (List.append_assoc ..).symm, closing⟩

theorem parameterList_ends (parameters : Option (List ResolvedParameter)) :
    ∃ text, renderer.parameterList parameters = text ++ ")" := by
  unfold parameterList
  cases parameters with
  | none => exact ⟨_, rfl⟩
  | some parameters => exact ⟨_, rfl⟩

theorem bracketed_constructorPieces (word : String) (method : ResolvedMethod) :
    Bracketed (renderer.constructorPieces word method) := by
  obtain ⟨text, ends⟩ := renderer.parameterList_ends (some method.parameters)
  unfold constructorPieces
  rw [ends]
  exact ⟨[_, _, _, _], text, ")", [], rfl, by decide⟩

theorem bracketed_methodPieces (method : ResolvedMethod) : Bracketed (renderer.methodPieces method) := by
  unfold methodPieces
  split
  · unfold ordinalPieces
    cases method.ordinal with
    | none =>
      have closing : ("=>\x7b…\x7d" : String) = "=>\x7b…" ++ "\x7d" := by decide
      rw [closing, List.append_nil]
      exact .append ⟨[_, _, _], _, _, [.nameEnd], rfl, by decide⟩ _
    | some ordinal =>
      have own : Bracketed [.text (" [" ++ Text.decimalText ordinal.toNat ++ "]")] :=
        ⟨[], _, "]", [], rfl, by decide⟩
      exact (own.append _).append _
  · obtain ⟨text, ends⟩ := renderer.parameterList_ends (some method.parameters)
    rw [ends]
    exact .append ⟨[_], text, ")", [], rfl, by decide⟩ _

theorem bracketed_memberPieces (method : ResolvedMethod) : Bracketed (renderer.memberPieces method) := by
  unfold memberPieces
  cases method.kind with
  | constructor => exact renderer.bracketed_constructorPieces _ method
  | staticConstructor => exact renderer.bracketed_constructorPieces _ method
  | method => exact renderer.bracketed_methodPieces method

theorem bracketed_pieces (method : ResolvedMethod) (location : Option Location) :
    Bracketed (returnPieces method ++ renderer.memberPieces method ++ locationPieces location) := by
  cases location with
  | none =>
    rw [locationPieces, List.append_nil]
    exact (renderer.bracketed_memberPieces method).append _
  | some location => exact .append ⟨[_, _], "(at " ++ location.text, ")", [.fileEnd], rfl, by decide⟩ _

end Renderer

namespace Options

variable (options : Options)

theorem join_written (pieces : List Span) :
    options.written (.ofPieces pieces) = String.join (pieces.map options.writtenSpan) := by
  rw [written_eq_join, Line.join_ofPieces options.writtenSpan (fun _ _ => rfl) rfl]

theorem getLast_written_method (renderer : Renderer) (shown : ResolvedMethod) (location : Option Location) :
    ∃ c, (options.written (renderer.line (.method shown location))).toList.getLast? = some c ∧ c ≠ '\r' := by
  obtain ⟨front, text, bracket, markers, shape, closing⟩ := renderer.bracketed_pieces shown location
  have bounds : ∀ c ∈ (String.join ((markers.map Span.marker).map options.writtenSpan)).toList, c ≠ '\r' := by
    intro c member
    rw [String.toList_join, List.map_map, List.flatMap_map] at member
    obtain ⟨marker, -, found⟩ := List.mem_flatMap.1 member
    simp only [Function.comp, writtenSpan] at found
    split at found
    · obtain rfl := List.mem_singleton.1 (String.toList_singleton _ ▸ found)
      cases marker <;> decide
    · cases found
  have last : ∃ c, bracket.toList.getLast? = some c ∧ c ≠ '\r' := by
    rcases (by simpa using closing : bracket = ")" ∨ bracket = "]" ∨ bracket = "\x7d") with rfl | rfl | rfl
    all_goals exact ⟨_, rfl, by decide⟩
  obtain ⟨c, ends, different⟩ := last
  have whole : (options.written (renderer.line (.method shown location))).toList =
      (String.join (front.map options.writtenSpan)).toList ++ (text.toList ++ bracket.toList ++
        (String.join ((markers.map Span.marker).map options.writtenSpan)).toList) := by
    rw [Renderer.line, Renderer.method, join_written, shape, List.map_append, List.map_cons, String.join_append,
      String.join_cons, writtenSpan, String.toList_append, String.toList_append, String.toList_append]
  rw [whole, List.getLast?_append, List.getLast?_append, List.getLast?_append, ends]
  cases found : (String.join ((markers.map Span.marker).map options.writtenSpan)).toList.getLast? with
  | none => exact ⟨c, rfl, different⟩
  | some last => exact ⟨last, rfl, bounds last (List.mem_of_getLast? found)⟩

end Options

end Backtrace
