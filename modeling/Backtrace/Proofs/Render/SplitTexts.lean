import Backtrace.Proofs.Render.Spans
import Mathlib.Data.List.Chain

/-!
Decorated text read back. However texts and markers are pushed, a line has no empty text and no two texts
side by side. Among the lines of that form whose texts hold no private character, each text is the decorated
text of exactly one: the pieces between its private characters with the markers of these.
-/
namespace Backtrace
open Marker

namespace Line

variable {spans : List Span}

/-- No part is an empty text, and of two parts side by side one is a marker. -/
structure Tidy (spans : List Span) : Prop where
  filled : .text "" ∉ spans
  apart : spans.IsChain fun first second => first.marker?.isSome ∨ second.marker?.isSome

theorem tidy_nil : Tidy [] := ⟨List.not_mem_nil, .nil⟩

theorem tidy_singleton_iff {span : Span} : Tidy [span] ↔ span ≠ .text "" := by
  constructor
  · intro tidy blank
    exact tidy.filled (List.mem_singleton.2 blank.symm)
  · exact fun filled => ⟨fun member => filled (List.mem_singleton.1 member).symm, .singleton span⟩

theorem tidy_append_iff {front behind : List Span} : Tidy (front ++ behind) ↔ Tidy front ∧ Tidy behind ∧
    ∀ last ∈ front.getLast?, ∀ next ∈ behind.head?, last.marker?.isSome ∨ next.marker?.isSome := by
  constructor
  · intro tidy
    obtain ⟨frontApart, behindApart, meet⟩ := List.isChain_append.1 tidy.apart
    exact ⟨⟨fun member => tidy.filled (List.mem_append_left _ member), frontApart⟩,
      ⟨fun member => tidy.filled (List.mem_append_right _ member), behindApart⟩, meet⟩
  · intro both
    obtain ⟨front, behind, meet⟩ := both
    refine ⟨fun member => ?_, List.isChain_append.2 ⟨front.apart, behind.apart, meet⟩⟩
    rcases List.mem_append.1 member with member | member
    · exact front.filled member
    · exact behind.filled member

theorem tidy_concat_iff {span : Span} : Tidy (spans ++ [span]) ↔ Tidy spans ∧ span ≠ .text "" ∧
    ∀ last ∈ spans.getLast?, last.marker?.isSome ∨ span.marker?.isSome := by
  simp only [tidy_append_iff, tidy_singleton_iff, List.head?_cons, Option.mem_some_iff, forall_eq']

theorem tidy_cons_iff {span : Span} : Tidy (span :: spans) ↔ span ≠ .text "" ∧ Tidy spans ∧
    ∀ next ∈ spans.head?, span.marker?.isSome ∨ next.marker?.isSome := by
  rw [← List.singleton_append, tidy_append_iff]
  simp only [tidy_singleton_iff, List.getLast?_singleton, Option.mem_some_iff, forall_eq']

theorem pushTo_cases (text : String) (spans : List Span) :
    (∃ front last, spans = front ++ [.text last] ∧ pushTo text spans = front ++ [.text (last ++ text)]) ∨
      (∀ last ∈ spans.getLast?, last.marker?.isSome) ∧ pushTo text spans = spans ++ [.text text] := by
  fun_induction pushTo text spans with
  | case1 => exact .inr ⟨fun last ends => absurd ends (Option.not_mem_none last), rfl⟩
  | case2 last => exact .inl ⟨[], last, rfl, rfl⟩
  | case3 span spans notText ih =>
    rcases ih with ⟨front, last, shape, merged⟩ | ⟨marked, appended⟩
    · exact .inl ⟨span :: front, last, congrArg (span :: ·) shape, congrArg (span :: ·) merged⟩
    · refine .inr ⟨fun last ends => ?_, congrArg (span :: ·) appended⟩
      cases spans with
      | nil =>
        -- a text that is the last part would have taken the new one to itself
        obtain rfl := Option.some.inj ends
        cases span with
        | text text => exact absurd rfl (notText text rfl)
        | marker marker => rfl
      | cons next spans => exact marked last (by rwa [List.getLast?_cons_cons] at ends)

theorem Tidy.pushTo (tidy : Tidy spans) {text : String} (filled : text ≠ "") : Tidy (pushTo text spans) := by
  rcases pushTo_cases text spans with ⟨front, last, rfl, merged⟩ | ⟨marked, appended⟩
  · obtain ⟨front, -, meet⟩ := tidy_concat_iff.1 tidy
    have longer : Span.text (last ++ text) ≠ .text "" := by simp [filled]
    rw [merged]
    exact tidy_concat_iff.2 ⟨front, longer, meet⟩
  · rw [appended]
    exact tidy_concat_iff.2 ⟨tidy, fun same => filled (Span.text.inj same), fun last ends => .inl (marked last ends)⟩

theorem Tidy.push {line : Line} (tidy : Tidy line.spans) (span : Span) : Tidy (line.push span).spans := by
  cases span with
  | marker marker => exact tidy_concat_iff.2 ⟨tidy, nofun, fun _ _ => .inr rfl⟩
  | text text =>
    by_cases blank : text = ""
    · rwa [Line.push, pushText, if_pos blank]
    · rw [Line.push, pushText, if_neg blank]
      exact tidy.pushTo blank

/-- Whatever is pushed, the line is tidy. -/
theorem tidy_ofPieces (pieces : List Span) : Tidy (ofPieces pieces).spans := by
  induction pieces using List.reverseRecOn with
  | nil => exact tidy_nil
  | append_singleton pieces span ih =>
    rw [ofPieces_concat]
    exact ih.push span

end Line

/-! Splitting a text at its private characters. -/

theorem isSentinel_sentinel (marker : Marker) : isSentinel marker.sentinel = true := by
  rw [isSentinel, ofSentinel?_sentinel]
  rfl

/-- Every text is a run without private characters, or such a run, one of them and a text behind it. -/
theorem run_induction {motive : List Char → Prop}
    (run : ∀ cs : List Char, (∀ c ∈ cs, isSentinel c = false) → motive cs)
    (marked : ∀ (cs : List Char) (marker : Marker) (rest : List Char), (∀ c ∈ cs, isSentinel c = false) →
      motive rest → motive (cs ++ marker.sentinel :: rest)) (cs : List Char) : motive cs := by
  induction size : cs.length using Nat.strong_induction_on generalizing cs with
  | h n ih =>
    -- the text is cut at its first private character
    cases found : cs.find? isSentinel with
    | none => exact run cs fun c member => by simpa using List.find?_eq_none.1 found c member
    | some c =>
      obtain ⟨isMark, front, rest, rfl, free⟩ := List.find?_eq_some_iff_append.1 found
      obtain ⟨marker, named⟩ := Option.isSome_iff_exists.1 isMark
      obtain rfl := sentinel_of_ofSentinel? named
      refine marked front marker rest (fun c member => by simpa using free c member) (ih rest.length ?_ rest rfl)
      rw [← size, List.length_append, List.length_cons]
      omega

namespace Line

def runPart (run : List Char) : List Span := if run = [] then [] else [.text (String.ofList run)]

def alternate : List (List Char) → List Marker → List Span
  | run :: runs, marker :: markers => runPart run ++ .marker marker :: alternate runs markers
  | runs, _ => runs.flatMap runPart

/-- The parts of a text that is split at its private characters. -/
def split (cs : List Char) : List Span := alternate (cs.splitOnP isSentinel) (Marker.ofText cs)

def ofDecorated (text : String) : Line := ⟨split text.toList⟩

/-! What the parts of a text are. -/

theorem split_of_unmarked {cs : List Char} (unmarked : ∀ c ∈ cs, isSentinel c = false) : split cs = runPart cs := by
  rw [split, List.splitOnP_eq_singleton unmarked, ofText_eq_nil unmarked, alternate, List.flatMap_singleton]
  exact nofun

@[simp] theorem split_nil : split [] = [] := split_of_unmarked (List.forall_mem_nil _)

theorem split_append_sentinel {cs : List Char} (unmarked : ∀ c ∈ cs, isSentinel c = false) (marker : Marker)
    (rest : List Char) : split (cs ++ marker.sentinel :: rest) = runPart cs ++ .marker marker :: split rest := by
  have markers : Marker.ofText (cs ++ marker.sentinel :: rest) = marker :: Marker.ofText rest := by
    rw [Marker.ofText, List.filterMap_append, ← Marker.ofText, ofText_eq_nil unmarked, List.nil_append,
      List.filterMap_cons_some (ofSentinel?_sentinel marker), Marker.ofText]
  rw [split, List.splitOnP_append_cons_of_forall_mem unmarked _ (isSentinel_sentinel marker), markers, alternate, split]

theorem split_sentinel (marker : Marker) (cs : List Char) :
    split (marker.sentinel :: cs) = .marker marker :: split cs :=
  split_append_sentinel (List.forall_mem_nil _) marker cs

theorem tidy_runPart (run : List Char) : Tidy (runPart run) := by
  unfold runPart
  split_ifs with blank
  · exact tidy_nil
  · exact tidy_singleton_iff.2 fun same => blank (by simpa using Span.text.inj same)

theorem tidy_split (cs : List Char) : Tidy (split cs) := by
  induction cs using run_induction with
  | run cs unmarked =>
    rw [split_of_unmarked unmarked]
    exact tidy_runPart cs
  | marked cs marker rest unmarked ih =>
    rw [split_append_sentinel unmarked]
    refine tidy_append_iff.2 ⟨tidy_runPart cs, tidy_cons_iff.2 ⟨nofun, ih, fun _ _ => .inl rfl⟩, ?_⟩
    intro last _ next starts
    obtain rfl := Option.some.inj starts
    exact .inr rfl

theorem mem_runPart {run : List Char} {span : Span} (member : span ∈ runPart run) :
    span = .text (String.ofList run) := by
  unfold runPart at member
  split_ifs at member
  · cases member
  · exact List.mem_singleton.1 member

theorem unmarked_runPart {run : List Char} (unmarked : ∀ c ∈ run, isSentinel c = false) : Unmarked (runPart run) := by
  intro text member
  obtain rfl := Span.text.inj (mem_runPart member)
  exact Alphabet.over_ofList.2 unmarked

theorem unmarked_split (cs : List Char) : Unmarked (split cs) := by
  induction cs using run_induction with
  | run cs unmarked =>
    rw [split_of_unmarked unmarked]
    exact unmarked_runPart unmarked
  | marked cs marker rest unmarked ih =>
    rw [split_append_sentinel unmarked]
    intro text member
    rcases List.mem_append.1 member with inRun | behind
    · exact unmarked_runPart unmarked text inRun
    · exact ih text ((List.mem_cons.1 behind).resolve_left nofun)

/-! Splitting and writing undo each other. -/

def letters (spans : List Span) : List Char := (String.join (spans.map decoratedSpan)).toList

@[simp] theorem letters_nil : letters [] = [] := rfl

@[simp] theorem letters_marker (marker : Marker) (spans : List Span) :
    letters (.marker marker :: spans) = marker.sentinel :: letters spans := by
  simp [letters, decoratedSpan]

@[simp] theorem letters_text (text : String) (spans : List Span) :
    letters (.text text :: spans) = text.toList ++ letters spans := by
  simp [letters, decoratedSpan]

theorem letters_runPart_append (run : List Char) (spans : List Span) :
    letters (runPart run ++ spans) = run ++ letters spans := by
  unfold runPart
  split_ifs with blank
  · rw [blank, List.nil_append, List.nil_append]
  · rw [List.singleton_append, letters_text, String.toList_ofList]

theorem letters_split (cs : List Char) : letters (split cs) = cs := by
  induction cs using run_induction with
  | run cs unmarked =>
    rw [split_of_unmarked unmarked, ← List.append_nil (runPart cs), letters_runPart_append, letters_nil,
      List.append_nil]
  | marked cs marker rest unmarked ih =>
    rw [split_append_sentinel unmarked, letters_runPart_append, letters_marker, ih]

theorem split_text_append {text : String} {spans : List Span} (filled : text ≠ "")
    (unmarked : Alphabet.unmarked.Over text) (apart : ∀ next ∈ spans.head?, next.marker?.isSome) :
    split (text.toList ++ letters spans) = .text text :: split (letters spans) := by
  have run : runPart text.toList = [.text text] := by
    rw [runPart, if_neg (by simpa using filled), String.ofList_toList]
  cases spans with
  | nil => rw [letters_nil, List.append_nil, split_of_unmarked unmarked, run, split_nil]
  | cons next spans =>
    cases next with
    | text next => cases apart _ rfl
    | marker marker =>
      rw [letters_marker, split_append_sentinel unmarked, run, split_sentinel]
      rfl

/-- What tidy and unmarked parts are written as is split into them again. -/
theorem split_letters {spans : List Span} (tidy : Tidy spans) (unmarked : Unmarked spans) :
    split (letters spans) = spans := by
  induction spans with
  | nil => exact split_nil
  | cons span spans ih =>
    obtain ⟨filled, behind, apart⟩ := tidy_cons_iff.1 tidy
    have rest : split (letters spans) = spans :=
      ih behind fun text member => unmarked text (List.mem_cons_of_mem _ member)
    cases span with
    | marker marker => rw [letters_marker, split_sentinel, rest]
    | text text =>
      have notText : ∀ next ∈ spans.head?, next.marker?.isSome :=
        fun next starts => (apart next starts).resolve_left nofun
      rw [letters_text, split_text_append (fun blank => filled (congrArg Span.text blank))
        (unmarked text List.mem_cons_self) notText, rest]

/-- A text is the decorated text of the line that it is read as, and of no other that is tidy and unmarked. -/
theorem ofDecorated_eq_iff {text : String} {line : Line} :
    ofDecorated text = line ↔ Tidy line.spans ∧ Unmarked line.spans ∧ line.decorated = text := by
  constructor
  · rintro rfl
    exact ⟨tidy_split _, unmarked_split _, String.toList_injective (letters_split text.toList)⟩
  · intro written
    obtain ⟨tidy, unmarked, rfl⟩ := written
    exact congrArg Line.mk (split_letters tidy unmarked)

theorem ofDecorated_ofPieces {pieces : List Span} (unmarked : Unmarked pieces) :
    ofDecorated (ofPieces pieces).decorated = ofPieces pieces :=
  ofDecorated_eq_iff.2 ⟨tidy_ofPieces pieces, unmarked_ofPieces_iff.2 unmarked, rfl⟩

end Line

/-- Writing a line with private characters for its markers loses nothing. Whatever is pushed, the line is
tidy, and freed of private characters its two forms are the same. Where no pushed text holds one, the
decorated text alone tells the plain text and all parts of the line. -/
theorem decorated_text_recovers_line (pieces : List Span) :
    let line := Line.ofPieces pieces
    Line.Tidy line.spans ∧ stripSentinels line.decorated = stripSentinels line.plain ∧
      (Line.Unmarked pieces →
        stripSentinels line.decorated = line.plain ∧ Line.ofDecorated line.decorated = line ∧
          ∀ others, Line.Unmarked others → (Line.ofPieces others).decorated = line.decorated →
            (Line.ofPieces others).spans = line.spans) := by
  intro line
  refine ⟨Line.tidy_ofPieces pieces, ?_, fun unmarked => ⟨?_, Line.ofDecorated_ofPieces unmarked, ?_⟩⟩
  · exact congrArg String.ofList (Line.withoutSentinels_join_decorated line.spans)
  · have clean : Line.Unmarked line.spans := Line.unmarked_ofPieces_iff.2 unmarked
    rw [stripSentinels, Line.decorated, Line.withoutSentinels_decorated clean, String.ofList_toList]
    rfl
  · intro others alsoUnmarked same
    have read : Line.ofPieces others = line := by
      rw [← Line.ofDecorated_ofPieces alsoUnmarked, same, Line.ofDecorated_ofPieces unmarked]
    exact congrArg Line.spans read

/-- Texts that are pushed in other pieces make the same line, and empty ones make no part. -/
theorem decorated_text_recovers_merged_line :
    let pieces : List Span := [.text "My", .text "", .text "Class.", .marker .nameStart, .text "Run", .marker .nameEnd]
    let others : List Span := [.text "MyClass", .text ".", .marker .nameStart, .text "Ru", .text "n", .text "",
      .marker .nameEnd, .text ""]
    let line := Line.ofPieces pieces
    Line.Unmarked pieces ∧ Line.Unmarked others ∧ (Line.ofPieces others).decorated = line.decorated ∧
      Line.Tidy line.spans ∧ stripSentinels line.decorated = "MyClass.Run" ∧
      Line.ofDecorated "MyClass.\ue002Run\ue003" = line ∧ (Line.ofPieces others).spans = line.spans := by
  intro pieces others line
  have unmarked : Line.Unmarked pieces := Line.over_join_plain_iff.1 (Alphabet.over_of_fixed (by decide))
  have alsoUnmarked : Line.Unmarked others := Line.over_join_plain_iff.1 (Alphabet.over_of_fixed (by decide))
  have same : (Line.ofPieces others).decorated = line.decorated := by decide
  have written : line.decorated = "MyClass.\ue002Run\ue003" := by decide
  have shown : line.plain = "MyClass.Run" := by decide
  obtain ⟨tidy, -, recovers⟩ := decorated_text_recovers_line pieces
  obtain ⟨stripped, read, alike⟩ := recovers unmarked
  exact ⟨unmarked, alsoUnmarked, same, tidy, stripped.trans shown, written ▸ read, alike others alsoUnmarked same⟩

end Backtrace
