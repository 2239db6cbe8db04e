import Backtrace.Proofs.Trace.Data
import Backtrace.Trace.Load

/-!
Where text without marks is free of private characters. Raw texts are freed of them before they are
shown; the names of metadata and the texts of banners are shown as they are, so that the plain text of
a trace is free of them exactly where what is shown of these is.
-/
namespace Backtrace

def Document.Unmarked (document : Document) : Prop :=
  ∀ shown location, .method shown location ∈ document.frames →
    Alphabet.unmarked.Each (document.renderer.shownTexts (.method shown location))

structure TraceSection.Unmarked (part : TraceSection) : Prop where
  frames : part.document.Unmarked
  banner : ∀ type message rethrownAs, part.banner = some (.inner type message rethrownAs) →
    Alphabet.unmarked.Over type ∧ Alphabet.unmarked.Over message ∧ Alphabet.unmarked.Over rethrownAs

/-- A frame whose metadata holds no private characters, whatever its raw text holds. -/
def RawFrame.Unmarked (raw : RawFrame) : Prop := Alphabet.unmarked.Each raw.texts

theorem feed_unmarked : Alphabet.unmarked.Over "\n" := Alphabet.over_unmarked_of_all (by decide)

namespace Document

theorem over_lines_iff (document : Document) :
    Alphabet.unmarked.Each (document.lines.map Line.plain) ↔ document.Unmarked := by
  constructor
  · intro each shown location member
    rw [← document.renderer.over_plain_iff]
    exact each _ (List.mem_map.2 ⟨_, List.mem_map.2 ⟨_, member, rfl⟩, rfl⟩)
  · intro unmarked text member
    obtain ⟨line, found, rfl⟩ := List.mem_map.1 member
    obtain ⟨frame, given, rfl⟩ := List.mem_map.1 found
    refine (document.renderer.over_plain_iff frame).2 ?_
    cases frame with
    | raw text => exact Alphabet.each_cons.2 ⟨stripSentinels_unmarked text, Alphabet.each_nil⟩
    | method shown location => exact unmarked shown location given

theorem over_plainText_iff (document : Document) :
    Alphabet.unmarked.Over document.plainText ↔ document.Unmarked := by
  rw [plainText_eq, Alphabet.over_intercalate feed_unmarked, over_lines_iff]

theorem decoratedText_of_unmarked {document : Document} (off : document.renderer.markup = false) :
    document.decoratedText = document.plainText := by
  unfold decoratedText plainText
  refine congrArg "\n".intercalate (List.map_congr_left fun frame _ => ?_)
  rw [Renderer.decorated, off]
  rfl

end Document

theorem Banner.over_text_iff {alphabet : Alphabet} (type message rethrownAs : String) :
    alphabet.Over (Banner.inner type message rethrownAs).text ↔
      alphabet.Over type ∧ alphabet.Over message ∧ alphabet.Over rethrownAs := by
  have fixed : alphabet.Over " ---> " ∧ alphabet.Over " (rethrown as " ∧ alphabet.Over ")" ∧ alphabet.Over ": " :=
    ⟨Alphabet.over_of_fixed (by decide), Alphabet.over_of_fixed (by decide), Alphabet.over_of_fixed (by decide),
      Alphabet.over_of_fixed (by decide)⟩
  by_cases silent : message = ""
  · simp [text, headline, silent, fixed]
  · simp [text, headline, silent, fixed, and_assoc]

namespace ExceptionTrace

theorem over_plainText_iff (trace : ExceptionTrace) :
    Alphabet.unmarked.Over trace.plainText ↔ ∀ part ∈ trace.sections, part.Unmarked := by
  rw [plainText_eq, Alphabet.over_intercalate feed_unmarked, lines, List.map_flatMap, Alphabet.each_flatMap]
  refine forall₂_congr fun part _ => ?_
  rw [TraceSection.lines, List.map_append, Alphabet.each_append, part.document.over_lines_iff, List.map_map]
  constructor
  · intro each
    obtain ⟨title, frames⟩ := each
    refine ⟨frames, fun type message rethrownAs present => ?_⟩
    rw [← Banner.over_text_iff, ← Banner.plain_line]
    exact title _ (List.mem_map.2 ⟨_, Option.mem_toList.2 present, rfl⟩)
  · intro unmarked
    refine ⟨fun text member => ?_, unmarked.frames⟩
    obtain ⟨banner, present, rfl⟩ := List.mem_map.1 member
    rw [Function.comp, Banner.plain_line]
    cases banner with
    | callSite => exact Alphabet.over_of_fixed (by decide)
    | inner type message rethrownAs =>
      rw [Banner.over_text_iff]
      exact unmarked.banner type message rethrownAs (Option.mem_toList.1 present)

theorem decoratedText_of_unmarked {trace : ExceptionTrace}
    (off : ∀ part ∈ trace.sections, part.document.renderer.markup = false) :
    trace.decoratedText = trace.plainText := by
  unfold decoratedText plainText compose
  refine congrArg "\n".intercalate (List.flatMap_congr fun part member => ?_)
  rw [TraceSection.parts, Document.decoratedText_of_unmarked (off part member), TraceSection.parts]

end ExceptionTrace

theorem Document.unmarked_of_shows {frames : List ResolvedFrame} {renderer : Renderer}
    (shows_ : ∀ frame ∈ frames, ∃ raw : RawFrame, raw.Unmarked ∧
      Resolver.Shows (fun shown => Alphabet.unmarked.Each shown.texts) raw frame) :
    Document.Unmarked ⟨frames, renderer⟩ := by
  intro shown location member
  obtain ⟨raw, unmarked, shown⟩ := shows_ _ member
  rw [← Renderer.over_plain_iff]
  exact shown.over_plain unmarked (stripSentinels_unmarked raw.text) renderer

theorem TraceSection.MadeOf.unmarked {options : Options} {part : TraceSection} (made : MadeOf options
      (fun shown => Alphabet.unmarked.Each shown.texts) RawFrame.Unmarked Alphabet.unmarked.Over part) :
    part.Unmarked := ⟨Document.unmarked_of_shows made.frames, made.banner⟩

namespace Options

variable {options : Options}

theorem aggregate_rendered {α : Type} {view : ExceptionView α} {exception : α} {chain : List α}
    (walked : causes? view.cause (max options.maxDepth 1) [] exception = some chain) (held : List Nat)
    (callSite : Option (List RawFrame)) (resolver : Resolver) :
    ∃ trace after, options.aggregate view held exception callSite resolver = (.ok trace, after) ∧
      ∀ part ∈ trace.sections, part.document.renderer = .ofOptions options := by
  have kept : resolver.Holds fun _ => True := resolver.holds_of_forall fun _ => trivial
  have all (cause : α) : Known view (fun _ => True) (fun _ => True) cause := ⟨trivial, trivial, fun _ _ => trivial⟩
  obtain ⟨trace, after, made, -, parts, -⟩ := options.aggregate_made walked kept
    (fun _ _ _ _ _ _ => trivial) (fun cause _ => all cause) (fun raw _ => trivial) held
  exact ⟨trace, after, made, fun part member => (parts part member).rendered⟩

end Options

/-- Plain text is free of private characters exactly where all that is shown of metadata and of
exceptions is, and without marks decorated text is plain text. It is enough that the metadata that is
given holds none; raw texts may hold any. -/
theorem plain_text_unmarked_iff (options : Options) (held : List Nat) (resolver : Resolver) :
    (∀ raws : List RawFrame,
      let document := (options.document held raws resolver).1
      (Alphabet.unmarked.Over document.plainText ↔ document.Unmarked) ∧
      (options.markup = false → document.decoratedText = document.plainText) ∧
      (resolver.Over .unmarked → (∀ raw ∈ raws, raw.Unmarked) → Alphabet.unmarked.Over document.plainText)) ∧
    (∀ (α : Type) (view : ExceptionView α) (exception : α) (chain : List α) (callSite : Option (List RawFrame)),
      causes? view.cause (max options.maxDepth 1) [] exception = some chain →
      ∃ trace after, options.aggregate view held exception callSite resolver = (.ok trace, after) ∧
        (Alphabet.unmarked.Over trace.plainText ↔ ∀ part ∈ trace.sections, part.Unmarked) ∧
        (options.markup = false → trace.decoratedText = trace.plainText) ∧
        (resolver.Over .unmarked →
          (∀ cause ∈ chain, Options.Known view RawFrame.Unmarked Alphabet.unmarked.Over cause) →
          (∀ raw ∈ callSite.getD [], raw.Unmarked) → Alphabet.unmarked.Over trace.plainText)) := by
  have suits (raw : RawFrame) (unmarked : raw.Unmarked) :
      Resolver.Suits (fun shown => Alphabet.unmarked.Each shown.texts) raw := Resolver.suits_of_texts unmarked
  refine ⟨fun raws => ⟨Document.over_plainText_iff _, fun off => ?_, fun kept all => ?_⟩,
    fun α view exception chain callSite walked => ?_⟩
  · exact Document.decoratedText_of_unmarked off
  · rw [Document.over_plainText_iff]
    obtain ⟨shows_, -⟩ := options.document_shows kept held fun raw member => suits raw (all raw member)
    refine Document.unmarked_of_shows fun frame member => ?_
    obtain ⟨raw, given, shown⟩ := shows_ frame member
    exact ⟨raw, all raw given, shown⟩
  · obtain ⟨trace, after, made, rendered⟩ := Options.aggregate_rendered walked held callSite resolver
    refine ⟨trace, after, made, trace.over_plainText_iff, fun off => ?_, fun kept known alsoAll => ?_⟩
    · refine ExceptionTrace.decoratedText_of_unmarked fun part member => ?_
      rw [rendered part member]
      exact off
    · obtain ⟨same, last, again, -, parts, -⟩ := options.aggregate_made walked kept suits known alsoAll held
      cases made.symm.trans again
      rw [trace.over_plainText_iff]
      exact fun part member => (parts part member).unmarked

/-- A raw text may hold private characters where metadata holds none. -/
theorem plain_text_of_marked_raw_text :
    let raws := [RawFrame.ofText "at \ue004native", .ofMethod { id := ⟨1⟩, name := "Run" }]
    let options : Options := { markup := false }
    let exception : Exception := ⟨"Outer", "lost", raws, none⟩
    (Resolver.ofOptions options).Over .unmarked ∧ (∀ raw ∈ raws, raw.Unmarked) ∧
      causes? Exception.view.cause (max options.maxDepth 1) [] exception = some [exception] ∧
      Alphabet.unmarked.Over (options.document [] raws (.ofOptions options)).1.decoratedText ∧
      ∃ trace after,
        options.aggregate Exception.view [] exception (some raws) (.ofOptions options) = (.ok trace, after) ∧
          Alphabet.unmarked.Over trace.decoratedText := by
  intro raws options exception
  have kept : (Resolver.ofOptions options).Over .unmarked := Resolver.over_ofOptions options
  have all : ∀ raw ∈ raws, raw.Unmarked := by
    intro raw member
    rcases List.mem_cons.1 member with rfl | member
    · exact Alphabet.each_nil
    · obtain rfl := List.mem_singleton.1 member
      exact Alphabet.each_of_fixed (by decide)
  have walked : causes? Exception.view.cause (max options.maxDepth 1) [] exception = some [exception] := rfl
  have known : ∀ cause ∈ [exception], Options.Known Exception.view RawFrame.Unmarked Alphabet.unmarked.Over cause :=
    List.forall_mem_singleton.2 ⟨Alphabet.over_of_fixed (by decide), Alphabet.over_of_fixed (by decide), all⟩
  obtain ⟨onFrames, onExceptions⟩ := plain_text_unmarked_iff options [] (.ofOptions options)
  obtain ⟨-, same, free⟩ := onFrames raws
  obtain ⟨trace, after, made, -, alsoSame, alsoFree⟩ :=
    onExceptions Exception Exception.view exception [exception] (some raws) walked
  refine ⟨kept, all, walked, ?_, trace, after, made, ?_⟩
  · rw [same rfl]
    exact free kept all
  · rw [alsoSame rfl]
    exact alsoFree kept known all

/-- A name that holds a private character is shown with it, and the character opens a region. -/
theorem plain_text_of_marked_name :
    let run : Method := { id := ⟨1⟩, name := "Run\ue004" }
    let options : Options := { markup := false }
    let document := (options.document [] [.ofMethod run] (.ofOptions options)).1
    ¬Alphabet.unmarked.Over document.plainText ∧ ¬Alphabet.unmarked.Over document.decoratedText ∧
      (options.formatTrace [] [.ofMethod run] (.ofOptions options)).1 = "│ Run<size=8>()</size>" := by
  intro run options document
  have plain : document.plainText = "Run\ue004()" := by decide
  have decorated : document.decoratedText = "Run\ue004()" := by decide
  have marked : ¬Alphabet.unmarked.Over "Run\ue004()" := by
    intro clean
    have free : isSentinel '\ue004' = false := clean '\ue004' (by decide)
    revert free
    decide
  exact ⟨plain ▸ marked, decorated ▸ marked, by decide⟩

end Backtrace
