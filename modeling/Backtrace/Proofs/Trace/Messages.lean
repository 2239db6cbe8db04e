import Backtrace.Proofs.Markup.StoppedTexts
import Backtrace.Proofs.Trace.Boundary
import Backtrace.Proofs.Trace.Causes
import Backtrace.Proofs.Trace.Unmarked

/-!
Where a trace stops, with one message of an exception and with another. A message is written among the lines in
which the boundary is looked for, so that a line of its own, or the banner that it stands in, may be at the boundary.
Two traces that differ in messages only stop in the same place exactly if the banners up to there are taken alike.
-/
namespace Backtrace

inductive TraceEntry
  | title (banner : Banner)
  | line (frame : ResolvedFrame)

def Banner.withoutMessage : Banner → Banner
  | .inner type _ rethrownAs => .inner type "" rethrownAs
  | .callSite => .callSite

namespace TraceEntry

def withoutMessage : TraceEntry → TraceEntry
  | .title banner => .title banner.withoutMessage
  | .line frame => .line frame

def TellsMessage : TraceEntry → Prop
  | .title (.inner _ _ _) => True
  | .title .callSite => False
  | .line _ => False

def text (renderer : Renderer) : TraceEntry → String
  | .title banner => banner.text
  | .line frame => renderer.decorated frame

theorem TellsMessage.eq_inner {entry : TraceEntry} (tells : entry.TellsMessage) :
    ∃ type message rethrownAs, entry = .title (.inner type message rethrownAs) := by
  match entry with
  | .title (.inner _ _ _) => exact ⟨_, _, _, rfl⟩
  | .title .callSite => exact tells.elim
  | .line _ => exact tells.elim

theorem eq_of_withoutMessage {first second : TraceEntry} (same : first.withoutMessage = second.withoutMessage)
    (silent : ¬first.TellsMessage) : first = second := by
  match first, second with
  | .line _, .line _ => exact same
  | .title .callSite, .title .callSite => rfl
  | .title (.inner _ _ _), _ => exact absurd trivial silent
  | .line _, .title _ => nomatch same
  | .title .callSite, .line _ => nomatch same
  | .title .callSite, .title (.inner _ _ _) => nomatch same

end TraceEntry

namespace TraceSection

def entries (part : TraceSection) : List TraceEntry :=
  part.banner.toList.map .title ++ part.document.frames.map .line

theorem map_text_entries (options : Options) {part : TraceSection}
    (rendered : part.document.renderer = .ofOptions options) :
    part.entries.map (TraceEntry.text (.ofOptions options)) = part.lines.map options.written := by
  rw [entries, lines, Document.lines, List.map_append, List.map_append, rendered]
  simp only [List.map_map]
  exact congrArg (· ++ _) (List.map_congr_left fun banner _ => (banner.written_line options).symm)

theorem map_withoutMessage_entries (part : TraceSection) : part.entries.map TraceEntry.withoutMessage =
    (part.banner.map Banner.withoutMessage).toList.map .title ++ part.document.frames.map .line := by
  rw [entries, List.map_append, List.map_map, List.map_map, Option.toList_map, List.map_map]
  rfl

end TraceSection

namespace ExceptionTrace

def entries (trace : ExceptionTrace) : List TraceEntry := trace.sections.flatMap (·.entries)

/-- A trace is its entries, one to a line, though one of them may hold more lines than one. -/
theorem decoratedText_entries (options : Options) {trace : ExceptionTrace}
    (rendered : ∀ part ∈ trace.sections, part.document.renderer = .ofOptions options) :
    trace.decoratedText = "\n".intercalate (trace.entries.map (TraceEntry.text (.ofOptions options))) := by
  rw [decoratedText_eq options rendered, lines, entries, List.map_flatMap, List.map_flatMap]
  refine congrArg "\n".intercalate (List.flatMap_congr fun part member => ?_)
  exact (part.map_text_entries options (rendered part member)).symm

/-- Two traces with the same entries, but for the messages in them. -/
def SameButMessages (first second : ExceptionTrace) : Prop :=
  first.entries.map TraceEntry.withoutMessage = second.entries.map TraceEntry.withoutMessage

theorem sameButMessages_of_sections {first second : ExceptionTrace}
    (banners : first.sections.map (·.banner.map Banner.withoutMessage) =
      second.sections.map (·.banner.map Banner.withoutMessage))
    (documents : first.sections.map (·.document) = second.sections.map (·.document)) :
    first.SameButMessages second := by
  obtain ⟨_, parts⟩ := first
  obtain ⟨_, others⟩ := second
  unfold SameButMessages entries
  induction parts generalizing others with
  | nil => rw [List.map_eq_nil_iff.1 documents.symm]
  | cons part parts ih =>
    obtain ⟨other, others, rfl, -, -⟩ := List.map_eq_cons_iff.1 documents.symm
    obtain ⟨titles, moreTitles⟩ := List.cons.inj banners
    obtain ⟨document, moreDocuments⟩ := List.cons.inj documents
    have title : part.banner.map Banner.withoutMessage = other.banner.map Banner.withoutMessage := titles
    have frames : part.document.frames = other.document.frames := congrArg Document.frames document
    rw [List.flatMap_cons, List.flatMap_cons, List.map_append, List.map_append, part.map_withoutMessage_entries,
      other.map_withoutMessage_entries, title, frames]
    exact congrArg (_ ++ ·) (ih others moreTitles moreDocuments)

def TellsMessageAt (trace : ExceptionTrace) (index : Nat) : Prop :=
  ∃ entry, trace.entries[index]? = some entry ∧ entry.TellsMessage

def TitledOver (trace : ExceptionTrace) (alphabet : Alphabet) : Prop :=
  ∀ banner, .title banner ∈ trace.entries → alphabet.Over banner.text

theorem TitledOver.unmarked_of_line {trace : ExceptionTrace} (titled : trace.TitledOver .line) :
    trace.TitledOver .unmarked := fun banner member => (titled banner member).unmarked_of_line

theorem titledOver_of_told {trace : ExceptionTrace} {alphabet : Alphabet}
    (told : ∀ part ∈ trace.sections, ∀ type message rethrownAs, part.banner = some (.inner type message rethrownAs) →
      alphabet.Over type ∧ alphabet.Over message ∧ alphabet.Over rethrownAs) : trace.TitledOver alphabet := by
  intro banner member
  obtain ⟨part, found, inside⟩ := List.mem_flatMap.1 member
  have present : part.banner = some banner := by
    rw [TraceSection.entries, List.mem_append, List.mem_map, List.mem_map] at inside
    rcases inside with ⟨_, given, same⟩ | ⟨_, -, same⟩
    · cases same
      exact Option.mem_toList.1 given
    · cases same
  cases banner with
  | callSite => exact Alphabet.over_of_fixed (by decide)
  | inner type message rethrownAs =>
    exact (Banner.over_text_iff type message rethrownAs).2 (told part found type message rethrownAs present)

namespace SameButMessages

variable {first second : ExceptionTrace}

theorem length (same : first.SameButMessages second) : first.entries.length = second.entries.length := by
  rw [← List.length_map TraceEntry.withoutMessage, same, List.length_map]

theorem symm (same : first.SameButMessages second) : second.SameButMessages first := Eq.symm same

theorem getElem? (same : first.SameButMessages second) {index : Nat} (silent : ¬first.TellsMessageAt index) :
    first.entries[index]? = second.entries[index]? := by
  have both : (first.entries[index]?).map TraceEntry.withoutMessage =
      (second.entries[index]?).map TraceEntry.withoutMessage := by
    rw [← List.getElem?_map, ← List.getElem?_map, same]
  cases found : first.entries[index]? with
  | none =>
    rw [found] at both
    exact (Option.map_eq_none_iff.1 both.symm).symm
  | some entry =>
    rw [found] at both
    obtain ⟨other, also, equal⟩ := Option.map_eq_some_iff.1 both.symm
    rw [also, TraceEntry.eq_of_withoutMessage equal.symm fun tells => silent ⟨entry, found, tells⟩]

theorem tellsMessageAt (same : first.SameButMessages second) {index : Nat} (tells : first.TellsMessageAt index) :
    second.TellsMessageAt index := by
  by_contra silent
  obtain ⟨entry, found, told⟩ := tells
  exact silent ⟨entry, (same.symm.getElem? silent).trans found, told⟩

end SameButMessages

end ExceptionTrace

namespace ExceptionView

def Over {α : Type} (view : ExceptionView α) (alphabet : Alphabet) (chain : List α) : Prop :=
  ∀ cause ∈ chain, alphabet.Over (view.type cause) ∧ alphabet.Over (view.message cause)

variable {α β : Type} {view : ExceptionView α} {other : ExceptionView β} {chain : List α} {others : List β}

theorem banners_withoutMessage (types : chain.map view.type = others.map other.type) :
    (view.banners chain).map (·.map Banner.withoutMessage) =
      (other.banners others).map (·.map Banner.withoutMessage) := by
  have told {γ : Type} (view : ExceptionView γ) (chain : List γ) :
      (view.banners chain).map (·.map Banner.withoutMessage) =
        none :: (chain.map view.type).zipWith (fun outer inner => some (.inner inner "" outer))
          (chain.map view.type).tail := by
    rw [banners, List.map_cons, List.map_zipWith, ← List.map_tail, List.zipWith_map]
    rfl
  rw [told, told, types]

end ExceptionView

namespace Options

variable (options : Options)

def entryLines (trace : ExceptionTrace) : List (List TextLine) :=
  TextLine.groups (trace.entries.map (TraceEntry.text (.ofOptions options)))

def StopsIn (trace : ExceptionTrace) (index : Nat) : Prop :=
  (Processor.ofOptions options).StopsIn (options.entryLines trace) index

/-- Some line of the entry of a trace at an index is at the boundary. -/
def MeetsIn (trace : ExceptionTrace) (index : Nat) : Prop :=
  ∃ lines, (options.entryLines trace)[index]? = some lines ∧
    ∃ line ∈ lines, (Processor.ofOptions options).stopsAt line.body = true

variable {options} {trace first second : ExceptionTrace} {index : Nat}

theorem all_decoratedText (rendered : ∀ part ∈ trace.sections, part.document.renderer = .ofOptions options) :
    TextLine.all trace.decoratedText.toList = (options.entryLines trace).flatten := by
  rw [trace.decoratedText_entries options rendered, TextLine.all_intercalate]
  rfl

/-- The boundary is reached in the text of a trace exactly where it is reached in one of its entries. -/
theorem reachesBoundary_iff_stopsIn (rendered : ∀ part ∈ trace.sections, part.document.renderer = .ofOptions options) :
    (Processor.ofOptions options).ReachesBoundary (TextLine.all trace.decoratedText.toList) ↔
      ∃ index, options.StopsIn trace index := by
  rw [all_decoratedText rendered]
  exact Processor.reachesBoundary_flatten_iff

theorem entryLines_length (same : first.SameButMessages second) :
    (options.entryLines first).length = (options.entryLines second).length := by
  rw [entryLines, entryLines, TextLine.groups_length, TextLine.groups_length, List.length_map, List.length_map,
    same.length]

theorem entryLines_getElem? (same : first.SameButMessages second) (silent : ¬first.TellsMessageAt index) :
    (options.entryLines first)[index]? = (options.entryLines second)[index]? := by
  apply TextLine.groups_getElem?_congr
  · rw [List.length_map, List.length_map, same.length]
  · rw [List.getElem?_map, List.getElem?_map, same.getElem? silent]

theorem stopsIn_iff_of_messages (same : first.SameButMessages second) :
    (∀ index, options.StopsIn first index ↔ options.StopsIn second index) ↔
      ∀ index, options.StopsIn first index ∨ options.StopsIn second index → ∀ earlier ≤ index,
        first.TellsMessageAt earlier →
          (Processor.ofOptions options).AlikeAt (options.entryLines first) (options.entryLines second) earlier :=
  Processor.stopsIn_iff_alikeAt (entryLines_length same) fun _ silent => entryLines_getElem? same silent

section Unmarked

variable {lines others : List TextLine}

theorem passes_iff_of_unmarked {line : TextLine} (unmarked : ∀ c ∈ line.body, isSentinel c = false) :
    (Processor.ofOptions options).Passes line ↔ (Processor.ofOptions options).stopsAt line.body = false := by
  constructor
  · rintro (blank | ⟨inside, -⟩)
    · rw [blank]
      exact options.stopsAt_nil
    · exact inside
  · intro inside
    exact .inr ⟨inside, _, Processor.line_of_inOrder _ (inOrder_of_unmarked unmarked)⟩

theorem reachesBoundary_iff_of_unmarked (unmarked : ∀ line ∈ lines, ∀ c ∈ line.body, isSentinel c = false) :
    (Processor.ofOptions options).ReachesBoundary lines ↔
      ∃ line ∈ lines, (Processor.ofOptions options).stopsAt line.body = true := by
  constructor
  · rintro ⟨before, line, behind, rfl, -, -, stops⟩
    exact ⟨line, List.mem_append_right _ List.mem_cons_self, stops⟩
  · rintro ⟨line, member, stops⟩
    rcases (Processor.ofOptions options).passes_or_first lines with pass | ⟨before, first, behind, rfl, pass, refused⟩
    · rw [(passes_iff_of_unmarked (unmarked line member)).1 (pass line member)] at stops
      cases stops
    · have free := unmarked first (List.mem_append_right _ List.mem_cons_self)
      rw [passes_iff_of_unmarked free, Bool.not_eq_false] at refused
      refine ⟨before, first, behind, rfl, pass, fun blank => ?_, refused⟩
      rw [blank, options.stopsAt_nil] at refused
      cases refused

theorem alike_iff_of_unmarked (unmarked : ∀ line ∈ lines, ∀ c ∈ line.body, isSentinel c = false)
    (also : ∀ line ∈ others, ∀ c ∈ line.body, isSentinel c = false) :
    (Processor.ofOptions options).Alike lines others ↔
      ((∃ line ∈ lines, (Processor.ofOptions options).stopsAt line.body = true) ↔
        ∃ line ∈ others, (Processor.ofOptions options).stopsAt line.body = true) := by
  have passes {lines : List TextLine} (unmarked : ∀ line ∈ lines, ∀ c ∈ line.body, isSentinel c = false) :
      (∀ line ∈ lines, (Processor.ofOptions options).Passes line) ↔
        ¬∃ line ∈ lines, (Processor.ofOptions options).stopsAt line.body = true := by
    simp only [not_exists, not_and, Bool.not_eq_true]
    exact forall₂_congr fun line member => passes_iff_of_unmarked (unmarked line member)
  rw [← reachesBoundary_iff_of_unmarked unmarked, ← reachesBoundary_iff_of_unmarked also]
  constructor
  · intro alike
    exact alike.reaches
  · intro same
    refine ⟨?_, same⟩
    rw [passes unmarked, passes also, ← reachesBoundary_iff_of_unmarked unmarked,
      ← reachesBoundary_iff_of_unmarked also, same]

theorem eq_of_getElem?_entryLines {entry : TraceEntry} (given : trace.entries[index]? = some entry)
    (found : (options.entryLines trace)[index]? = some lines) :
    ∃ rest, lines = TextLine.all ((entry.text (.ofOptions options)).toList ++ TextLine.feedBefore rest) := by
  obtain ⟨text, rest, written, rfl⟩ := TextLine.getElem?_groups found
  rw [List.getElem?_map, given] at written
  exact ⟨rest, by rw [Option.some.inj written]⟩

theorem unmarked_of_tells (titled : trace.TitledOver .unmarked) (tells : trace.TellsMessageAt index)
    (found : (options.entryLines trace)[index]? = some lines) :
    ∀ line ∈ lines, ∀ c ∈ line.body, isSentinel c = false := by
  obtain ⟨entry, given, told⟩ := tells
  obtain ⟨rest, rfl⟩ := eq_of_getElem?_entryLines given found
  obtain ⟨type, message, rethrownAs, rfl⟩ := told.eq_inner
  intro line member c inside
  rcases List.mem_append.1 (TextLine.mem_of_mem_body member c inside) with inText | inFeed
  · exact titled _ (List.mem_of_getElem? given) c inText
  · exact feed_unmarked c (TextLine.feedBefore_subset rest c inFeed)

theorem exists_entryLines (tells : trace.TellsMessageAt index) :
    ∃ lines, (options.entryLines trace)[index]? = some lines := by
  obtain ⟨entry, given, -⟩ := tells
  refine ⟨_, List.getElem?_eq_getElem ?_⟩
  rw [entryLines, TextLine.groups_length, List.length_map]
  exact (List.getElem?_eq_some_iff.1 given).1

/-- Banners without markers are taken alike if some line of the one, and some line of the other, is at the
boundary. -/
theorem alikeAt_iff_meetsIn (same : first.SameButMessages second) (titled : first.TitledOver .unmarked)
    (alsoTitled : second.TitledOver .unmarked) (tells : first.TellsMessageAt index) :
    (Processor.ofOptions options).AlikeAt (options.entryLines first) (options.entryLines second) index ↔
      (options.MeetsIn first index ↔ options.MeetsIn second index) := by
  have alsoTells := same.tellsMessageAt tells
  obtain ⟨lines, found⟩ := @exists_entryLines options first index tells
  obtain ⟨others, also⟩ := @exists_entryLines options second index alsoTells
  have meets : (Processor.ofOptions options).Alike lines others ↔
      (options.MeetsIn first index ↔ options.MeetsIn second index) := by
    rw [alike_iff_of_unmarked (unmarked_of_tells titled tells found) (unmarked_of_tells alsoTitled alsoTells also)]
    simp only [MeetsIn, found, also, Option.some.injEq, exists_eq_left']
  rw [← meets]
  constructor
  · intro alike
    exact alike lines others found also
  · intro alike _ _ found' also'
    cases found.symm.trans found'
    cases also.symm.trans also'
    exact alike

/-- A banner of one line is at no boundary but one that starts as banners do. -/
theorem stopsAt_banner {type message rethrownAs : String}
    (unmarked : Alphabet.unmarked.Over (Banner.inner type message rethrownAs).text)
    (other : ∀ boundary, options.boundary = some boundary → boundary.toList.head? ≠ some '-') :
    (Processor.ofOptions options).stopsAt (Banner.inner type message rethrownAs).text.toList = false := by
  unfold Processor.stopsAt
  cases present : (Processor.ofOptions options).boundary with
  | none => rfl
  | some boundary =>
    obtain ⟨given, filled⟩ := Option.filter_eq_some_iff.1 present
    have head := other boundary given
    obtain ⟨rest, shape⟩ : ∃ rest, (Banner.inner type message rethrownAs).text.toList = ' ' :: '-' :: rest := by
      rw [Banner.text, String.toList_append, String.toList_append, String.toList_append, String.toList_append]
      exact ⟨_, rfl⟩
    dsimp only
    rw [atBoundary_of_unmarked unmarked, frameStartsWith, withoutSentinels_eq_self unmarked, shape]
    cases letters : boundary.toList with
    | nil => simp [String.toList_eq_nil_iff.1 letters] at filled
    | cons c cs =>
      rw [letters] at head
      have different : c ≠ '-' := by simpa using head
      have trimmed : Text.trimStart (' ' :: '-' :: rest) = '-' :: rest := rfl
      rw [trimmed]
      simp [List.isPrefixOf, List.isPrefixOf?, different]

theorem not_meetsIn_of_titledOver (titled : trace.TitledOver .line)
    (other : ∀ boundary, options.boundary = some boundary → boundary.toList.head? ≠ some '-')
    (tells : trace.TellsMessageAt index) : ¬options.MeetsIn trace index := by
  rintro ⟨lines, found, line, member, stops⟩
  obtain ⟨entry, given, told⟩ := tells
  obtain ⟨rest, rfl⟩ := eq_of_getElem?_entryLines given found
  obtain ⟨type, message, rethrownAs, rfl⟩ := told.eq_inner
  have clean := titled _ (List.mem_of_getElem? given)
  have last : (Banner.inner type message rethrownAs).text.toList.getLast? = some ')' := by
    rw [Banner.text, String.toList_append]
    exact List.getLast?_concat
  have one : TextLine.all ((Banner.inner type message rethrownAs).text.toList ++ TextLine.feedBefore rest) =
      [⟨(Banner.inner type message rethrownAs).text.toList, TextLine.feedBefore rest⟩] := by
    refine TextLine.all_feedBefore (List.ne_nil_of_mem (List.mem_of_getLast? last)) ?_ ?_ rest
    · exact fun feed => (clean _ feed).2 rfl
    · rw [last]
      decide
  obtain rfl := List.mem_singleton.1 (one ▸ member)
  rw [stopsAt_banner clean.unmarked_of_line other] at stops
  cases stops

end Unmarked

/-- Chains of exceptions with the same types and frames have the same trace, but for the messages. -/
theorem Traces.sameButMessages {α β : Type} {options : Options} {view : ExceptionView α} {other : ExceptionView β}
    {chain : List α} {others : List β} {held : List Nat} {callSite : Option (List RawFrame)} {resolver : Resolver}
    (traces : options.Traces view held chain callSite resolver first)
    (also : options.Traces other held others callSite resolver second)
    (types : chain.map view.type = others.map other.type) (frames : chain.map view.frames = others.map other.frames) :
    first.SameButMessages second := by
  have titles (trace : ExceptionTrace) : trace.sections.map (·.banner.map Banner.withoutMessage) =
      (trace.sections.map (·.banner)).map (·.map Banner.withoutMessage) := by
    rw [List.map_map]
    rfl
  apply ExceptionTrace.sameButMessages_of_sections
  · rw [titles, titles, traces.banners, also.banners, List.map_append, List.map_append,
      ExceptionView.banners_withoutMessage types]
  · rw [traces.documents, also.documents, frames]

theorem aggregate_titled {α : Type} (options : Options) {view : ExceptionView α} {exception : α} {chain : List α}
    (walk : CauseChain view.cause exception chain) (short : chain.length ≤ max options.maxDepth 1) (held : List Nat)
    (callSite : Option (List RawFrame)) (resolver : Resolver) :
    ∃ trace after, options.aggregate view held exception callSite resolver = (.ok trace, after) ∧
      options.Traces view held chain callSite resolver trace ∧
      (∀ part ∈ trace.sections, part.document.renderer = .ofOptions options) ∧
      ∀ alphabet, view.Over alphabet chain → trace.TitledOver alphabet := by
  have walked : causes? view.cause (max options.maxDepth 1) [] exception = some chain :=
    causes?_eq_some_iff.2 ⟨chain, walk, short, rfl⟩
  have made := options.aggregate_of_causes held callSite resolver walked
  obtain ⟨trace, after, traced, rendered⟩ := aggregate_rendered walked held callSite resolver
  cases made.symm.trans traced
  refine ⟨_, _, made, options.traces_sectionsWithSite walk held _, rendered, fun alphabet clean => ?_⟩
  have kept : resolver.Holds fun _ => True := resolver.holds_of_forall fun _ => trivial
  have known : ∀ cause ∈ chain, Known view (fun _ => True) alphabet.Over cause := by
    intro cause member
    exact ⟨(clean cause member).1, (clean cause member).2, fun _ _ => trivial⟩
  obtain ⟨_, _, again, -, parts, -⟩ := @aggregate_made _ _ _ _ _ options _ _ _ callSite walked kept
    (fun _ _ _ _ _ _ => trivial) known (fun _ _ => trivial) held
  cases made.symm.trans again
  exact ExceptionTrace.titledOver_of_told fun part member => (parts part member).banner

end Options

/-- Where two traces stop whose exceptions differ in their messages only. They are written from the same entries, but
for the messages, and stop in the same one or in none exactly if each banner up to where one of them stops is taken
alike in both. Where no type and no message holds private characters, that is if the banner has a line at the boundary
in both or in neither. Where they hold no line feeds either, no message decides it, unless the boundary starts as
banners do. -/
theorem same_stop_of_messages_iff {α β : Type} (options : Options) {view : ExceptionView α} {other : ExceptionView β}
    {exception : α} {outermost : β} {chain : List α} {others : List β}
    (walk : CauseChain view.cause exception chain) (also : CauseChain other.cause outermost others)
    (short : chain.length ≤ max options.maxDepth 1) (types : chain.map view.type = others.map other.type)
    (frames : chain.map view.frames = others.map other.frames) (held : List Nat) (callSite : Option (List RawFrame))
    (resolver : Resolver) :
    ∃ first second : ExceptionTrace,
      (options.aggregate view held exception callSite resolver).1 = .ok first ∧
      (options.aggregate other held outermost callSite resolver).1 = .ok second ∧
      first.SameButMessages second ∧
      (∀ trace ∈ [first, second], (Processor.ofOptions options).ReachesBoundary
        (TextLine.all trace.decoratedText.toList) ↔ ∃ index, options.StopsIn trace index) ∧
      ((∀ index, options.StopsIn first index ↔ options.StopsIn second index) ↔
        ∀ index, options.StopsIn first index ∨ options.StopsIn second index → ∀ earlier ≤ index,
          first.TellsMessageAt earlier →
            (Processor.ofOptions options).AlikeAt (options.entryLines first) (options.entryLines second) earlier) ∧
      (view.Over .unmarked chain → other.Over .unmarked others →
        ((∀ index, options.StopsIn first index ↔ options.StopsIn second index) ↔
          ∀ index, options.StopsIn first index ∨ options.StopsIn second index → ∀ earlier ≤ index,
            first.TellsMessageAt earlier → (options.MeetsIn first earlier ↔ options.MeetsIn second earlier))) ∧
      (view.Over .line chain → other.Over .line others →
        (∀ boundary, options.boundary = some boundary → boundary.toList.head? ≠ some '-') →
        ∀ index, options.StopsIn first index ↔ options.StopsIn second index) := by
  have length : others.length = chain.length := by
    rw [← List.length_map other.type, ← types, List.length_map]
  obtain ⟨first, after, made, traces, rendered, titled⟩ := options.aggregate_titled walk short held callSite resolver
  obtain ⟨second, _, alsoMade, alsoTraces, alsoRendered, alsoTitled⟩ :=
    options.aggregate_titled also (length ▸ short) held callSite resolver
  have same : first.SameButMessages second := traces.sameButMessages alsoTraces types frames
  have meets (clean : first.TitledOver .unmarked) (alsoClean : second.TitledOver .unmarked) :=
    (@Options.stopsIn_iff_of_messages options first second same).trans
      (forall₂_congr fun index _ => forall₂_congr fun earlier _ => forall_congr' fun tells =>
        Options.alikeAt_iff_meetsIn same clean alsoClean tells)
  refine ⟨first, second, by rw [made], by rw [alsoMade], same, ?_, Options.stopsIn_iff_of_messages same,
    fun clean alsoClean => ?_, fun clean alsoClean boundary => ?_⟩
  · simp only [List.forall_mem_cons]
    exact ⟨Options.reachesBoundary_iff_stopsIn rendered, Options.reachesBoundary_iff_stopsIn alsoRendered, by simp⟩
  · exact meets (titled _ clean) (alsoTitled _ alsoClean)
  · refine (meets (titled _ clean).unmarked_of_line (alsoTitled _ alsoClean).unmarked_of_line).2
      fun index _ earlier _ tells => iff_of_false ?_ ?_
    · exact Options.not_meetsIn_of_titledOver (titled _ clean) boundary tells
    · exact Options.not_meetsIn_of_titledOver (alsoTitled _ alsoClean) boundary (same.tellsMessageAt tells)

/-- A message that names the boundary in its only line does not move the stop, which is in the frame behind it. -/
theorem same_stop_of_named_boundary :
    let view (message : String) : ExceptionView Bool :=
      { type := fun outer => if outer then "Outer" else "Inner", message := fun outer => if outer then "" else message,
        cause := fun outer => if outer then some false else none,
        frames := fun outer => [.ofText (if outer then "at Run" else "at Host.Run")] }
    let options : Options := { boundary := some "Host" }
    (∀ message, CauseChain (view message).cause true [true, false]) ∧ 2 ≤ max options.maxDepth 1 ∧
      (∃ first second, (options.aggregate (view "lost") [] true none (.ofOptions options)).1 = .ok first ∧
        (options.aggregate (view "Host") [] true none (.ofOptions options)).1 = .ok second ∧
        ∀ index, options.StopsIn first index ↔ options.StopsIn second index) ∧
      (options.formatException (view "Host") [] true none (.ofOptions options)).1.stackTrace =
        "│ at Run\n│  ---> Inner: Host (rethrown as Outer)\n" := by
  intro view options
  have walk (message : String) : CauseChain (view message).cause true [true, false] := .on rfl (.last rfl)
  have single {message : String} (fixed : Alphabet.line.Over message) : (view message).Over .line [true, false] := by
    have outer : Alphabet.line.Over "Outer" := Alphabet.over_of_fixed (by decide)
    have inner : Alphabet.line.Over "Inner" := Alphabet.over_of_fixed (by decide)
    intro cause _
    cases cause with
    | true => exact ⟨outer, Alphabet.over_empty⟩
    | false => exact ⟨inner, fixed⟩
  refine ⟨walk, by decide, ?_, by decide +kernel⟩
  obtain ⟨first, second, made, also, -, -, -, -, stops⟩ :=
    same_stop_of_messages_iff options (walk "lost") (walk "Host") (by decide) rfl rfl [] none (.ofOptions options)
  refine ⟨first, second, made, also, stops ?_ ?_ ?_⟩
  · exact single (Alphabet.over_of_fixed (by decide))
  · exact single (Alphabet.over_of_fixed (by decide))
  · intro boundary present
    cases present
    decide

/-- A message with a second line at the boundary stops the trace inside it, where another message does not. -/
theorem message_stops_trace :
    let view (message : String) : ExceptionView Bool :=
      { type := fun outer => if outer then "Outer" else "Inner", message := fun outer => if outer then "" else message,
        cause := fun outer => if outer then some false else none,
        frames := fun outer => [.ofText (if outer then "at A" else "at B")] }
    let options : Options := { boundary := some "Host" }
    (∀ message, CauseChain (view message).cause true [true, false]) ∧
      (∃ trace, (options.aggregate (view "x\nHost") [] true none (.ofOptions options)).1 = .ok trace ∧
        (Processor.ofOptions options).ReachesBoundary (TextLine.all trace.decoratedText.toList)) ∧
      (∃ trace, (options.aggregate (view "x") [] true none (.ofOptions options)).1 = .ok trace ∧
        ¬(Processor.ofOptions options).ReachesBoundary (TextLine.all trace.decoratedText.toList)) ∧
      (options.formatException (view "x\nHost") [] true none (.ofOptions options)).1.stackTrace =
        "│ at A\n│  ---> Inner: x\n" ∧
      (options.formatException (view "x") [] true none (.ofOptions options)).1.stackTrace =
        "│ at A\n│  ---> Inner: x (rethrown as Outer)\n│ at B" := by
  intro view options
  have stops : (Processor.ofOptions options).ReachesBoundary
      (TextLine.all "at A\n ---> Inner: x\nHost (rethrown as Outer)\nat B".toList) := by
    refine ⟨[⟨"at A".toList, ['\n']⟩, ⟨" ---> Inner: x".toList, ['\n']⟩], ⟨"Host (rethrown as Outer)".toList, ['\n']⟩,
      [⟨"at B".toList, []⟩], by rfl, ?_, by decide, by decide⟩
    rw [List.forall_mem_cons, List.forall_mem_singleton]
    exact ⟨.inr ⟨rfl, _, rfl⟩, .inr ⟨rfl, _, rfl⟩⟩
  have onward : ∀ line ∈ TextLine.all "at A\n ---> Inner: x (rethrown as Outer)\nat B".toList,
      (Processor.ofOptions options).stopsAt line.body = false := by decide +kernel
  refine ⟨fun message => .on rfl (.last rfl), ⟨_, rfl, ?_⟩, ⟨_, rfl, ?_⟩, by decide +kernel, by decide +kernel⟩
  · rw [show ExceptionTrace.decoratedText _ = "at A\n ---> Inner: x\nHost (rethrown as Outer)\nat B" by decide +kernel]
    exact stops
  · rw [show ExceptionTrace.decoratedText _ = "at A\n ---> Inner: x (rethrown as Outer)\nat B" by decide +kernel]
    rintro ⟨before, line, behind, same, -, -, stopped⟩
    rw [onward line (same ▸ List.mem_append_right _ List.mem_cons_self)] at stopped
    cases stopped

end Backtrace
