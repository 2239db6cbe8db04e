import Backtrace.Proofs.Markup.ShownLines
import Backtrace.Proofs.Trace.Data
import Backtrace.Trace.Load
import Mathlib.Data.List.TakeWhile

/-!
Final text, told by the lines of a trace. Where the texts of a trace are those of single lines and
there is no boundary, the final text is the final forms of its lines, one to a line, with marks and
without.
-/
namespace Backtrace

/-- A line that holds neither private characters nor ends of lines, and is not empty. -/
structure Line.Fits (line : Line) : Prop where
  inline : Alphabet.inline.Over line.plain
  settled : line.Settled
  filled : line.plain ≠ ""

namespace Line.Fits

variable {line : Line}

theorem unmarked (fits : line.Fits) : Line.Unmarked line.spans :=
  Line.unmarked_of_plain fits.inline.line_of_inline.unmarked_of_line

theorem single (fits : line.Fits) (options : Options) : '\n' ∉ (options.written line).toList := by
  rw [options.mem_written fits.unmarked (by decide)]
  intro member
  exact (fits.inline _ member).2.1 rfl

theorem unreturned (fits : line.Fits) (options : Options) : (options.written line).toList.getLast? ≠ some '\r' := by
  intro last
  have member := List.mem_of_getLast? last
  rw [options.mem_written fits.unmarked (by decide)] at member
  exact (fits.inline _ member).2.2 rfl

theorem written_ne_nil (fits : line.Fits) (options : Options) : (options.written line).toList ≠ [] := by
  obtain ⟨c, cs, letters⟩ : ∃ c cs, line.plain.toList = c :: cs := by
    apply List.exists_cons_of_ne_nil
    rw [Ne, String.toList_eq_nil_iff]
    exact fits.filled
  have member : c ∈ line.plain.toList := by rw [letters]; exact List.mem_cons_self
  rw [← options.mem_written fits.unmarked (fits.inline c member).1] at member
  exact List.ne_nil_of_mem member

end Line.Fits

theorem Banner.fits {banner : Banner} (told : ∀ type message rethrownAs, banner = .inner type message rethrownAs →
    Alphabet.inline.Over type ∧ Alphabet.inline.Over message ∧ Alphabet.inline.Over rethrownAs) : banner.line.Fits := by
  have bare : banner.line.markers = [] := rfl
  refine ⟨?_, ⟨bare ▸ ⟨.nil, .nil⟩, rfl, .inr (bare ▸ List.not_mem_nil)⟩, ?_⟩
  · rw [Banner.plain_line]
    cases banner with
    | callSite => exact Alphabet.over_of_fixed (by decide)
    | inner type message rethrownAs =>
      obtain ⟨typeOver, messageOver, rethrownOver⟩ := told type message rethrownAs rfl
      have fixed : Alphabet.inline.Over " ---> " ∧ Alphabet.inline.Over " (rethrown as " ∧
          Alphabet.inline.Over ")" ∧ Alphabet.inline.Over ": " :=
        ⟨Alphabet.over_of_fixed (by decide), Alphabet.over_of_fixed (by decide), Alphabet.over_of_fixed (by decide),
          Alphabet.over_of_fixed (by decide)⟩
      by_cases silent : message = ""
      · simp [Banner.text, headline, silent, typeOver, rethrownOver, fixed]
      · simp [Banner.text, headline, silent, typeOver, messageOver, rethrownOver, fixed]
  · rw [Banner.plain_line]
    cases banner <;> simp [Banner.text]

structure RawFrame.Fits (raw : RawFrame) : Prop where
  texts : Alphabet.inline.Each raw.texts
  text : Alphabet.inline.Over raw.text
  filled : raw.text ≠ ""

theorem RawFrame.Fits.line {raw : RawFrame} {frame : ResolvedFrame} (fits : raw.Fits)
    (shows_ : Resolver.Shows (fun shown => Alphabet.inline.Each shown.texts) raw frame) (renderer : Renderer) :
    (renderer.line frame).Fits := by
  refine ⟨shows_.over_plain fits.texts (over_stripSentinels fits.text) renderer, renderer.line_settled frame, ?_⟩
  cases shows_ with
  | raw =>
    change renderer.plain (.raw raw.text) ≠ ""
    rw [renderer.plain_raw, stripSentinels_of_unmarked fits.text.line_of_inline.unmarked_of_line]
    exact fits.filled
  | @method shown good =>
    obtain ⟨c, last, -⟩ := Options.getLast_written_method { markup := false } renderer shown raw.location
    intro empty
    rw [show Options.written { markup := false } (renderer.line (.method shown raw.location)) = "" from empty] at last
    cases last

namespace TraceSection.MadeOf

theorem fits {options : Options} {part : TraceSection}
    (made : MadeOf options (fun shown => Alphabet.inline.Each shown.texts) RawFrame.Fits Alphabet.inline.Over part) :
    ∀ line ∈ part.lines, line.Fits := by
  intro line member
  rcases List.mem_append.1 member with title | shown
  · obtain ⟨banner, present, rfl⟩ := List.mem_map.1 title
    apply Banner.fits
    rintro type message rethrownAs rfl
    exact made.banner type message rethrownAs (Option.mem_toList.1 present)
  · obtain ⟨frame, found, rfl⟩ := List.mem_map.1 shown
    obtain ⟨raw, fits, shows_⟩ := made.frames frame found
    exact fits.line shows_ part.document.renderer

end TraceSection.MadeOf

namespace Options

variable (options : Options)

def finalText (lines : List Line) : String := "\n".intercalate (lines.map options.finalLine)

theorem body_of_mem_ofTexts {lines : List Line} (fits : ∀ line ∈ lines, line.Fits) {text : TextLine}
    (member : text ∈ TextLine.ofTexts (lines.map options.written)) :
    ∃ line ∈ lines, text.body = (options.written line).toList := by
  obtain ⟨written, found, rest, same⟩ := TextLine.mem_ofTexts member
  obtain ⟨line, given, rfl⟩ := List.mem_map.1 found
  have fit := fits line given
  exact ⟨line, given, by rw [same, TextLine.ofLine_feedBefore (fit.single options) (fit.unreturned options)]⟩

theorem finalLine_written {line : Line} (fits : line.Fits) (ending : List Char) :
    (Processor.ofOptions options).finalLine ⟨(options.written line).toList, ending⟩ =
      (options.finalLine line).toList ++ ending := by
  rw [Processor.finalLine, options.withNameStart_written fits.unmarked fits.settled,
    options.finalForm_written fits.unmarked fits.settled]

theorem flatMap_finalLine {lines : List Line} (fits : ∀ line ∈ lines, line.Fits) :
    (TextLine.ofTexts (lines.map options.written)).flatMap (Processor.ofOptions options).finalLine =
      (options.finalText lines).toList := by
  induction lines with
  | nil => rfl
  | cons line lines ih =>
    obtain ⟨first, others⟩ := List.forall_mem_cons.1 fits
    rw [List.map_cons, TextLine.ofTexts_cons_eq, List.flatMap_cons,
      TextLine.ofLine_feedBefore (first.single options) (first.unreturned options), options.finalLine_written first,
      ih others, finalText, finalText, List.map_cons]
    by_cases more : lines = []
    · subst more
      simp [TextLine.feedBefore]
    · rw [String.intercalate_cons_of_ne_nil (by simpa using more), String.toList_append, String.toList_append,
        TextLine.feedBefore, if_neg (by simpa using more)]
      rfl

/-- The final form of lines that fit, where nothing ends them. -/
theorem process_of_fits {lines : List Line} (fits : ∀ line ∈ lines, line.Fits)
    (unbounded : options.boundary.filter (· ≠ "") = none) :
    (Processor.ofOptions options).process? ("\n".intercalate (lines.map options.written)) =
      .ok (options.finalText lines) := by
  have onward (body : List Char) : (Processor.ofOptions options).stopsAt body = false := by
    rw [Processor.stopsAt, show (Processor.ofOptions options).boundary = none from unbounded]
  have all : (Processor.ofOptions options).shown (TextLine.ofTexts (lines.map options.written)) =
      TextLine.ofTexts (lines.map options.written) := by
    unfold Processor.shown
    rw [List.takeWhile_eq_self_iff.2 fun text _ => by rw [onward]; rfl]
    apply List.filter_eq_self.2
    intro text member
    obtain ⟨line, found, same⟩ := options.body_of_mem_ofTexts fits member
    simpa [same] using (fits line found).written_ne_nil options
  have single : ∀ text ∈ lines.map options.written, '\n' ∉ text.toList := by
    intro text member
    obtain ⟨line, found, rfl⟩ := List.mem_map.1 member
    exact (fits line found).single options
  have order : ∀ text ∈ (Processor.ofOptions options).shown (TextLine.ofTexts (lines.map options.written)),
      Marker.InOrder (Marker.ofText (withNameStart text.body)) := by
    rw [all]
    intro text member
    obtain ⟨line, found, same⟩ := options.body_of_mem_ofTexts fits member
    rw [same, options.withNameStart_written (fits line found).unmarked (fits line found).settled]
    exact (options.inOrder_written (fits line found).unmarked (fits line found).settled).1
  rw [Processor.process?, Processor.lines_all _ single, options.lines_eq_of_inOrder 0 order, all,
    options.flatMap_finalLine fits]
  exact congrArg Except.ok String.ofList_toList

theorem suits_of_fits {raw : RawFrame} (fits : raw.Fits) :
    Resolver.Suits (fun shown => Alphabet.inline.Each shown.texts) raw := Resolver.suits_of_texts fits.texts

theorem formatTrace_of_fits (enabled : options.postprocess = true)
    (unbounded : options.boundary.filter (· ≠ "") = none) {resolver : Resolver} (kept : resolver.Over .inline)
    (held : List Nat) {raws : List RawFrame} (fits : ∀ raw ∈ raws, raw.Fits) :
    (Processor.ofOptions options).process? (options.document held raws resolver).1.decoratedText =
        .ok (options.finalText (options.document held raws resolver).1.lines) ∧
      options.formatTrace held raws resolver = (options.finalText (options.document held raws resolver).1.lines,
        (options.document held raws resolver).2.2) ∧
      (options.document held raws resolver).2.2.Over .inline := by
  obtain ⟨shows_, after⟩ := options.document_shows kept held fun raw member => suits_of_fits (fits raw member)
  have lines : ∀ line ∈ (options.document held raws resolver).1.lines, line.Fits := by
    intro line member
    obtain ⟨frame, found, rfl⟩ := List.mem_map.1 member
    obtain ⟨raw, given, shown⟩ := shows_ frame found
    exact (fits raw given).line shown _
  have processed : (Processor.ofOptions options).process? (options.document held raws resolver).1.decoratedText =
      .ok (options.finalText (options.document held raws resolver).1.lines) := by
    rw [Document.decoratedText_eq options rfl]
    exact options.process_of_fits lines unbounded
  refine ⟨processed, ?_, after⟩
  rw [formatTrace]
  exact congrArg (·, _) (options.process_eq enabled processed)

theorem formatException_of_fits {α : Type} (enabled : options.postprocess = true)
    (unbounded : options.boundary.filter (· ≠ "") = none) {resolver : Resolver} (kept : resolver.Over .inline)
    (held : List Nat) {view : ExceptionView α} {exception : α} {chain : List α} {callSite : Option (List RawFrame)}
    (walked : causes? view.cause (max options.maxDepth 1) [] exception = some chain)
    (known : ∀ cause ∈ chain, Known view RawFrame.Fits Alphabet.inline.Over cause)
    (alsoFits : ∀ raw ∈ callSite.getD [], raw.Fits) :
    ∃ trace after, options.aggregate view held exception callSite resolver = (.ok trace, after) ∧
      (Processor.ofOptions options).process? trace.decoratedText = .ok (options.finalText trace.lines) ∧
      options.formatException view held exception callSite resolver =
        (⟨headline (view.type exception) (view.message exception), options.finalText trace.lines⟩, after) ∧
      after.Over .inline := by
  obtain ⟨trace, after, made, title, parts, kept⟩ :=
    options.aggregate_made walked kept (fun _ fits => suits_of_fits fits) known alsoFits held
  have lines : ∀ line ∈ trace.lines, line.Fits := by
    intro line member
    obtain ⟨part, found, shown⟩ := List.mem_flatMap.1 member
    exact (parts part found).fits line shown
  have processed : (Processor.ofOptions options).process? trace.decoratedText =
      .ok (options.finalText trace.lines) := by
    rw [ExceptionTrace.decoratedText_eq options fun part member => (parts part member).rendered]
    exact options.process_of_fits lines unbounded
  refine ⟨trace, after, made, processed, ?_, kept⟩
  rw [formatException, made]
  refine congrArg (·, after) ?_
  rw [FormattedException.mk.injEq]
  exact ⟨title, options.process_eq enabled processed⟩

end Options

/-- Final text of frames and of exceptions. With marks and without, it is made of the same lines, in
order: each with the continuation in front, its texts with their separators made alike, and tags for
its markers where marks are on. Processing the decorated text never fails, and the resolver that is
left over is as good for the next trace as the first one was. -/
theorem final_text_of_lines (options : Options) (enabled : options.postprocess = true)
    (unbounded : options.boundary.filter (· ≠ "") = none) (resolver : Resolver) (kept : resolver.Over .inline)
    (held : List Nat) :
    (Resolver.ofOptions options).Over .inline ∧
    (∀ raws : List RawFrame, (∀ raw ∈ raws, raw.Fits) →
      ∃ lines after, after.Over .inline ∧ ∀ markup,
        ((options.marked markup).document held raws resolver).1.lines = lines ∧
        (Processor.ofOptions options).process? ((options.marked markup).document held raws resolver).1.decoratedText =
          .ok ((options.marked markup).finalText lines) ∧
        (options.marked markup).formatTrace held raws resolver = ((options.marked markup).finalText lines, after)) ∧
    (∀ (α : Type) (view : ExceptionView α) (exception : α) (chain : List α) (callSite : Option (List RawFrame)),
      causes? view.cause (max options.maxDepth 1) [] exception = some chain →
      (∀ cause ∈ chain, Options.Known view RawFrame.Fits Alphabet.inline.Over cause) →
      (∀ raw ∈ callSite.getD [], raw.Fits) →
      ∃ lines after, after.Over .inline ∧ ∀ markup, ∃ trace,
        (options.marked markup).aggregate view held exception callSite resolver = (.ok trace, after) ∧
        trace.lines = lines ∧
        (Processor.ofOptions options).process? trace.decoratedText = .ok ((options.marked markup).finalText lines) ∧
        (options.marked markup).formatException view held exception callSite resolver =
          (⟨headline (view.type exception) (view.message exception), (options.marked markup).finalText lines⟩,
            after)) := by
  refine ⟨Resolver.over_ofOptions options, fun raws fits => ?_,
    fun α view exception chain callSite walked known alsoFits => ?_⟩
  · obtain ⟨-, -, after⟩ := options.formatTrace_of_fits enabled unbounded kept held fits
    refine ⟨(options.document held raws resolver).1.lines, _, after, fun markup => ?_⟩
    have lines : ((options.marked markup).document held raws resolver).1.lines =
        (options.document held raws resolver).1.lines :=
      (options.document held raws resolver).1.lines_marked markup
    obtain ⟨processed, formatted, -⟩ :=
      (options.marked markup).formatTrace_of_fits enabled unbounded kept held fits
    rw [lines] at processed formatted
    rw [Options.ofOptions_marked] at processed
    exact ⟨lines, processed, formatted⟩
  · obtain ⟨trace, after, made, -, -, keptToo⟩ :=
      options.formatException_of_fits enabled unbounded kept held walked known alsoFits
    refine ⟨trace.lines, after, keptToo, fun markup => ⟨trace.marked markup, options.aggregate_marked markup made,
      trace.lines_marked markup, ?_⟩⟩
    obtain ⟨other, last, again, processed, formatted, -⟩ :=
      (options.marked markup).formatException_of_fits enabled unbounded kept held walked known alsoFits
    cases (options.aggregate_marked markup made).symm.trans again
    rw [trace.lines_marked] at processed formatted
    rw [Options.ofOptions_marked] at processed
    exact ⟨processed, formatted⟩

/-- An exception with a cause, a place in the source and a call site that is known by its text only. -/
theorem final_text_of_wrapped_exception :
    let run : Method := {
      id := ⟨1⟩, name := "Run", declaringType := some (.named "Host")
      returns := some { type := .qualified "System" "Void" } }
    let cause : Exception := ⟨"Inner", "lost", [(RawFrame.ofMethod run).located "src\\host.cs" (some 3)], none⟩
    let exception : Exception := ⟨"Outer", "", [.ofMethod run], some cause⟩
    let callSite := [RawFrame.ofText "at native"]
    let options : Options := {}
    options.postprocess = true ∧ options.boundary.filter (· ≠ "") = none ∧
      (Resolver.ofOptions options).Over .inline ∧ (∀ raw ∈ callSite, raw.Fits) ∧
      causes? Exception.view.cause (max options.maxDepth 1) [] exception = some [exception, cause] ∧
      (∀ known ∈ [exception, cause], Options.Known Exception.view RawFrame.Fits Alphabet.inline.Over known) ∧
      (options.formatTrace [] callSite (.ofOptions options)).1 = "│ at native" ∧
      (options.formatException Exception.view [] exception (some callSite) (.ofOptions options)).1 = ⟨"Outer",
        "│ <i>void</i> Host.<b><i>Run</i></b>()\n│  ---> Inner: lost (rethrown as Outer)\n" ++
        "│ <i>void</i> Host.<b><i>Run</i></b>() <size=8>(at src/host.cs:3)</size>\n" ++
        "│  ===> captured at:\n│ at native"⟩ := by
  intro run cause exception callSite options
  have kept : (Resolver.ofOptions options).Over .inline := Resolver.over_ofOptions options
  have native : ∀ raw ∈ callSite, raw.Fits := by
    intro raw member
    obtain rfl := List.mem_singleton.1 member
    exact ⟨Alphabet.each_of_fixed (by decide), Alphabet.over_of_fixed (by decide), by decide⟩
  have walked : causes? Exception.view.cause (max options.maxDepth 1) [] exception = some [exception, cause] := rfl
  have outer : Options.Known Exception.view RawFrame.Fits Alphabet.inline.Over exception := by
    refine ⟨Alphabet.over_of_fixed (by decide), Alphabet.over_of_fixed (by decide), fun raw member => ?_⟩
    obtain rfl := List.mem_singleton.1 member
    exact ⟨Alphabet.each_of_fixed (by decide), Alphabet.over_of_fixed (by decide), by decide⟩
  have inner : Options.Known Exception.view RawFrame.Fits Alphabet.inline.Over cause := by
    refine ⟨Alphabet.over_of_fixed (by decide), Alphabet.over_of_fixed (by decide), fun raw member => ?_⟩
    obtain rfl := List.mem_singleton.1 member
    exact ⟨Alphabet.each_of_fixed (by decide), Alphabet.over_of_fixed (by decide), by decide⟩
  have known : ∀ known ∈ [exception, cause], Options.Known Exception.view RawFrame.Fits Alphabet.inline.Over known :=
    List.forall_mem_cons.2 ⟨outer, List.forall_mem_singleton.2 inner⟩
  obtain ⟨-, onFrames, onExceptions⟩ := final_text_of_lines options rfl rfl (.ofOptions options) kept []
  obtain ⟨lines, after, -, shown⟩ := onFrames callSite native
  obtain ⟨rfl, -, traced⟩ := shown true
  obtain ⟨lines, last, -, all⟩ := onExceptions Exception Exception.view exception [exception, cause] (some callSite)
    walked known native
  obtain ⟨trace, made, rfl, -, formatted⟩ := all true
  have computed : (options.marked true).aggregate Exception.view [] exception (some callSite) (.ofOptions options) =
      (.ok ⟨_, _⟩, _) := rfl
  have same := Except.ok.inj (congrArg Prod.fst (computed.symm.trans made))
  subst same
  refine ⟨rfl, rfl, kept, native, walked, known, (congrArg Prod.fst traced).trans rfl,
    (congrArg Prod.fst formatted).trans ?_⟩
  rw [FormattedException.mk.injEq]
  exact ⟨rfl, by decide +kernel⟩

end Backtrace
