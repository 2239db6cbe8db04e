import Backtrace.Proofs.Trace.Lines

/-!
What a document or trace is made from. Each frame shows one of the frames that were given, each banner
names exceptions of the chain, and what is known of all of these is known of the whole.
-/
namespace Backtrace

variable {alphabet : Alphabet} {P : ResolvedMethod → Prop}

def RawFrame.texts (raw : RawFrame) : List String := raw.method.toList.flatMap Method.texts ++ raw.file.toList

namespace Resolver

def Over (alphabet : Alphabet) (resolver : Resolver) : Prop := resolver.Holds fun shown => alphabet.Each shown.texts

theorem over_ofOptions (options : Options) : (ofOptions options).Over alphabet := holds_ofOptions options

theorem suits_of_texts {raw : RawFrame} (clean : alphabet.Each raw.texts) :
    Suits (fun shown => alphabet.Each shown.texts) raw := by
  intro method shown present resolved
  rw [RawFrame.texts, Alphabet.each_append, Alphabet.each_flatMap] at clean
  exact Method.resolve_over resolved (clean.1 method (by simp [present]))

theorem Shows.over_plain {raw : RawFrame} {frame : ResolvedFrame}
    (shows_ : Shows (fun shown => alphabet.Each shown.texts) raw frame) (clean : alphabet.Each raw.texts)
    (textOver : alphabet.Over (stripSentinels raw.text)) (renderer : Renderer) :
    alphabet.Over (renderer.plain frame) := by
  cases shows_ with
  | raw => exact (renderer.over_plain_iff _).2 (Alphabet.each_cons.2 ⟨textOver, Alphabet.each_nil⟩)
  | @method shown good =>
    apply ResolvedFrame.over_plain
    refine Alphabet.each_append.2 ⟨good, fun file member => ?_⟩
    obtain ⟨location, present, rfl⟩ := List.mem_map.1 member
    obtain ⟨name, given, rfl⟩ := Option.map_eq_some_iff.1 (Option.mem_toList.1 present)
    rw [RawFrame.texts, Alphabet.each_append] at clean
    exact clean.2 name (Option.mem_toList.2 (Option.eq_some_of_filter_eq_some given))

end Resolver

namespace TraceSection

/-- A section whose frames show frames of a kind, and whose banner has texts of a kind. -/
structure MadeOf (options : Options) (P : ResolvedMethod → Prop) (given : RawFrame → Prop) (told : String → Prop)
    (part : TraceSection) : Prop where
  rendered : part.document.renderer = .ofOptions options
  frames : ∀ frame ∈ part.document.frames, ∃ raw, given raw ∧ Resolver.Shows P raw frame
  banner : ∀ type message rethrownAs, part.banner = some (.inner type message rethrownAs) →
    told type ∧ told message ∧ told rethrownAs

end TraceSection

namespace Options

variable {α : Type} {given : RawFrame → Prop} {told : String → Prop} {resolver : Resolver} (options : Options)

theorem document_shows {raws : List RawFrame} (kept : resolver.Holds P) (held : List Nat)
    (suits : ∀ raw ∈ raws, Resolver.Suits P raw) :
    (∀ frame ∈ (options.document held raws resolver).1.frames, ∃ raw ∈ raws, Resolver.Shows P raw frame) ∧
      (options.document held raws resolver).2.2.Holds P := by
  obtain ⟨shows_, after⟩ := kept.frames held suits
  refine ⟨fun frame member => ?_, after⟩
  obtain ⟨index, bound, rfl⟩ := List.mem_iff_getElem.1 member
  obtain ⟨same, each⟩ := List.forall₂_iff_get.1 shows_
  exact ⟨raws.get ⟨index, same ▸ bound⟩, List.get_mem raws _, each index (same ▸ bound) bound⟩

theorem document_made {raws : List RawFrame} (kept : resolver.Holds P) (held : List Nat)
    (suits : ∀ raw, given raw → Resolver.Suits P raw) (all : ∀ raw ∈ raws, given raw) (banner : Option Banner)
    (titled : ∀ type message rethrownAs, banner = some (.inner type message rethrownAs) →
      told type ∧ told message ∧ told rethrownAs) :
    TraceSection.MadeOf options P given told ⟨banner, (options.document held raws resolver).1⟩ ∧
      (options.document held raws resolver).2.2.Holds P := by
  obtain ⟨shows_, after⟩ := options.document_shows kept held fun raw member => suits raw (all raw member)
  refine ⟨⟨rfl, fun frame member => ?_, titled⟩, after⟩
  obtain ⟨raw, found, shown⟩ := shows_ frame member
  exact ⟨raw, all raw found, shown⟩

structure Known (view : ExceptionView α) (given : RawFrame → Prop) (told : String → Prop) (exception : α) :
    Prop where
  type : told (view.type exception)
  message : told (view.message exception)
  frames : ∀ raw ∈ view.frames exception, given raw

theorem sections_made {view : ExceptionView α} {chain : List α} (kept : resolver.Holds P)
    (suits : ∀ raw, given raw → Resolver.Suits P raw) (all : ∀ exception ∈ chain, Known view given told exception)
    (outer : Option String) (titled : ∀ type, outer = some type → told type) (held : List Nat) :
    (∀ part ∈ (options.sections view outer held chain resolver).1,
        TraceSection.MadeOf options P given told part) ∧
      (options.sections view outer held chain resolver).2.2.Holds P := by
  induction chain generalizing outer held resolver with
  | nil => exact ⟨by simp [sections], kept⟩
  | cons exception chain ih =>
    obtain ⟨known, others⟩ := List.forall_mem_cons.1 all
    obtain ⟨made, after⟩ := options.document_made kept held suits known.frames
      (outer.map (Banner.inner (view.type exception) (view.message exception))) (by
        intro type message rethrownAs found
        obtain ⟨wrapping, present, same⟩ := Option.map_eq_some_iff.1 found
        cases same
        exact ⟨known.type, known.message, titled rethrownAs present⟩)
    obtain ⟨rest, last⟩ := ih after others (some (view.type exception))
      (by rintro type ⟨⟩; exact known.type)
      ((options.document held (view.frames exception) resolver).2.1 ++ held)
    exact ⟨List.forall_mem_cons.2 ⟨made, rest⟩, last⟩

theorem callSiteSection_made {callSite : Option (List RawFrame)} (kept : resolver.Holds P)
    (suits : ∀ raw, given raw → Resolver.Suits P raw) (all : ∀ raw ∈ callSite.getD [], given raw) (held : List Nat) :
    (∀ part ∈ (options.callSiteSection held callSite resolver).1,
        TraceSection.MadeOf options P given told part) ∧
      (options.callSiteSection held callSite resolver).2.Holds P := by
  cases callSite with
  | none => exact ⟨by simp [callSiteSection], kept⟩
  | some raws =>
    obtain ⟨made, after⟩ := @document_made P given told resolver options raws kept held suits all (some .callSite)
      nofun
    exact ⟨List.forall_mem_cons.2 ⟨made, by simp⟩, after⟩

/-- The trace of a chain of known exceptions is made of what is known of them. -/
theorem aggregate_made {view : ExceptionView α} {exception : α} {chain : List α} {callSite : Option (List RawFrame)}
    (walked : causes? view.cause (max options.maxDepth 1) [] exception = some chain) (kept : resolver.Holds P)
    (suits : ∀ raw, given raw → Resolver.Suits P raw) (all : ∀ cause ∈ chain, Known view given told cause)
    (alsoAll : ∀ raw ∈ callSite.getD [], given raw) (held : List Nat) :
    ∃ trace after, options.aggregate view held exception callSite resolver = (.ok trace, after) ∧
      trace.headline = headline (view.type exception) (view.message exception) ∧
      (∀ part ∈ trace.sections, TraceSection.MadeOf options P given told part) ∧ after.Holds P := by
  obtain ⟨made, between⟩ := options.sections_made kept suits all none nofun held
  obtain ⟨last, after⟩ := @callSiteSection_made P given told _ options callSite between suits alsoAll
    ((options.sections view none held chain resolver).2.1 ++ held)
  refine ⟨⟨headline (view.type exception) (view.message exception), _ ++ _⟩, _, ?_, rfl,
    List.forall_mem_append.2 ⟨made, last⟩, after⟩
  rw [aggregate]
  simp only [walked]

end Options

end Backtrace
