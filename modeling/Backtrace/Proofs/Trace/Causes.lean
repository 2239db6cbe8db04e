import Backtrace.Proofs.Resolver.Transparency
import Backtrace.Trace

/-!
Traces of exceptions with their causes. A trace is made exactly where the walk along causes comes to an end
within the limit, whatever the causes of other exceptions are; where it does not, nothing has been resolved.
-/
namespace Backtrace

variable {α : Type}

/-- The exceptions that are met from one on, along causes, until one has none. Causes that lead back to an
exception have no such end. -/
inductive CauseChain (cause : α → Option α) : α → List α → Prop
  | last {exception : α} (uncaused : cause exception = none) : CauseChain cause exception [exception]
  | on {exception inner : α} {chain : List α} (caused : cause exception = some inner)
      (rest : CauseChain cause inner chain) : CauseChain cause exception (exception :: chain)

namespace CauseChain

variable {cause : α → Option α} {exception : α} {chain others : List α}

theorem length_pos (walk : CauseChain cause exception chain) : 0 < chain.length := by
  cases walk <;> exact Nat.zero_lt_succ _

theorem unique (walk : CauseChain cause exception chain) (also : CauseChain cause exception others) :
    others = chain := by
  induction walk generalizing others with
  | last uncaused =>
    cases also with
    | last _ => rfl
    | on caused _ => cases uncaused.symm.trans caused
  | on caused _ ih =>
    cases also with
    | last uncaused => cases uncaused.symm.trans caused
    | on alsoCaused rest =>
      obtain rfl := Option.some.inj (caused.symm.trans alsoCaused)
      rw [ih rest]

theorem of_mem {other : α} (walk : CauseChain cause exception chain) (member : other ∈ chain) :
    ∃ behind, CauseChain cause other behind ∧ behind.length ≤ chain.length := by
  induction walk with
  | last uncaused =>
    obtain rfl := List.mem_singleton.1 member
    exact ⟨[other], .last uncaused, Nat.le_refl _⟩
  | @on exception inner chain caused rest ih =>
    rcases List.mem_cons.1 member with rfl | later
    · exact ⟨other :: chain, .on caused rest, Nat.le_refl _⟩
    · obtain ⟨behind, onward, shorter⟩ := ih later
      exact ⟨behind, onward, Nat.le_succ_of_le shorter⟩

/-- No exception is met twice. -/
theorem nodup (walk : CauseChain cause exception chain) : chain.Nodup := by
  induction walk with
  | last _ => exact List.nodup_singleton _
  | on caused rest ih =>
    refine List.nodup_cons.2 ⟨fun again => ?_, ih⟩
    obtain ⟨behind, onward, shorter⟩ := rest.of_mem again
    rw [(CauseChain.on caused rest).unique onward, List.length_cons] at shorter
    exact Nat.not_succ_le_self _ shorter

end CauseChain

theorem causes?_eq_some_iff {cause : α → Option α} {limit : Nat} {before all : List α} {exception : α} :
    causes? cause limit before exception = some all ↔
      ∃ chain, CauseChain cause exception chain ∧ chain.length ≤ limit ∧ all = before.reverse ++ chain := by
  fun_induction causes? cause limit before exception with
  | case1 before exception =>
    refine ⟨nofun, fun ⟨chain, walk, short, _⟩ => ?_⟩
    exact absurd walk.length_pos (Nat.not_lt.2 short)
  | case2 limit before exception uncaused =>
    rw [Option.some_inj, List.reverse_cons]
    constructor
    · rintro rfl
      exact ⟨[exception], .last uncaused, Nat.le_add_left 1 limit, rfl⟩
    · rintro ⟨chain, walk, -, rfl⟩
      rw [walk.unique (.last uncaused)]
  | case3 limit before exception inner caused ih =>
    rw [ih, List.reverse_cons]
    constructor
    · rintro ⟨chain, walk, short, rfl⟩
      exact ⟨exception :: chain, .on caused walk, Nat.succ_le_succ short, List.append_assoc _ _ _⟩
    · rintro ⟨chain, walk, short, rfl⟩
      cases walk with
      | last uncaused => cases uncaused.symm.trans caused
      | @on _ _ chain alsoCaused rest =>
        obtain rfl := Option.some.inj (caused.symm.trans alsoCaused)
        exact ⟨chain, rest, Nat.le_of_succ_le_succ short, (List.append_assoc before.reverse [exception] chain).symm⟩

/-- What introduces the exceptions of a chain: nothing the first, and each other its type and message and the
type of the one before. -/
def ExceptionView.banners (view : ExceptionView α) (chain : List α) : List (Option Banner) :=
  none :: chain.zipWith
    (fun outer inner => some (.inner (view.type inner) (view.message inner) (view.type outer))) chain.tail

namespace Options

def documents (options : Options) (held : List Nat) :
    List (List RawFrame) → Resolver → List Document × List Nat × Resolver
  | [], resolver => ([], [], resolver)
  | raws :: others, resolver =>
    let (document, tokens, resolver) := options.document held raws resolver
    let (rest, more, resolver) := documents options (tokens ++ held) others resolver
    (document :: rest, tokens ++ more, resolver)

def documentsWithSite (options : Options) (held : List Nat) (lists : List (List RawFrame))
    (callSite : Option (List RawFrame)) (resolver : Resolver) : List Document :=
  let (documents, tokens, resolver) := options.documents held lists resolver
  documents ++ callSite.toList.map fun raws => (options.document (tokens ++ held) raws resolver).1

def sectionsWithSite (options : Options) (view : ExceptionView α) (held : List Nat) (chain : List α)
    (callSite : Option (List RawFrame)) (resolver : Resolver) : List TraceSection × Resolver :=
  let (parts, tokens, resolver) := options.sections view none held chain resolver
  let (last, resolver) := options.callSiteSection (tokens ++ held) callSite resolver
  (parts ++ last, resolver)

variable (options : Options) {view : ExceptionView α} {chain : List α} {callSite : Option (List RawFrame)}
  {methods : List Method} {resolver : Resolver}

theorem sections_documents (outer : Option String) (held : List Nat) :
    ((options.sections view outer held chain resolver).1.map (·.document),
      (options.sections view outer held chain resolver).2) =
      options.documents held (chain.map view.frames) resolver := by
  induction chain generalizing outer held resolver with
  | nil => rfl
  | cons exception chain ih =>
    rw [List.map_cons, documents]
    simp only [← ih (some (view.type exception))]
    rfl

theorem callSiteSection_eq (held : List Nat) (callSite : Option (List RawFrame)) (resolver : Resolver) :
    (options.callSiteSection held callSite resolver).1 =
      callSite.toList.map fun raws => ⟨some .callSite, (options.document held raws resolver).1⟩ := by
  cases callSite <;> rfl

theorem sectionsWithSite_documents (held : List Nat) :
    (options.sectionsWithSite view held chain callSite resolver).1.map (·.document) =
      options.documentsWithSite held (chain.map view.frames) callSite resolver := by
  rw [sectionsWithSite, documentsWithSite, ← options.sections_documents none held]
  simp only [List.map_append, callSiteSection_eq, List.map_map]
  rfl

theorem sections_banners_behind (exception : α) (held : List Nat) :
    (options.sections view (some (view.type exception)) held chain resolver).1.map (·.banner) =
      (exception :: chain).zipWith
        (fun outer inner => some (.inner (view.type inner) (view.message inner) (view.type outer))) chain := by
  induction chain generalizing exception held resolver with
  | nil => rfl
  | cons inner chain ih =>
    rw [List.zipWith_cons_cons, ← ih inner]
    rfl

theorem sectionsWithSite_banners {exception : α} (walk : CauseChain view.cause exception chain) (held : List Nat) :
    (options.sectionsWithSite view held chain callSite resolver).1.map (·.banner) =
      view.banners chain ++ callSite.toList.map fun _ => some .callSite := by
  have behind : (options.sections view none held chain resolver).1.map (·.banner) = view.banners chain := by
    cases walk with
    | last _ => rfl
    | on _ _ => exact congrArg (none :: ·) (options.sections_banners_behind exception _)
  rw [sectionsWithSite, ← behind]
  simp only [List.map_append, callSiteSection_eq, List.map_map]
  rfl

/-- Documents of lists of frames that are resolved one after the other show each frame as it is on its own. -/
theorem documents_shown {lists : List (List RawFrame)} (faithful : Resolver.Faithful methods resolver)
    (identified : Identified methods)
    (members : ∀ raws ∈ lists, ∀ method ∈ raws.flatMap (·.method.toList), method ∈ methods) (held : List Nat) :
    (options.documents held lists resolver).1.map (·.frames) = lists.map (·.map RawFrame.shown) ∧
      Resolver.Faithful methods (options.documents held lists resolver).2.2 := by
  induction lists generalizing held resolver with
  | nil => exact ⟨rfl, faithful⟩
  | cons raws lists ih =>
    obtain ⟨first, others⟩ := List.forall_mem_cons.1 members
    obtain ⟨shown, next⟩ := faithful.frames identified first held
    obtain ⟨rest, last⟩ := ih next others ((resolver.frames held raws).2.1 ++ held)
    exact ⟨congrArg₂ List.cons shown rest, last⟩

theorem documentsWithSite_shown {lists : List (List RawFrame)} (faithful : Resolver.Faithful methods resolver)
    (identified : Identified methods)
    (members : ∀ raws ∈ lists ++ callSite.toList, ∀ method ∈ raws.flatMap (·.method.toList), method ∈ methods)
    (held : List Nat) :
    (options.documentsWithSite held lists callSite resolver).map (·.frames) =
      (lists ++ callSite.toList).map (·.map RawFrame.shown) := by
  rw [List.forall_mem_append] at members
  obtain ⟨shown, after⟩ := options.documents_shown faithful identified members.1 held
  rw [documentsWithSite, List.map_append, List.map_append, ← shown]
  cases callSite with
  | none => rfl
  | some raws =>
    obtain ⟨last, -⟩ := after.frames identified (members.2 raws (List.mem_singleton_self raws))
      ((options.documents held lists resolver).2.1 ++ held)
    exact congrArg (fun frames => _ ++ [frames]) last

/-- What a trace of a chain of exceptions and a call site holds: a section for each exception and then one
for the call site, if its frames were given. Frames of methods that their ids tell apart are shown as they are
on their own. -/
structure Traces (view : ExceptionView α) (held : List Nat) (chain : List α) (callSite : Option (List RawFrame))
    (resolver : Resolver) (trace : ExceptionTrace) : Prop where
  banners : trace.sections.map (·.banner) = view.banners chain ++ callSite.toList.map fun _ => some .callSite
  documents : trace.sections.map (·.document) =
    options.documentsWithSite held (chain.map view.frames) callSite resolver
  shown : ∀ methods, Identified methods → Resolver.Faithful methods resolver →
    (∀ raws ∈ chain.map view.frames ++ callSite.toList, ∀ method ∈ raws.flatMap (·.method.toList), method ∈ methods) →
    trace.sections.map (·.document.frames) =
      (chain.map view.frames ++ callSite.toList).map (·.map RawFrame.shown)

theorem traces_sectionsWithSite {exception : α} (walk : CauseChain view.cause exception chain) (held : List Nat)
    (headline : String) : options.Traces view held chain callSite resolver
      ⟨headline, (options.sectionsWithSite view held chain callSite resolver).1⟩ where
  banners := options.sectionsWithSite_banners walk held
  documents := options.sectionsWithSite_documents held
  shown methods identified faithful members := by
    rw [← options.documentsWithSite_shown faithful identified members held, ← options.sectionsWithSite_documents held,
      List.map_map]
    rfl

theorem aggregate_of_causes {exception : α} (held : List Nat) (callSite : Option (List RawFrame))
    (resolver : Resolver)
    (walked : causes? view.cause (max options.maxDepth 1) [] exception = some chain) :
    options.aggregate view held exception callSite resolver =
      (.ok ⟨headline (view.type exception) (view.message exception),
        (options.sectionsWithSite view held chain callSite resolver).1⟩,
        (options.sectionsWithSite view held chain callSite resolver).2) := by
  rw [aggregate]
  simp only [walked]
  rfl

theorem aggregate_of_endless {exception : α} (held : List Nat) (callSite : Option (List RawFrame))
    (resolver : Resolver) (walked : causes? view.cause (max options.maxDepth 1) [] exception = none) :
    options.aggregate view held exception callSite resolver =
      (.error (.longChain (view.type exception) (max options.maxDepth 1)), resolver) := by
  rw [aggregate]
  simp only [walked]

end Options

/-- Traces of exceptions. An exception has a trace exactly where its causes come to an end within the limit. None
of them is met twice then, and the trace has a section for each of them, in order, and one for the call site.
Otherwise the trace is refused, which is told in place of it, and the resolver is as it was. -/
theorem aggregate_iff_chain (options : Options) (view : ExceptionView α) (held : List Nat) (exception : α)
    (callSite : Option (List RawFrame)) (resolver : Resolver) :
    ((∃ trace after, options.aggregate view held exception callSite resolver = (.ok trace, after)) ↔
      ∃ chain, CauseChain view.cause exception chain ∧ chain.length ≤ max options.maxDepth 1) ∧
    (∀ chain, CauseChain view.cause exception chain → chain.length ≤ max options.maxDepth 1 → chain.Nodup ∧
      ∃ trace after, options.aggregate view held exception callSite resolver = (.ok trace, after) ∧
        trace.headline = headline (view.type exception) (view.message exception) ∧
        options.Traces view held chain callSite resolver trace) ∧
    ((¬∃ chain, CauseChain view.cause exception chain ∧ chain.length ≤ max options.maxDepth 1) →
      let failure : Failure := .longChain (view.type exception) (max options.maxDepth 1)
      failure.stage = .aggregation ∧
        options.aggregate view held exception callSite resolver = (.error failure, resolver) ∧
        options.formatException view held exception callSite resolver =
          (⟨view.display exception ++ "\n\nDemystifier: Unable to extract stack trace from exception: " ++
            view.type exception ++ ".", failure.message⟩, resolver)) := by
  have made {chain : List α} (walk : CauseChain view.cause exception chain)
      (short : chain.length ≤ max options.maxDepth 1) :=
    options.aggregate_of_causes held callSite resolver (causes?_eq_some_iff.2 ⟨chain, walk, short, rfl⟩)
  have refused (endless : ¬∃ chain, CauseChain view.cause exception chain ∧ chain.length ≤ max options.maxDepth 1) :
      options.aggregate view held exception callSite resolver =
        (.error (.longChain (view.type exception) (max options.maxDepth 1)), resolver) := by
    refine options.aggregate_of_endless held callSite resolver (Option.eq_none_iff_forall_ne_some.2 fun all found => ?_)
    obtain ⟨chain, walk, short, -⟩ := causes?_eq_some_iff.1 found
    exact endless ⟨chain, walk, short⟩
  refine ⟨⟨fun ⟨trace, after, traced⟩ => ?_, fun ⟨chain, walk, short⟩ => ⟨_, _, made walk short⟩⟩,
    fun chain walk short => ?_, fun endless => ⟨rfl, refused endless, ?_⟩⟩
  · by_contra endless
    cases (refused endless).symm.trans traced
  · exact ⟨walk.nodup, _, _, made walk short, rfl, options.traces_sectionsWithSite walk held _⟩
  · rw [Options.formatException, refused endless]

/-- At a limit of 0, as at 1, an exception without a cause has a trace, here with a call site without frames, and
one with a cause has none. Causes that lead back have no trace at any limit. -/
theorem aggregate_at_limit :
    let view : ExceptionView Bool :=
      { type := fun _ => "Error", message := fun _ => "", cause := fun outer => if outer then some false else none,
        frames := fun _ => [.ofText "at Run()"] }
    let options : Options := { maxDepth := 0 }
    (∃ trace after, options.aggregate view [] false (some []) (.direct 0) = (.ok trace, after) ∧
      trace.sections.map (·.banner) = [none, some .callSite]) ∧
    options.aggregate view [] true none (.direct 0) = (.error (.longChain "Error" 1), .direct 0) ∧
    ∀ limit, ({ maxDepth := limit } : Options).aggregate { view with cause := fun other => some !other } [] true none
      (.direct 0) = (.error (.longChain "Error" (max limit 1)), .direct 0) := by
  intro view options
  refine ⟨?_, ?_, fun limit => ?_⟩
  · obtain ⟨-, trace, after, made, -, traces⟩ :=
      (aggregate_iff_chain options view [] false (some []) (.direct 0)).2.1 [false] (.last rfl) (by decide)
    exact ⟨trace, after, made, traces.banners⟩
  · refine ((aggregate_iff_chain options view [] true none (.direct 0)).2.2 fun ⟨chain, walk, short⟩ => ?_).2.1
    cases walk with
    | last uncaused => cases uncaused
    | on _ rest => exact absurd rest.length_pos (Nat.not_lt.2 (Nat.le_of_succ_le_succ short))
  · have endless (start : Bool) (chain : List Bool) : ¬CauseChain (fun other => some !other) start chain := by
      intro walk
      induction walk with
      | last uncaused => cases uncaused
      | on _ _ ih => exact ih
    exact ((aggregate_iff_chain _ _ [] true none (.direct 0)).2.2 fun ⟨chain, walk, _⟩ => endless true chain walk).2.1

end Backtrace
