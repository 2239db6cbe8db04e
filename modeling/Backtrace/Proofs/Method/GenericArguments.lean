import Backtrace.Proofs.Method.Sources
import Backtrace.Proofs.Method.Texts
import Backtrace.Proofs.Resolver.Transparency

/-!
The generic arguments that are shown for a method. They are those of the method as it was written, and where the
compiler made a type up for it, the open ones give way to what stands for them at the end of that type's own arguments.
-/
namespace Backtrace

/-- The last arguments of a type that the compiler made up, one for each of the given ones. -/
def Aligned (arguments : List TypeRef) (runtime : Option TypeRef) (inner : List TypeRef) : Prop :=
  ∃ type outer, runtime = some type ∧ type.isGenerated = true ∧ type.arguments = outer ++ inner ∧
    inner.length = arguments.length

/-- The types that are shown for generic arguments: one for each, open or not, and one that is given for an open
argument where it is not open itself. -/
structure Instantiates (arguments : List TypeRef) (runtime : Option TypeRef) (types : List TypeRef) : Prop where
  length : types.length = arguments.length
  aligned : ∀ inner, Aligned arguments runtime inner → ∀ (index : Nat) (argument given : TypeRef),
    arguments[index]? = some argument → inner[index]? = some given →
      types[index]? = some
        (if argument.isGenericParameter = true ∧ given.isGenericParameter = false then given else argument)
  unaligned : (∀ inner, ¬Aligned arguments runtime inner) → types = arguments

section Arguments

variable {arguments inner : List TypeRef} {runtime : Option TypeRef}

/-- Nothing but the aligned arguments counts of a type that the compiler made up. -/
theorem shownArguments_of_aligned (aligned : Aligned arguments runtime inner) :
    shownArguments arguments runtime = List.zipWith instantiated arguments inner := by
  obtain ⟨type, outer, rfl, generated, parts, same⟩ := aligned
  have long : arguments.length ≤ type.arguments.length := by
    rw [parts, List.length_append, same]
    exact Nat.le_add_left _ _
  have last : type.arguments.drop (type.arguments.length - arguments.length) = inner := by
    rw [parts, List.length_append, same, Nat.add_sub_cancel, List.drop_left]
  simp only [shownArguments, if_pos (And.intro generated long), last]

theorem shownArguments_of_unaligned (unaligned : ∀ inner, ¬Aligned arguments runtime inner) :
    shownArguments arguments runtime = arguments := by
  unfold shownArguments
  cases runtime with
  | none => rfl
  | some type =>
    refine if_neg fun ⟨generated, long⟩ => ?_
    refine unaligned (type.arguments.drop (type.arguments.length - arguments.length))
      ⟨type, type.arguments.take (type.arguments.length - arguments.length), rfl, generated, ?_, ?_⟩
    · rw [List.take_append_drop]
    · rw [List.length_drop, Nat.sub_sub_self long]

theorem instantiated_eq (argument given : TypeRef) : instantiated argument given =
    if argument.isGenericParameter = true ∧ given.isGenericParameter = false then given else argument := by
  simp [instantiated]

theorem instantiates_shownArguments (arguments : List TypeRef) (runtime : Option TypeRef) :
    Instantiates arguments runtime (shownArguments arguments runtime) := by
  refine ⟨?_, fun inner aligned index argument given at_ also => ?_, shownArguments_of_unaligned⟩
  · by_cases aligned : ∃ inner, Aligned arguments runtime inner
    · obtain ⟨inner, aligned⟩ := aligned
      obtain ⟨-, -, -, -, -, same⟩ := id aligned
      rw [shownArguments_of_aligned aligned, List.length_zipWith, same, Nat.min_self]
    · rw [shownArguments_of_unaligned (not_exists.1 aligned)]
  · rw [shownArguments_of_aligned aligned, List.getElem?_zipWith, at_, also, ← instantiated_eq]

theorem shownArguments_eq_nil_iff : shownArguments arguments runtime = [] ↔ arguments = [] := by
  rw [← List.length_eq_zero_iff, (instantiates_shownArguments arguments runtime).length, List.length_eq_zero_iff]

theorem genericDisplay?_eq_none_iff : genericDisplay? arguments runtime = none ↔ arguments = [] := by
  rw [genericDisplay?, TypeRef.displayArguments?, ← @shownArguments_eq_nil_iff arguments runtime]
  cases shownArguments arguments runtime with
  | nil => exact iff_of_true rfl rfl
  | cons type types => exact iff_of_false nofun nofun

theorem genericDisplay?_of_filled (filled : arguments ≠ []) : genericDisplay? arguments runtime =
    some ("<" ++ ", ".intercalate ((shownArguments arguments runtime).map (TypeRef.display false)) ++ ">") := by
  rw [genericDisplay?, TypeRef.displayArguments?, ← TypeRef.displayEach_eq_map]
  cases shown : shownArguments arguments runtime with
  | nil => exact absurd (shownArguments_eq_nil_iff.1 shown) filled
  | cons type types => rfl

theorem genericDisplay?_of_aligned {other : Option TypeRef} (aligned : Aligned arguments runtime inner)
    (also : Aligned arguments other inner) : genericDisplay? arguments runtime = genericDisplay? arguments other := by
  rw [genericDisplay?, genericDisplay?, shownArguments_of_aligned aligned, shownArguments_of_aligned also]

end Arguments

namespace Method

def HostedBy (method host : Method) : Prop := (∃ id, method.synthesis = .closure id) ∧ method.link = some host

/-- The method whose generic arguments are shown: the host of the code that runs, where that is a closure that is linked
with it, and else the code that runs. -/
inductive GenericSource (method : Method) : Method → Prop
  | host {target host : Method} (runs : method.Runs (some target)) (hosted : target.HostedBy host) :
      GenericSource method host
  | target {target : Method} (runs : method.Runs (some target)) (unhosted : ∀ host, ¬target.HostedBy host) :
      GenericSource method target

end Method

namespace Origin

variable {method host : Method}

theorem bodyOf_eq_closure_iff : bodyOf method = .closure (some host) ↔ method.HostedBy host := by
  unfold bodyOf Method.HostedBy
  cases method.synthesis <;> simp

theorem body_of_target (method : Method) :
    (Unrolled.of method).body = (Unrolled.of method).target.elim .unknown bodyOf := by
  have unrolls := unrolls method
  generalize Unrolled.of method = unrolled at unrolls ⊢
  cases unrolls <;> rfl

theorem closure_host_eq_some_iff : (of method).closure.bind (·.host) = some host ↔
    ∃ target, method.Runs (some target) ∧ target.HostedBy host := by
  have hosted : (of method).closure.bind (·.host) = some host ↔
      (Unrolled.of method).body = .closure (some host) := by
    constructor
    · intro told
      obtain ⟨closure, closed, same⟩ := Option.bind_eq_some_iff.1 told
      exact (closure_spec closed).2 host same
    · intro body
      unfold of
      simp only [body]
      exact (ofClosure_spec (Unrolled.of method) (some host)).2
  rw [hosted, body_of_target]
  simp only [← Method.target_eq_iff_runs]
  change (of method).target.elim .unknown bodyOf = _ ↔ _
  cases (of method).target with
  | none => simp
  | some target => simp [bodyOf_eq_closure_iff]

end Origin

namespace Method

variable {method source : Method}

theorem genericSource?_eq_some_iff :
    genericSource? (Origin.of method) = some source ↔ method.GenericSource source := by
  rw [genericSource?, Option.or_eq_some_iff, Origin.closure_host_eq_some_iff, Option.eq_none_iff_forall_ne_some,
    target_eq_iff_runs]
  constructor
  · rintro (⟨target, runs, hosted⟩ | ⟨unhosted, runs⟩)
    · exact .host runs hosted
    · exact .target runs fun host hosted => unhosted host (Origin.closure_host_eq_some_iff.2 ⟨source, runs, hosted⟩)
  · intro shown
    cases shown with
    | @host target _ runs hosted => exact .inl ⟨target, runs, hosted⟩
    | target runs unhosted =>
      refine .inr ⟨fun host closed => ?_, runs⟩
      obtain ⟨target, also, hosted⟩ := Origin.closure_host_eq_some_iff.1 closed
      obtain rfl := Option.some.inj (runs.unique also)
      exact unhosted host hosted

/-- The generic arguments that are shown are those of the source, as the type of the code that runs instantiates
them. -/
theorem generics_of_resolve {shown : ResolvedMethod} (resolved : method.resolve = .ok shown) :
    shown.generics = (genericSource? (Origin.of method)).bind fun source =>
      genericDisplay? source.genericArguments method.declaringType := by
  obtain ⟨known, -, rfl⟩ := exists_shownWith resolved
  rfl

theorem GenericSource.generics_of_resolve {shown : ResolvedMethod} (shows_ : method.GenericSource source)
    (resolved : method.resolve = .ok shown) :
    shown.generics = genericDisplay? source.genericArguments method.declaringType := by
  rw [Method.generics_of_resolve resolved, genericSource?_eq_some_iff.2 shows_, Option.bind_some]

end Method

/-- What is shown for the generic arguments of a method: nothing where it has none, and else the short name of a type
for each. -/
structure ResolvedMethod.ShowsGenericsOf (shown : ResolvedMethod) (method : Method) : Prop where
  absent : shown.generics = none ↔ ∀ source, method.GenericSource source → source.genericArguments = []
  listed : ∀ source, method.GenericSource source → source.genericArguments ≠ [] →
    ∃ types, Instantiates source.genericArguments method.declaringType types ∧
      shown.generics = some ("<" ++ ", ".intercalate (types.map (TypeRef.display false)) ++ ">")

theorem Method.showsGenericsOf_of_resolve {method : Method} {shown : ResolvedMethod}
    (resolved : method.resolve = .ok shown) : shown.ShowsGenericsOf method := by
  refine ⟨?_, fun source shows_ filled => ?_⟩
  · rw [Method.generics_of_resolve resolved, Option.bind_eq_none_iff]
    simp only [genericSource?_eq_some_iff, genericDisplay?_eq_none_iff]
  · rw [shows_.generics_of_resolve resolved]
    exact ⟨_, instantiates_shownArguments _ _, genericDisplay?_of_filled filled⟩

open Resolver

/-- The generic arguments of a method that can be resolved are those of its source, with the types that a made-up type
ends with in place of the open ones. Methods with the same arguments, whose types end alike, are shown with the same
ones, whatever their types have in front. A resolver shows the same, whatever it was asked for before. -/
theorem generics_of_instantiation {method : Method} {shown : ResolvedMethod} (resolved : method.resolve = .ok shown) :
    shown.ShowsGenericsOf method ∧
    (∀ (other : Method) (otherShown : ResolvedMethod) (source otherSource inner), other.resolve = .ok otherShown →
      method.GenericSource source → other.GenericSource otherSource →
      otherSource.genericArguments = source.genericArguments →
      Aligned source.genericArguments method.declaringType inner →
      Aligned source.genericArguments other.declaringType inner → otherShown.generics = shown.generics) ∧
    ∀ (options : Options) (known : List Method) (calls : List (List Nat × Call)) (held : List Nat) (cell),
      Identified known → method ∈ known → (∀ asked ∈ calls.flatMap (·.2.methods), asked ∈ known) →
      (((Resolver.ofOptions options).after calls).method held method).1 = .ok cell → cell.value = shown := by
  refine ⟨Method.showsGenericsOf_of_resolve resolved, ?_, ?_⟩
  · intro other otherShown source otherSource inner alsoResolved shows_ otherShows same aligned otherAligned
    rw [shows_.generics_of_resolve resolved, otherShows.generics_of_resolve alsoResolved, same]
    exact genericDisplay?_of_aligned otherAligned aligned
  · intro options known calls held cell identified member asked found
    have same := result_after options identified asked member held
    rw [found, resolved] at same
    exact Except.ok.inj same

/-- State machines of a generic method. The type around the first one is generic, too. -/
theorem generics_of_machines :
    let run : Method := { id := ⟨20⟩, name := "Run", genericArguments := [.genericParameter "T"] }
    let string : TypeRef := .qualified "System" "String"
    let machine (id : MethodId) (outer : List TypeRef) : Method := {
      id, name := "MoveNext", declaringType := some (.instantiate (.named "<Run>d__3") (outer ++ [string]))
      synthesis := .asyncMachine (some ⟨20⟩), link := some run }
    let first := machine ⟨21⟩ [.qualified "System" "Int32"]
    let second := machine ⟨22⟩ []
    let shown : ResolvedMethod := { name := "Run", generics := some "<string>", isAsync := true }
    first.resolve = .ok shown ∧ shown.ShowsGenericsOf first ∧ first.GenericSource run ∧
      Aligned run.genericArguments first.declaringType [string] ∧
      (∀ otherShown, second.resolve = .ok otherShown → otherShown.generics = shown.generics) ∧
      ∀ cell, (((Resolver.ofOptions {}).after [([], .method second)]).method [] first).1 = .ok cell →
        cell.value = shown := by
  intro run string machine first second shown
  have made : Text.startsWith ['<'] "<Run>d__3".toList = true := by decide
  have source (id : MethodId) (outer : List TypeRef) : (machine id outer).GenericSource run :=
    .target (@Method.Runs.linked _ .async rfl) fun host hosted => nomatch hosted.2
  have aligned (id : MethodId) (outer : List TypeRef) :
      Aligned run.genericArguments (machine id outer).declaringType [string] := ⟨_, outer, rfl, made, rfl, rfl⟩
  have resolved : first.resolve = .ok shown := by decide +kernel
  obtain ⟨shows_, alike, whenever⟩ := generics_of_instantiation resolved
  refine ⟨resolved, shows_, source _ _, aligned _ _, fun otherShown found => ?_, fun cell found => ?_⟩
  · exact alike second otherShown run run [string] found (source _ _) (source _ _) rfl (aligned _ _) (aligned _ _)
  · have identified : Identified [first, second] := identified_of_distinct (by decide)
    exact whenever {} [first, second] [([], .method second)] [] cell identified (by simp) (by simp [Call.methods]) found

end Backtrace
