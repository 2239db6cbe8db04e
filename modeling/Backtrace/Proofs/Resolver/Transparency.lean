import Backtrace.Proofs.Method.LinkedTable
import Backtrace.Proofs.Resolver

/-!
A cache in front of a resolver cannot be told from its answers. What is kept for an id is what the methods of
that id are resolved to, so whatever was asked for before, was dropped or is still held, each answer is what
resolving anew gives.
-/
namespace Backtrace

def RawFrame.shown (raw : RawFrame) : ResolvedFrame :=
  match raw.method, raw.unresolved with
  | some method, false =>
    match method.resolve with
    | .ok shown => .method shown raw.location
    | .error _ => .raw raw.text
  | _, _ => .raw raw.text

/-- Methods that their ids tell apart. -/
def Identified (methods : List Method) : Prop :=
  ∀ first ∈ methods, ∀ second ∈ methods, first.id = second.id → first = second

theorem identified_of_distinct {methods : List Method} (distinct : (methods.map (·.id)).Nodup) :
    Identified methods :=
  fun _ member _ also same => List.inj_on_of_nodup_map distinct member also same

theorem Identified.mono {methods others : List Method} (identified : Identified methods)
    (subset : ∀ method ∈ others, method ∈ methods) : Identified others :=
  fun first member second also same => identified first (subset first member) second (subset second also) same

namespace Resolver

inductive Call
  | method (method : Method)
  | frame (raw : RawFrame)
  | frames (raws : List RawFrame)
  | clear

inductive Answer
  | method (result : Except Failure ResolvedMethod)
  | frame (shown : ResolvedFrame)
  | frames (shown : List ResolvedFrame)
  | cleared

namespace Call

def methods : Call → List Method
  | .method asked => [asked]
  | .frame raw => raw.method.toList
  | .frames raws => raws.flatMap (·.method.toList)
  | .clear => []

/-- The answer to a call where nothing is kept. -/
def alone : Call → Answer
  | .method asked => .method asked.resolve
  | .frame raw => .frame raw.shown
  | .frames raws => .frames (raws.map RawFrame.shown)
  | .clear => .cleared

end Call

def answer (resolver : Resolver) (held : List Nat) : Call → Answer × Resolver
  | .method method =>
    let (result, resolver) := resolver.method held method
    (.method (result.map Cell.value), resolver)
  | .frame raw =>
    let (shown, _, resolver) := resolver.frame held raw
    (.frame shown, resolver)
  | .frames raws =>
    let (shown, _, resolver) := resolver.frames held raws
    (.frames shown, resolver)
  | .clear => (.cleared, resolver.clear)

/-- Answers calls one after the other. Each comes with the tokens that are held meanwhile. -/
def answers (resolver : Resolver) : List (List Nat × Call) → List Answer
  | [] => []
  | (held, call) :: calls =>
    let (answer, resolver) := resolver.answer held call
    answer :: resolver.answers calls

def after (resolver : Resolver) : List (List Nat × Call) → Resolver
  | [] => resolver
  | (held, call) :: calls => (resolver.answer held call).2.after calls

def Resolves (methods : List Method) (id : MethodId) (shown : ResolvedMethod) : Prop :=
  ∀ method ∈ methods, method.id = id → method.resolve = .ok shown

def Faithful (methods : List Method) (resolver : Resolver) : Prop := resolver.Keeps (Resolves methods)

variable {methods : List Method} {resolver : Resolver}

namespace Faithful

theorem clear (faithful : Faithful methods resolver) : Faithful methods resolver.clear := by
  cases resolver with
  | cached cache => exact Cache.keeps_clear cache
  | direct next => exact faithful

theorem method {method : Method} (faithful : Faithful methods resolver) (identified : Identified methods)
    (member : method ∈ methods) (held : List Nat) :
    (resolver.method held method).1.map Cell.value = method.resolve ∧
      Faithful methods (resolver.method held method).2 := by
  refine ⟨?_, (Keeps.method faithful held fun shown resolved other alsoMember same => ?_).2⟩
  · cases resolver with
    | cached cache =>
      change (cache.fetch held method.id fun _ => method.resolve).1.map Cell.value = method.resolve
      exact Cache.Keeps.fetch_eq faithful held method.id fun shown resolves => resolves method member rfl
    | direct next =>
      rw [Resolver.method]
      cases method.resolve <;> rfl
  · rw [identified other alsoMember method member same, resolved]

theorem frame {raw : RawFrame} (faithful : Faithful methods resolver) (identified : Identified methods)
    (member : ∀ method ∈ raw.method.toList, method ∈ methods) (held : List Nat) :
    (resolver.frame held raw).1 = raw.shown ∧ Faithful methods (resolver.frame held raw).2.2 := by
  unfold Resolver.frame RawFrame.shown
  cases present : raw.method with
  | none => exact ⟨rfl, faithful⟩
  | some method =>
    cases raw.unresolved with
    | true => exact ⟨rfl, faithful⟩
    | false =>
      obtain ⟨same, rest⟩ := faithful.method identified (member method (by simp [present])) held
      rcases asked : resolver.method held method with ⟨result, after⟩
      rw [asked] at same rest
      simp only [asked, ← same]
      cases result with
      | ok cell => exact ⟨rfl, rest⟩
      | error failure => exact ⟨rfl, rest⟩

theorem frames {raws : List RawFrame} (faithful : Faithful methods resolver) (identified : Identified methods)
    (members : ∀ method ∈ raws.flatMap (·.method.toList), method ∈ methods) (held : List Nat) :
    (resolver.frames held raws).1 = raws.map RawFrame.shown ∧
      Faithful methods (resolver.frames held raws).2.2 := by
  induction raws generalizing resolver held with
  | nil => exact ⟨rfl, faithful⟩
  | cons raw raws ih =>
    rw [List.flatMap_cons, List.forall_mem_append] at members
    obtain ⟨first, next⟩ := faithful.frame identified members.1 held
    obtain ⟨others, last⟩ := ih next members.2 ((resolver.frame held raw).2.1 ++ held)
    exact ⟨congrArg₂ List.cons first others, last⟩

theorem answer {call : Call} (faithful : Faithful methods resolver) (identified : Identified methods)
    (members : ∀ method ∈ call.methods, method ∈ methods) (held : List Nat) :
    (resolver.answer held call).1 = call.alone ∧ Faithful methods (resolver.answer held call).2 := by
  cases call with
  | method method =>
    obtain ⟨same, rest⟩ := faithful.method identified (members method (List.mem_singleton_self method)) held
    exact ⟨congrArg Answer.method same, rest⟩
  | frame raw =>
    obtain ⟨same, rest⟩ := faithful.frame identified members held
    exact ⟨congrArg Answer.frame same, rest⟩
  | frames raws =>
    obtain ⟨same, rest⟩ := faithful.frames identified members held
    exact ⟨congrArg Answer.frames same, rest⟩
  | clear => exact ⟨rfl, faithful.clear⟩

theorem answers {calls : List (List Nat × Call)} (faithful : Faithful methods resolver)
    (identified : Identified methods) (members : ∀ method ∈ calls.flatMap (·.2.methods), method ∈ methods) :
    resolver.answers calls = calls.map (·.2.alone) := by
  induction calls generalizing resolver with
  | nil => rfl
  | cons call calls ih =>
    rw [List.flatMap_cons, List.forall_mem_append] at members
    obtain ⟨first, next⟩ := faithful.answer identified members.1 call.1
    exact congrArg₂ List.cons first (ih next members.2)

theorem after {calls : List (List Nat × Call)} (faithful : Faithful methods resolver) (identified : Identified methods)
    (members : ∀ method ∈ calls.flatMap (·.2.methods), method ∈ methods) : Faithful methods (resolver.after calls) := by
  induction calls generalizing resolver with
  | nil => exact faithful
  | cons call calls ih =>
    rw [List.flatMap_cons, List.forall_mem_append] at members
    exact ih (faithful.answer identified members.1 call.1).2 members.2

end Faithful

theorem faithful_ofCapacity (methods : List Method) (capacity : Nat) :
    Faithful methods (.cached (.ofCapacity capacity)) := Cache.keeps_ofCapacity capacity

theorem faithful_direct (methods : List Method) (next : Nat) : Faithful methods (.direct next) := trivial

section result

variable {result : Except Failure (Cell ResolvedMethod)}

theorem map_value_eq_ok_iff {shown : ResolvedMethod} :
    result.map Cell.value = .ok shown ↔ ∃ cell, result = .ok cell ∧ cell.value = shown := by
  cases result <;> simp [Except.map]

theorem map_value_eq_error_iff {failure : Failure} :
    result.map Cell.value = .error failure ↔ result = .error failure := by
  cases result <;> simp [Except.map]

end result

/-- Whatever was asked for before, a method is resolved to what it is resolved to on its own. -/
theorem result_after (options : Options) {calls : List (List Nat × Call)} {method : Method}
    (identified : Identified methods) (asked : ∀ method ∈ calls.flatMap (·.2.methods), method ∈ methods)
    (member : method ∈ methods) (held : List Nat) :
    (((ofOptions options).after calls).method held method).1.map Cell.value = method.resolve := by
  have faithful : Faithful methods (ofOptions options) := keeps_ofOptions options
  exact ((faithful.after identified asked).method identified member held).1

end Resolver

theorem MethodTable.Holds.identified {methods : List Method} {table : MethodTable} (holds : Holds methods table) :
    Identified table.methods := identified_of_distinct holds.distinct

open Resolver

/-- A cache is transparent. Whatever it may keep, and whatever callers hold, it answers calls about methods
that their ids tell apart, such as those of a table, as a resolver without a cache does: with what resolving
each method, or showing each frame, on its own gives. -/
theorem cache_transparent :
    (∀ given table, MethodTable.ofMethods given = .ok table → Identified table.methods) ∧
    ∀ calls : List (List Nat × Call), Identified (calls.flatMap (·.2.methods)) → ∀ capacity next : Nat,
      (Resolver.cached (.ofCapacity capacity)).answers calls = (Resolver.direct next).answers calls ∧
      (Resolver.direct next).answers calls = calls.map (·.2.alone) := by
  refine ⟨fun given table made => (MethodTable.holds_of_ofMethods made).identified,
    fun calls identified capacity next => ?_⟩
  have cached := (faithful_ofCapacity (calls.flatMap (·.2.methods)) capacity).answers identified fun _ => id
  have direct := (faithful_direct (calls.flatMap (·.2.methods)) next).answers identified fun _ => id
  exact ⟨cached.trans direct.symm, direct⟩

/-- A cache of one value: the first method is dropped for the second and found again for its holder, and the
third one cannot be resolved. -/
theorem cache_transparent_of_dropped :
    let run : Method := { id := ⟨1⟩, name := "Run" }
    let stop : Method := { id := ⟨2⟩, name := "Stop" }
    let bare : Method := { id := ⟨3⟩, name := "Bare", stripped := true }
    let raws := [run, bare, stop, run].map RawFrame.ofMethod
    let calls : List (List Nat × Call) :=
      [([], .method run), ([], .method stop), ([0], .frames raws), ([], .method bare), ([], .method run)]
    (Resolver.cached (.ofCapacity 0)).answers calls = [.method run.resolve, .method stop.resolve,
      .frames (raws.map RawFrame.shown), .method (.error (.stripped ⟨3⟩)), .method run.resolve] := by
  have failed : ({ id := ⟨3⟩, name := "Bare", stripped := true } : Method).resolve = .error (.stripped ⟨3⟩) := by rfl
  intro run stop bare raws calls
  have distinct : ([run, stop, bare].map (·.id)).Nodup := by decide
  have identified : Identified (calls.flatMap (·.2.methods)) :=
    (identified_of_distinct distinct).mono (by simp [calls, raws, Call.methods, RawFrame.ofMethod])
  obtain ⟨same, alone⟩ := cache_transparent.2 calls identified 0 0
  rw [same, alone, ← failed]
  rfl

end Backtrace
