import Backtrace.Proofs.Method.Sources
import Backtrace.Proofs.Method.Texts
import Backtrace.Proofs.Resolver.Transparency

/-!
Stripped methods. Resolving a method fails exactly where the code that runs is known and its parameters are not. Neither
a state machine nor the host of a closure has to tell its own, and where resolving fails a frame shows its raw text.
-/
namespace Backtrace

namespace Method

variable {method : Method}

theorem resolve_eq_error_iff {failure : Failure} : method.resolve = .error failure ↔
    ∃ target, method.Runs (some target) ∧ target.stripped = true ∧ failure = .stripped target.id := by
  simp only [← target_eq_iff_runs]
  rw [resolve_eq_map, targetParameters?]
  cases (Origin.of method).target with
  | none => exact iff_of_false (fun same => (by cases same)) fun ⟨_, same, _⟩ => (by cases same)
  | some target =>
    simp only [parameters?]
    cases stripped : target.stripped with
    | false =>
      refine iff_of_false (fun same => (by cases same)) fun ⟨other, same, also, _⟩ => ?_
      cases same
      cases stripped.symm.trans also
    | true =>
      constructor
      · intro failed
        exact ⟨target, rfl, stripped, (Except.error.inj failed).symm⟩
      · rintro ⟨other, same, -, rfl⟩
        cases same
        rfl

/-- Where the parameters of the code that runs can be told, or nothing is known of that, the method is resolved. -/
theorem exists_resolve (told : ∀ target, method.Runs (some target) → target.stripped = false) :
    ∃ shown, method.resolve = .ok shown := by
  cases resolved : method.resolve with
  | ok shown => exact ⟨shown, rfl⟩
  | error failure =>
    obtain ⟨target, runs, stripped, -⟩ := resolve_eq_error_iff.1 resolved
    cases (told target runs).symm.trans stripped

theorem told_of_machine {target : Method}
    (machine : method.synthesis.machine?.isSome = true ∧
      (∀ origin, method.link = some origin → origin.stripped = false) ∨ method.NamedMachine)
    (runs : method.Runs (some target)) : target.stripped = false := by
  rcases machine with ⟨classified, told⟩ | named
  · obtain ⟨kind, found⟩ := Option.isSome_iff_exists.1 classified
    exact told target ((Runs.linked found).unique runs)
  · cases (Runs.named named).unique runs

theorem parameters_of_host {shown : ResolvedMethod} {closure : Closure} {host : Method}
    (resolved : method.resolve = .ok shown) (closed : (Origin.of method).closure = some closure)
    (hosted : closure.host = some host) (stripped : host.stripped = true) : shown.parameters = [] := by
  obtain ⟨known, -, rfl⟩ := exists_shownWith resolved
  rw [parameters_shownWith, closed]
  simp [hostParameters, hosted, parameters?, stripped]

end Method

theorem MethodTable.Holds.link_eq {methods : List Method} {table : MethodTable} (holds : Holds methods table)
    (distinct : (methods.map (·.id)).Nodup) {method : Method} (member : method ∈ table.methods) {id : MethodId}
    (points : method.synthesis.link? = some id) :
    ∃ linked, table.get? id = some linked ∧ method.link = some linked := by
  cases holds.linked method member with
  | single _ single => cases single.symm.trans points
  | @on _ linked _ link rest =>
    obtain rfl := Option.some.inj (link.symm.trans points)
    exact ⟨linked, holds.get?_of_linked distinct rest, rfl⟩

namespace Resolver

variable {resolver : Resolver} {held : List Nat} {method : Method} {raw : RawFrame}

theorem frame_of_error {failure : Failure} (failed : (resolver.method held method).1 = .error failure)
    (present : raw.method = some method) : (resolver.frame held raw).1 = .raw raw.text := by
  rcases asked : resolver.method held method with ⟨result, after⟩
  obtain rfl : result = .error failure := by rw [asked] at failed; exact failed
  rw [Resolver.frame, present]
  cases raw.unresolved with
  | true => rfl
  | false => simp only [asked]

theorem frame_of_ok {cell : Cell ResolvedMethod} (resolved : (resolver.method held method).1 = .ok cell)
    (present : raw.method = some method) (marked : raw.unresolved = false) :
    (resolver.frame held raw).1 = .method cell.value raw.location := by
  rcases asked : resolver.method held method with ⟨result, after⟩
  obtain rfl : result = .ok cell := by rw [asked] at resolved; exact resolved
  rw [Resolver.frame, present, marked]
  simp only [asked]

end Resolver

open Resolver

/-- Stripped methods of a table, whatever its resolver was asked for before. Resolving a method fails exactly where
the code that runs is known and stripped, for that code; what runs is the method itself or, for a state machine, the
method of the table that it is linked with. A state machine never fails for itself, nor a closure for its host, which
is shown without parameters. A frame of a method that fails shows its raw text, one of any other its place. -/
theorem fails_iff_stripped {given : List Method} {table : MethodTable} (made : MethodTable.ofMethods given = .ok table)
    (options : Options) {calls : List (List Nat × Call)}
    (asked : ∀ method ∈ calls.flatMap (·.2.methods), method ∈ table.methods) {method : Method}
    (member : method ∈ table.methods) (held : List Nat) :
    let resolver := (Resolver.ofOptions options).after calls
    let result := (resolver.method held method).1
    (∀ target, (Origin.of method).target = target ↔ method.Runs target) ∧
    (∀ id, method.synthesis.link? = some id → ∃ linked, table.get? id = some linked ∧ method.link = some linked) ∧
    (∀ failure, result = .error failure ↔ ∃ target, method.Runs (some target) ∧ target.stripped = true ∧
      failure = .stripped target.id ∧ failure.stage = .resolution target.id) ∧
    (method.synthesis.machine?.isSome = true ∧ (∀ origin, method.link = some origin → origin.stripped = false) ∨
      method.NamedMachine → ∃ cell, result = .ok cell) ∧
    (∀ closure host, (Origin.of method).closure = some closure → closure.host = some host → host.stripped = true →
      ∃ target, method.Runs (some target) ∧ target.link = some host ∧
        (target.stripped = false → ∃ cell, result = .ok cell ∧ cell.value.parameters = [])) ∧
    ∀ raw : RawFrame, raw.method = some method →
      (∀ failure, result = .error failure → (resolver.frame held raw).1 = .raw raw.text) ∧
      (∀ cell, result = .ok cell → raw.unresolved = false →
        (resolver.frame held raw).1 = .method cell.value raw.location) := by
  intro resolver result
  have holds := MethodTable.holds_of_ofMethods made
  have distinct := MethodTable.distinct_of_ofMethods made
  -- what the resolver was asked for before does not matter, so that the rest is about the method alone
  have same : result.map Cell.value = method.resolve := result_after options holds.identified asked member held
  have failing (failure : Failure) : result = .error failure ↔ method.resolve = .error failure := by
    rw [← same, map_value_eq_error_iff]
  have resolving (told : ∀ target, method.Runs (some target) → target.stripped = false) :
      ∃ cell, result = .ok cell ∧ method.resolve = .ok cell.value := by
    obtain ⟨shown, resolved⟩ := Method.exists_resolve told
    obtain ⟨cell, found, rfl⟩ := map_value_eq_ok_iff.1 (same.trans resolved)
    exact ⟨cell, found, resolved⟩
  refine ⟨fun target => Method.target_eq_iff_runs, fun id => holds.link_eq distinct member, fun failure => ?_,
    fun machine => ?_, fun closure host closed hosted stripped => ?_, fun raw present => ⟨?_, ?_⟩⟩
  · rw [failing, Method.resolve_eq_error_iff]
    refine exists_congr fun target => and_congr_right fun _ => and_congr_right fun _ => ?_
    exact ⟨fun same => ⟨same, same ▸ rfl⟩, And.left⟩
  · obtain ⟨cell, resolved, -⟩ := resolving fun target runs => Method.told_of_machine machine runs
    exact ⟨cell, resolved⟩
  · obtain ⟨target, runs, linked⟩ := Method.runs_of_host closed hosted
    refine ⟨target, runs, linked, fun told => ?_⟩
    obtain ⟨cell, resolved, shown⟩ := resolving fun other also => by
      obtain rfl := Option.some.inj (runs.unique also)
      exact told
    exact ⟨cell, resolved, Method.parameters_of_host shown closed hosted stripped⟩
  · exact fun failure failed => frame_of_error failed present
  · exact fun cell resolved marked => frame_of_ok resolved present marked

/-- A stripped method, the state machine that was made for it and a lambda in it: the machine fails for the method, the
lambda is shown without the parameters of its host. -/
theorem fails_for_stripped_origin :
    let run : Method := { id := ⟨1⟩, name := "Run", stripped := true }
    let machine : Method := { id := ⟨2⟩, name := "MoveNext", synthesis := .asyncMachine (some ⟨1⟩) }
    let lambda : Method := { id := ⟨3⟩, name := "<Run>b__0_0", synthesis := .closure (some ⟨1⟩) }
    let linkedMachine := { machine with link := some run }
    let linkedLambda := { lambda with link := some run }
    let frame := RawFrame.ofMethod linkedMachine
    let resolver := (Resolver.ofOptions {}).after [([], .method linkedLambda), ([], .frame frame)]
    MethodTable.ofMethods [run, machine, lambda] = .ok ⟨[linkedLambda, linkedMachine, run]⟩ ∧
      (resolver.method [] linkedMachine).1 = .error (.stripped ⟨1⟩) ∧
      (resolver.frame [] frame).1 = .raw "at MoveNext" ∧
      ∃ cell, (resolver.method [] linkedLambda).1 = .ok cell ∧ cell.value.parameters = [] := by
  have closed : (Origin.of { id := ⟨3⟩, name := "<Run>b__0_0", synthesis := .closure (some ⟨1⟩), link := some {
      id := ⟨1⟩, name := "Run", stripped := true } }).closure =
      some ⟨"<Run>b__0_0", some 0, some { id := ⟨1⟩, name := "Run", stripped := true }⟩ := by rfl
  intro run machine lambda linkedMachine linkedLambda frame resolver
  have made : MethodTable.ofMethods [run, machine, lambda] = .ok ⟨[linkedLambda, linkedMachine, run]⟩ := by cbv
  have asked : ∀ method ∈ [linkedLambda, linkedMachine], method ∈ [linkedLambda, linkedMachine, run] := by simp
  obtain ⟨-, -, errors, -, -, frames⟩ := @fails_iff_stripped _ _ made {}
    [([], .method linkedLambda), ([], .frame frame)] asked linkedMachine (by simp) []
  obtain ⟨targets, -, -, -, hosts, -⟩ := @fails_iff_stripped _ _ made {}
    [([], .method linkedLambda), ([], .frame frame)] asked linkedLambda (by simp) []
  have failed := (errors (.stripped ⟨1⟩)).2 ⟨run, .linked rfl, rfl, rfl, rfl⟩
  refine ⟨made, failed, (frames frame rfl).1 _ failed, ?_⟩
  obtain ⟨target, runs, -, shown⟩ := hosts _ run closed rfl rfl
  have ran : some linkedLambda = some target := (targets (some target)).2 runs
  obtain rfl : target = linkedLambda := (Option.some.inj ran).symm
  exact shown rfl

end Backtrace
