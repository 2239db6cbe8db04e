import Backtrace.Proofs.Method.Sources
import Backtrace.Proofs.Method.Texts
import Backtrace.Proofs.Render.TupleNames
import Backtrace.Proofs.Resolver.Transparency

/-!
What holds of every method that is shown. Its parts fit together: what is told of a lambda is told of lambdas only, a
parameter has no empty names, and a tuple has a name for each of its elements.
-/
namespace Backtrace

structure Tuple.WellFormed (tuple : Tuple) : Prop where
  filled : tuple.types ≠ []
  paired : tuple.names.length = tuple.types.length
  named : some "" ∉ tuple.names

structure ResolvedParameter.WellFormed (parameter : ResolvedParameter) : Prop where
  named : parameter.name ≠ some ""
  passed : ∀ keyword, parameter.keyword = some keyword → keyword ∈ ["ref", "out", "in", "params"]
  tuple : ∀ tuple, parameter.tuple = some tuple → tuple.WellFormed

/-- What is shown of a method. It is a lambda or local function exactly where that has a name; an ordinal is that of a
lambda whose generated name has the shown name for its host. -/
structure ResolvedMethod.WellFormed (shown : ResolvedMethod) (method : Method) : Prop where
  lambda : shown.isLambda = true ↔ ∃ name, shown.subName = some name
  ordinal : ∀ number, shown.ordinal = some number → shown.isLambda = true ∧
    ∃ suffix, shown.subName = some ("<" ++ shown.name ++ ">b" ++ suffix) ∧ lambdaOrdinal? suffix = some number
  subParameters : (∃ parameters, shown.subParameters = some parameters) ↔
    shown.isLambda = true ∧ ∃ target, method.Runs (some target)
  async : shown.isAsync = true ↔ ∃ origin, method.synthesis = .asyncMachine origin
  constructors : shown.kind ≠ .method → shown.isLambda = false
  generics : ∀ text, shown.generics = some text → ∃ inner, text = "<" ++ inner ++ ">"
  parameters : ∀ parameter ∈ shown.returns.toList ++ shown.parameters ++ shown.subParameters.getD [],
    parameter.WellFormed

theorem elementNames_named (count : Nat) (names : List (Option String)) : some "" ∉ elementNames count names := by
  fun_induction elementNames count names with
  | case1 => exact List.not_mem_nil
  | case2 count ih => simpa using ih
  | case3 count name names ih =>
    rw [List.mem_cons, not_or]
    refine ⟨fun same => ?_, ih⟩
    simpa using (Option.filter_eq_some_iff.1 same.symm).2

theorem Tuple.wellFormed_of? {type : TypeRef} {names : List (Option String)} {tuple : Tuple}
    (recorded : of? type names = some tuple) : tuple.WellFormed := by
  have elements (wrapper : Option String) (inner : TypeRef) (itself : inner.isValueTuple = true) :
      (ofElements wrapper inner.arguments names).WellFormed := by
    have some_ : inner.arguments ≠ [] := by
      rintro empty
      simp [TypeRef.isValueTuple, TypeRef.spellsTuple, empty] at itself
    refine ⟨?_, ?_, elementNames_named _ _⟩
    · rw [ofElements, TypeRef.displayEach_eq_map]
      exact mt List.map_eq_nil_iff.1 some_
    · rw [ofElements, elementNames_length, TypeRef.length_displayEach]
  rcases of?_cases recorded with ⟨itself, rfl⟩ | ⟨-, inner, -, itself, rfl⟩
  · exact elements none type itself
  · exact elements _ inner itself

namespace Parameter

theorem resolve_wellFormed (parameter : Parameter) : parameter.resolve.WellFormed where
  named same := by simpa using (Option.filter_eq_some_iff.1 same).2
  passed keyword found := keyword_mem found
  tuple tuple found := by
    obtain ⟨names, -, recorded⟩ := Option.bind_eq_some_iff.1 found
    exact Tuple.wellFormed_of? recorded

end Parameter

theorem TypeRef.displayArguments_angled {types : List TypeRef} {text : String}
    (shown : displayArguments? types = some text) : ∃ inner, text = "<" ++ inner ++ ">" := by
  unfold displayArguments? angled? at shown
  split at shown
  · cases shown
  · exact ⟨_, (Option.some.inj shown).symm⟩

namespace Method

variable {method : Method} {parameters : List ResolvedParameter}

theorem parameters_wellFormed (told : method.parameters? = .ok parameters) :
    ∀ parameter ∈ parameters, parameter.WellFormed := by
  unfold parameters? at told
  split at told
  · cases told
  · cases told
    intro parameter member
    obtain ⟨source, -, rfl⟩ := List.mem_map.1 member
    exact source.resolve_wellFormed

theorem hostParameters_wellFormed (host : Option Method) :
    ∀ parameter ∈ hostParameters host, parameter.WellFormed := by
  unfold hostParameters
  split
  · next parameters told =>
    obtain ⟨method, -, known⟩ := Option.map_eq_some_iff.1 told
    exact parameters_wellFormed known
  · exact List.forall_mem_nil _

theorem targetParameters_wellFormed {origin : Origin} {known : Option (List ResolvedParameter)}
    (told : targetParameters? origin = .ok known) :
    ((∃ parameters, known = some parameters) ↔ ∃ target, origin.target = some target) ∧
      ∀ parameter ∈ known.getD [], parameter.WellFormed := by
  unfold targetParameters? at told
  cases found : origin.target with
  | none =>
    rw [found] at told
    cases told
    exact ⟨by simp, List.forall_mem_nil _⟩
  | some target =>
    rw [found] at told
    simp only at told
    cases given : target.parameters? with
    | error failure =>
      rw [given] at told
      cases told
    | ok parameters =>
      rw [given] at told
      cases told
      exact ⟨by simp, parameters_wellFormed given⟩

theorem async_of_machine :
    (Origin.of method).machine = some .async ↔ ∃ origin, method.synthesis = .asyncMachine origin := by
  rw [Origin.machine_of]
  cases method.synthesis <;> simp [Synthesis.machine?]

theorem ordinal_of_closure {closure : Closure} {number : UInt32}
    (closed : (Origin.of method).closure = some closure) (told : closure.ordinal = some number) :
    ∃ suffix, closure.name = "<" ++ (Origin.of method).name ++ ">b" ++ suffix ∧
      lambdaOrdinal? suffix = some number := by
  obtain ⟨⟨name, names⟩ | untold, -⟩ := Origin.closure_spec closed
  · rw [told] at names
    generalize parts : (closure.name, some number) = pair at names
    cases names with
    | @lambda suffix _ _ whole =>
      obtain ⟨rfl, ordinal⟩ := Prod.mk.inj parts
      refine ⟨suffix, String.toList_inj.1 ?_, ordinal.symm⟩
      rw [whole]
      simp
    | localFunction => cases (Prod.mk.inj parts).2
  · cases told.symm.trans untold

theorem parameter_of_shownWith {known : Option (List ResolvedParameter)}
    (told : ∀ parameter ∈ known.getD [], parameter.WellFormed) :
    let shown := method.shownWith known
    ∀ parameter ∈ shown.returns.toList ++ shown.parameters ++ shown.subParameters.getD [], parameter.WellFormed := by
  intro shown
  rw [List.forall_mem_append, List.forall_mem_append]
  refine ⟨⟨fun parameter member => ?_, ?_⟩, ?_⟩
  · obtain ⟨target, -, returned⟩ := Option.bind_eq_some_iff.1 (Option.mem_toList.1 member)
    obtain ⟨source, -, rfl⟩ := Option.map_eq_some_iff.1 returned
    exact source.resolve_wellFormed
  · rw [parameters_shownWith]
    cases (Origin.of method).closure with
    | none => exact told
    | some closure => exact hostParameters_wellFormed closure.host
  · rw [subParameters_shownWith]
    cases (Origin.of method).closure with
    | none => exact List.forall_mem_nil _
    | some closure => exact told

/-- Every method that can be resolved is shown well formed. -/
theorem wellFormed_of_resolve {shown : ResolvedMethod} (resolved : method.resolve = .ok shown) :
    shown.WellFormed method := by
  obtain ⟨known, told, rfl⟩ := exists_shownWith resolved
  obtain ⟨known_iff, wellFormed⟩ := targetParameters_wellFormed told
  simp only [target_eq_iff_runs] at known_iff
  constructor
  case lambda =>
    rw [isLambda_shownWith, subName_shownWith]
    cases (Origin.of method).closure <;> simp
  case ordinal =>
    intro number found
    rw [ordinal_shownWith] at found
    obtain ⟨closure, closed, ordinal⟩ := Option.bind_eq_some_iff.1 found
    obtain ⟨suffix, name, tells⟩ := ordinal_of_closure closed ordinal
    refine ⟨Option.isSome_iff_exists.2 ⟨closure, closed⟩, suffix, ?_, tells⟩
    exact Option.map_eq_some_iff.2 ⟨closure, closed, name⟩
  case subParameters =>
    rw [← known_iff, isLambda_shownWith, subParameters_shownWith]
    cases (Origin.of method).closure <;> simp
  case async => exact decide_eq_true_iff.trans async_of_machine
  case constructors =>
    intro constructor_
    rw [kind_shownWith] at constructor_
    rw [isLambda_shownWith]
    cases closed : (Origin.of method).closure with
    | none => rfl
    | some closure =>
      rw [closed] at constructor_
      exact absurd rfl constructor_
  case generics =>
    intro text found
    obtain ⟨source, -, display⟩ := Option.bind_eq_some_iff.1 found
    exact TypeRef.displayArguments_angled display
  case parameters => exact parameter_of_shownWith wellFormed

end Method

open Resolver

/-- Every method of a table that is resolved is shown well formed, whatever its resolver was asked for before. -/
theorem resolved_well_formed {given : List Method} {table : MethodTable}
    (made : MethodTable.ofMethods given = .ok table) (options : Options) {calls : List (List Nat × Call)}
    (asked : ∀ method ∈ calls.flatMap (·.2.methods), method ∈ table.methods) {method : Method}
    (member : method ∈ table.methods) (held : List Nat) {cell : Cell ResolvedMethod}
    (resolved : (((Resolver.ofOptions options).after calls).method held method).1 = .ok cell) :
    cell.value.WellFormed method := by
  have holds := MethodTable.holds_of_ofMethods made
  have same := result_after options holds.identified asked member held
  rw [resolved] at same
  exact Method.wellFormed_of_resolve same.symm

/-- A lambda in a generic method, with a tuple for its parameter, one of whose elements has a name. -/
theorem well_formed_lambda :
    let run : Method := { id := ⟨1⟩, name := "Run", genericArguments := [.genericParameter "T"] }
    let pair : Parameter := {
      name := some "pair", type := .byRefTo (.tupleOf [.named "A", .named "B"])
      tupleNames := some [some "x", some ""] }
    let lambda : Method := {
      id := ⟨2⟩, name := "<Run>b__0_1", parameters := [pair], synthesis := .closure (some ⟨1⟩), link := some run }
    let shown : ResolvedMethod := {
      name := "Run", generics := some "<T>", isLambda := true, ordinal := some 1, subName := some "<Run>b__0_1"
      subParameters := some [⟨some "pair", "(A, B)", some "ref", some ⟨none, ["A", "B"], [some "x", none]⟩⟩] }
    MethodTable.ofMethods [run, lambda] = .ok ⟨[lambda, run]⟩ ∧
      ∃ cell, (((Resolver.ofOptions {}).after [([], .method run)]).method [] lambda).1 = .ok cell ∧
        cell.value = shown ∧ shown.WellFormed lambda := by
  intro run pair lambda shown
  have made : MethodTable.ofMethods [run, lambda] = .ok ⟨[lambda, run]⟩ := by cbv
  have resolved : lambda.resolve = .ok shown := by decide +kernel
  have asked : ∀ method ∈ [run], method ∈ [lambda, run] := by simp
  have member : lambda ∈ [lambda, run] := List.mem_cons_self
  have same := @result_after _ {} [([], .method run)] lambda (MethodTable.holds_of_ofMethods made).identified asked
    member []
  obtain ⟨cell, found, value⟩ := map_value_eq_ok_iff.1 (same.trans resolved)
  refine ⟨made, cell, found, value, ?_⟩
  rw [← value]
  exact @resolved_well_formed _ _ made {} [([], .method run)] asked lambda member [] cell found

end Backtrace
