import Backtrace.Proofs.Method.MachineNames

/-!
What a method's source tells of the code that runs: whose code it is, as far as that is known, and which closure runs
in which host.
-/
namespace Backtrace

namespace Method

/-- A method that is known as a state machine by its name and that of its type only. -/
def NamedMachine (method : Method) : Prop :=
  method.synthesis = .unknown ∧ method.name = "MoveNext" ∧ (Origin.machineHost? method.declaringType).isSome = true

/-- The method whose code runs, as far as it is known: the method itself or, for a state machine, the one that it is
linked with. -/
inductive Runs (method : Method) : Option Method → Prop
  | linked {kind : Machine} (machine : method.synthesis.machine? = some kind) : Runs method method.link
  | named (machine : method.NamedMachine) : Runs method none
  | itself (plain : method.synthesis.machine? = none) (other : ¬method.NamedMachine) : Runs method (some method)

end Method

namespace Origin

inductive Unrolls (method : Method) : Unrolled → Prop
  | linked {kind : Machine} {origin : Method} (machine : method.synthesis.machine? = some kind)
      (link : method.link = some origin) :
      Unrolls method ⟨some origin, origin.name, origin.declaringType, some kind, bodyOf origin⟩
  | unlinked {kind : Machine} {name : String} {type : Option TypeRef}
      (machine : method.synthesis.machine? = some kind) (link : method.link = none) :
      Unrolls method ⟨none, name, type, some kind, .unknown⟩
  | named {name : String} {type : Option TypeRef} (machine : method.NamedMachine) :
      Unrolls method ⟨none, name, type, none, .unknown⟩
  | itself (plain : method.synthesis.machine? = none) (other : ¬method.NamedMachine) :
      Unrolls method (.itself method (bodyOf method))

theorem ofTypeName_eq (method : Method) (machine : Option Machine) :
    ∃ name type, Unrolled.ofTypeName method machine = ⟨none, name, type, machine, .unknown⟩ := by
  unfold Unrolled.ofTypeName
  cases machineHost? method.declaringType with
  | none => exact ⟨_, _, rfl⟩
  | some pair => exact ⟨_, _, rfl⟩

theorem unrolls_ofMachine {method : Method} {kind : Machine} (machine : method.synthesis.machine? = some kind) :
    Unrolls method (Unrolled.ofMachine method kind) := by
  unfold Unrolled.ofMachine
  cases link : method.link with
  | some origin => exact .linked machine link
  | none =>
    obtain ⟨name, type, same⟩ := ofTypeName_eq method (some kind)
    simp only [same]
    exact .unlinked machine link

theorem unrolls (method : Method) : Unrolls method (Unrolled.of method) := by
  unfold Unrolled.of
  have unnamed (other : method.synthesis ≠ .unknown) : ¬method.NamedMachine := fun named => other named.1
  have body (unknown : method.synthesis = .unknown) : bodyOf method = .unknown := by rw [bodyOf, unknown]
  cases made : method.synthesis with
  | asyncMachine origin => exact unrolls_ofMachine (by rw [made]; rfl)
  | iteratorMachine origin => exact unrolls_ofMachine (by rw [made]; rfl)
  | plain => exact .itself (by rw [made]; rfl) (unnamed (by simp [made]))
  | closure host => exact .itself (by rw [made]; rfl) (unnamed (by simp [made]))
  | unknown =>
    by_cases named : method.name = "MoveNext" ∧ (machineHost? method.declaringType).isSome = true
    · obtain ⟨name, type, same⟩ := ofTypeName_eq method none
      simp only [if_pos named, same]
      exact .named ⟨made, named⟩
    · simp only [if_neg named, ← body made]
      exact .itself (by rw [made]; rfl) fun machine => named machine.2

theorem machine_of (method : Method) : (of method).machine = method.synthesis.machine? := by
  change (Unrolled.of method).machine = _
  have unrolls := unrolls method
  generalize Unrolled.of method = unrolled at unrolls ⊢
  cases unrolls with
  | linked machine => exact machine.symm
  | unlinked machine => exact machine.symm
  | named machine => rw [machine.1]; rfl
  | itself plain => exact plain.symm

end Origin

namespace Method

variable {method : Method}

theorem Runs.unique {target other : Option Method} (runs : method.Runs target) (also : method.Runs other) :
    target = other := by
  have unclassified (named : method.NamedMachine) : method.synthesis.machine? = none := by rw [named.1]; rfl
  cases runs with
  | linked machine =>
    cases also with
    | linked => rfl
    | named named => cases machine.symm.trans (unclassified named)
    | itself plain => cases machine.symm.trans plain
  | named named =>
    cases also with
    | linked machine => cases machine.symm.trans (unclassified named)
    | named => rfl
    | itself _ other => exact absurd named other
  | itself plain different =>
    cases also with
    | linked machine => cases machine.symm.trans plain
    | named named => exact absurd named different
    | itself => rfl

theorem runs_target (method : Method) : method.Runs (Origin.of method).target := by
  change method.Runs (Origin.Unrolled.of method).target
  have unrolls := Origin.unrolls method
  generalize Origin.Unrolled.of method = unrolled at unrolls ⊢
  cases unrolls with
  | linked machine link => exact link ▸ .linked machine
  | unlinked machine link => exact link ▸ .linked machine
  | named machine => exact .named machine
  | itself plain other => exact .itself plain other

/-- The code that runs is the one that a method's source names. -/
theorem target_eq_iff_runs {target : Option Method} : (Origin.of method).target = target ↔ method.Runs target :=
  ⟨fun same => same ▸ runs_target method, (runs_target method).unique⟩

end Method

namespace Origin

variable {method : Method} {closure : Closure}

theorem ofClosure_spec (unrolled : Unrolled) (host : Option Method) :
    ((∃ name, NamesClosure name (ofClosure unrolled host).1
        ((ofClosure unrolled host).2.2.name, (ofClosure unrolled host).2.2.ordinal)) ∨
      (ofClosure unrolled host).2.2.ordinal = none) ∧
    (ofClosure unrolled host).2.2.host = host := by
  unfold ofClosure
  cases found : closureOfName? unrolled.name host with
  | none => exact ⟨.inr rfl, rfl⟩
  | some pair =>
    obtain ⟨outer, closure⟩ := pair
    obtain ⟨names, hosted⟩ := closureOfName?_eq_some_iff.1 found
    exact ⟨.inl ⟨unrolled.name, names⟩, hosted⟩

/-- A closure whose ordinal is told has a name of the convention, and one with a host is what its metadata say. -/
theorem closure_spec (closed : (of method).closure = some closure) :
    ((∃ name, NamesClosure name (of method).name (closure.name, closure.ordinal)) ∨ closure.ordinal = none) ∧
      ∀ host, closure.host = some host → (Unrolled.of method).body = .closure (some host) := by
  unfold of at closed ⊢
  cases body : (Unrolled.of method).body with
  | plain =>
    simp only [body] at closed
    cases closed
  | closure host =>
    simp only [body] at closed ⊢
    cases closed
    obtain ⟨names, hosted⟩ := ofClosure_spec (Unrolled.of method) host
    exact ⟨names, fun other same => by rw [← same, hosted]⟩
  | unknown =>
    simp only [body] at closed ⊢
    cases found : closureOfName? (Unrolled.of method).name none with
    | none =>
      simp only [found] at closed
      cases closed
    | some pair =>
      obtain ⟨outer, other⟩ := pair
      simp only [found] at closed ⊢
      cases closed
      obtain ⟨names, hosted⟩ := closureOfName?_eq_some_iff.1 found
      exact ⟨.inl ⟨_, names⟩, fun host same => by cases hosted.symm.trans same⟩

theorem link_of_bodyOf {host : Option Method} (body : bodyOf method = .closure host) : method.link = host := by
  unfold bodyOf at body
  split at body <;> cases body
  rfl

theorem target_of_body {host : Option Method} (body : (Unrolled.of method).body = .closure host) :
    ∃ target, (Unrolled.of method).target = some target ∧ target.link = host := by
  have unrolls := unrolls method
  generalize Unrolled.of method = unrolled at unrolls body ⊢
  cases unrolls with
  | @linked _ origin => exact ⟨origin, rfl, link_of_bodyOf body⟩
  | unlinked => cases body
  | named => cases body
  | itself => exact ⟨method, rfl, link_of_bodyOf body⟩

end Origin

theorem Method.runs_of_host {method host : Method} {closure : Closure}
    (closed : (Origin.of method).closure = some closure) (hosted : closure.host = some host) :
    ∃ target, method.Runs (some target) ∧ target.link = some host := by
  obtain ⟨-, body⟩ := Origin.closure_spec closed
  obtain ⟨target, runs, linked⟩ := Origin.target_of_body (body host hosted)
  exact ⟨target, target_eq_iff_runs.1 runs, linked⟩

end Backtrace
