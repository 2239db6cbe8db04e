import Backtrace.Method.Origin
import Backtrace.Proofs.GeneratedName

/-!
State machines and the methods that they were made for. A machine is led back to its method by a link, or by the
name of its type and the type around it. Both lead to the same method and the same lambda or local function in it,
however deeply generated names stand in one another. A lambda keeps its whole name and has a number where its suffix
ends in one; a local function goes by the name that it has in its suffix.
-/
namespace Backtrace

/-- A name that is made for a lambda or a local function of a host, with what it tells: the name that is shown and
the ordinal. -/
inductive NamesClosure (name : String) : String → String × Option UInt32 → Prop
  | lambda {host suffix : String} (filled : host ≠ "") (balanced : BalancedBrackets host.toList)
      (whole : name.toList = '<' :: host.toList ++ '>' :: 'b' :: suffix.toList) :
      NamesClosure name host (name, lambdaOrdinal? suffix)
  | localFunction {host suffix : String} (filled : host ≠ "") (balanced : BalancedBrackets host.toList)
      (whole : name.toList = '<' :: host.toList ++ '>' :: 'g' :: suffix.toList) :
      NamesClosure name host ((localFunctionName? suffix).getD name, none)

def Synthesis.machine? : Synthesis → Option Machine
  | .asyncMachine _ => some .async
  | .iteratorMachine _ => some .iterator
  | .unknown | .plain | .closure _ => none

namespace Origin

structure Told where
  name : String
  declaringType : Option TypeRef
  machine : Option Machine
  closure : Option (String × Option UInt32)

def told (origin : Origin) : Told :=
  ⟨origin.name, origin.declaringType, origin.machine, origin.closure.map fun closure => (closure.name, closure.ordinal)⟩

def Told.ofHost (host : String) (type : TypeRef) (machine : Option Machine) : Told :=
  match closureOfName? host none with
  | some (outer, closure) => ⟨outer, type.source?, machine, some (closure.name, closure.ordinal)⟩
  | none => ⟨host, type.source?, machine, none⟩

/-- The closures that names tell of are those of the convention. -/
theorem closureOfName?_eq_some_iff {name shown : String} {host : Option Method} {closure : Closure} :
    closureOfName? name host = some (shown, closure) ↔
      NamesClosure name shown (closure.name, closure.ordinal) ∧ closure.host = host := by
  unfold closureOfName?
  rw [Option.bind_eq_bind, Option.bind_eq_some_iff]
  constructor
  · rintro ⟨⟨outer, kind, suffix⟩, read, found⟩
    obtain ⟨tail, whole, balanced, behind⟩ := GeneratedName.ofText?_eq_some_iff.1 read
    split at found
    · cases found
    · next filled =>
      split at found
      · next lambda =>
        cases found
        obtain rfl : kind = some .lambda := lambda
        exact ⟨.lambda filled balanced (behind.eq_letter ▸ whole), rfl⟩
      · next localFunction =>
        cases found
        obtain rfl : kind = some .localFunction := localFunction
        exact ⟨.localFunction filled balanced (behind.eq_letter ▸ whole), rfl⟩
      · cases found
  · obtain ⟨called, ordinal, _⟩ := closure
    rintro ⟨names, rfl⟩
    cases names with
    | lambda filled balanced whole =>
      refine ⟨_, GeneratedName.ofText?_of_letter balanced 'b' whole, ?_⟩
      rw [if_neg filled]
      rfl
    | localFunction filled balanced whole =>
      refine ⟨_, GeneratedName.ofText?_of_letter balanced 'g' whole, ?_⟩
      rw [if_neg filled]
      rfl

theorem Told.ofHost_cases (host : String) (type : TypeRef) (machine : Option Machine) :
    (∃ outer closure, NamesClosure host outer closure ∧
      Told.ofHost host type machine = ⟨outer, type.source?, machine, some closure⟩) ∨
    ((¬∃ outer closure, NamesClosure host outer closure) ∧
      Told.ofHost host type machine = ⟨host, type.source?, machine, none⟩) := by
  unfold Told.ofHost
  cases found : closureOfName? host none with
  | some pair =>
    obtain ⟨outer, closure⟩ := pair
    exact .inl ⟨outer, (closure.name, closure.ordinal), (closureOfName?_eq_some_iff.1 found).1, rfl⟩
  | none =>
    refine .inr ⟨?_, rfl⟩
    rintro ⟨outer, ⟨called, ordinal⟩, names⟩
    have told : closureOfName? host none = some (outer, ⟨called, ordinal, none⟩) :=
      closureOfName?_eq_some_iff.2 ⟨names, rfl⟩
    cases found.symm.trans told

/-! How each of the three ways back leads to what the host's name tells. -/

theorem of_machine {record : MethodRecord} {kind : Machine} (classified : record.synthesis.machine? = some kind)
    (link : Option Method) : Unrolled.of ⟨record, link⟩ = Unrolled.ofMachine ⟨record, link⟩ kind := by
  unfold Unrolled.of
  cases made : record.synthesis <;> rw [made] at classified <;> cases classified <;> rfl

theorem told_of_unknown {method : Method} {target : Option Method} {host : String} {type : TypeRef}
    {machine : Option Machine} (unrolled : Unrolled.of method = ⟨target, host, some type, machine, .unknown⟩) :
    (Origin.of method).told = Told.ofHost host type machine := by
  unfold Origin.of Told.ofHost
  rw [unrolled]
  cases found : closureOfName? host none <;> simp only [found] <;> rfl

theorem told_of_closure {method : Method} {target link : Option Method} {host : String} {type : TypeRef}
    {machine : Option Machine} (unrolled : Unrolled.of method = ⟨target, host, some type, machine, .closure link⟩)
    (names : ∃ outer closure, NamesClosure host outer closure)
    (inside : ∀ other, link.bind (·.declaringType) = some other → other.source? = type.source?) :
    (Origin.of method).told = Told.ofHost host type machine := by
  obtain ⟨outer, ⟨called, ordinal⟩, names⟩ := names
  have alone : closureOfName? host none = some (outer, ⟨called, ordinal, none⟩) :=
    closureOfName?_eq_some_iff.2 ⟨names, rfl⟩
  have hosted : closureOfName? host link = some (outer, ⟨called, ordinal, link⟩) :=
    closureOfName?_eq_some_iff.2 ⟨names, rfl⟩
  have source : ((link.bind (·.declaringType)).or (some type)).bind TypeRef.source? = type.source? := by
    cases declared : link.bind (·.declaringType) with
    | none => rfl
    | some other => exact inside other declared
  unfold Origin.of Told.ofHost ofClosure
  rw [unrolled]
  simp only [alone, hosted, Option.getD_some, told, source]
  rfl

theorem machineHost?_of_name {host suffix : String} {machine : TypeRef} (filled : host ≠ "")
    (balanced : BalancedBrackets host.toList) (named : machine.simpleName = "<" ++ host ++ ">d" ++ suffix) :
    machineHost? (some machine) = some (host, machine.enclosing) := by
  have whole : machine.simpleName.toList = '<' :: host.toList ++ '>' :: 'd' :: suffix.toList := by
    rw [named]
    simp
  have read := GeneratedName.ofText?_of_letter balanced 'd' whole
  have letter : GeneratedKind.ofLetter 'd' = .stateMachine := rfl
  simp only [machineHost?, Option.bind_eq_bind, Option.bind_some, read, letter]
  exact if_pos ⟨trivial, filled⟩

end Origin

structure TypeRef.MachineOf (machine : TypeRef) (host : String) (type : TypeRef) : Prop where
  filled : host ≠ ""
  balanced : BalancedBrackets host.toList
  named : ∃ suffix, machine.simpleName = "<" ++ host ++ ">d" ++ suffix
  enclosed : machine.enclosing = some type

/-- A method that is what a host's name says: nothing is known of how it was made, or it is a closure whose name
follows the convention and whose host, if it is linked, is declared in the same source. -/
structure Method.OriginOf (origin : Method) (host : String) (type : TypeRef) : Prop where
  named : origin.name = host
  declared : origin.declaringType = some type
  made : origin.synthesis = .unknown ∨ (∃ link, origin.synthesis = .closure link) ∧
    (∃ outer closure, NamesClosure host outer closure) ∧
    ∀ other, origin.link.bind (·.declaringType) = some other → other.source? = type.source?

namespace Origin

variable {host : String} {type machine : TypeRef}

/-- A machine with a link is led back by it. -/
theorem told_of_linked {method origin : Method} {kind : Machine} (source : origin.OriginOf host type)
    (classified : method.synthesis.machine? = some kind) :
    (Origin.of { method with link := some origin }).told = Told.ofHost host type (some kind) := by
  have unrolled : Unrolled.of { method with link := some origin } =
      ⟨some origin, host, some type, some kind, bodyOf origin⟩ := by
    rw [of_machine classified (some origin), ← source.named, ← source.declared]
    rfl
  rcases source.made with unknown | ⟨⟨link, closure⟩, names, inside⟩
  · rw [bodyOf, unknown] at unrolled
    exact told_of_unknown unrolled
  · rw [bodyOf, closure] at unrolled
    exact told_of_closure unrolled names inside

/-- A machine without a link is led back by the name of its type. -/
theorem told_of_unlinked {method : Method} {kind : Machine} (name : machine.MachineOf host type)
    (declaring : method.declaringType = some machine) (classified : method.synthesis.machine? = some kind) :
    (Origin.of { method with link := none }).told = Told.ofHost host type (some kind) := by
  obtain ⟨suffix, named⟩ := name.named
  have found := machineHost?_of_name name.filled name.balanced named
  have unrolled : Unrolled.of { method with link := none } = ⟨none, host, some type, some kind, .unknown⟩ := by
    rw [of_machine classified none]
    simp only [Unrolled.ofMachine, Unrolled.ofTypeName, declaring, found, name.enclosed]
  exact told_of_unknown unrolled

/-- A method of which nothing is known but names is led back by the name of its type, too. -/
theorem told_of_moveNext {method : Method} (name : machine.MachineOf host type)
    (declaring : method.declaringType = some machine) (unclassified : method.synthesis = .unknown)
    (resumes : method.name = "MoveNext") : (Origin.of method).told = Told.ofHost host type none := by
  obtain ⟨suffix, named⟩ := name.named
  have found := machineHost?_of_name name.filled name.balanced named
  have unrolled : Unrolled.of method = ⟨none, host, some type, none, .unknown⟩ := by
    unfold Unrolled.of
    simp only [unclassified, resumes, declaring, found, Option.isSome_some, and_self, if_true, Unrolled.ofTypeName,
      name.enclosed]
  exact told_of_unknown unrolled

end Origin

open Origin

/-- A state machine is led back to the same source by its link and by the name of its type: the same name, type,
kind of machine and closure. So is a method of its type that is only known by the name of the method that resumes
machines, but for the kind. Where the host's name follows the convention for closures, it is the closure that it
tells of; otherwise it is the source itself. -/
theorem machine_name_tells_origin {host : String} {type machine : TypeRef} {method origin bare : Method}
    {kind : Machine} (name : machine.MachineOf host type) (source : origin.OriginOf host type)
    (declaring : method.declaringType = some machine) (classified : method.synthesis.machine? = some kind)
    (alike : bare.declaringType = some machine) (unclassified : bare.synthesis = .unknown)
    (resumes : bare.name = "MoveNext") :
    let unlinked := (Origin.of { method with link := none }).told
    (Origin.of { method with link := some origin }).told = unlinked ∧
    (Origin.of bare).told = { unlinked with machine := none } ∧
    ((∃ outer closure, NamesClosure host outer closure ∧ unlinked = ⟨outer, type.source?, some kind, some closure⟩) ∨
      (¬∃ outer closure, NamesClosure host outer closure) ∧
        unlinked = ⟨host, type.source?, some kind, none⟩) := by
  intro unlinked
  have byName : unlinked = Told.ofHost host type (some kind) := told_of_unlinked name declaring classified
  rw [told_of_linked source classified, told_of_moveNext name alike unclassified resumes, byName]
  refine ⟨rfl, ?_, Told.ofHost_cases host type (some kind)⟩
  unfold Told.ofHost
  cases closureOfName? host none <;> rfl

/-- A lambda in an asynchronous method, itself asynchronous. It is declared by a display class, and its host by the
class around that. -/
theorem machine_name_tells_lambda :
    let service := TypeRef.qualified "App" "Service"
    let display := (TypeRef.named "<>c__DisplayClass0_0").nestedIn service
    let machine := ((TypeRef.named "<<Start>b__0_2>d__5\x601").instantiate [.named "Config"]).nestedIn display
    let start : Method := { id := ⟨1⟩, name := "Start", declaringType := some service }
    let lambda : Method := {
      id := ⟨2⟩, name := "<Start>b__0_2", declaringType := some display, synthesis := .closure (some ⟨1⟩)
      link := some start }
    let method : Method := {
      id := ⟨3⟩, name := "MoveNext", declaringType := some machine, synthesis := .asyncMachine (some ⟨2⟩) }
    let bare : Method := { id := ⟨3⟩, name := "MoveNext", declaringType := some machine }
    let told (kind : Option Machine) : Told := ⟨"Start", some service, kind, some ("<Start>b__0_2", some 2)⟩
    machine.MachineOf "<Start>b__0_2" display ∧ lambda.OriginOf "<Start>b__0_2" display ∧
      (Origin.of { method with link := some lambda }).told = told (some .async) ∧
      (Origin.of { method with link := none }).told = told (some .async) ∧ (Origin.of bare).told = told none := by
  intro service display machine start lambda method bare told
  have read : GeneratedName.ofText? "<<Start>b__0_2>" = some ⟨"<Start>b__0_2", none, ""⟩ := by rfl
  have balanced : BalancedBrackets "<Start>b__0_2".toList := by
    obtain ⟨tail, -, balanced, -⟩ := GeneratedName.ofText?_eq_some_iff.1 read
    exact balanced
  have called : closureOfName? "<Start>b__0_2" none = some ("Start", ⟨"<Start>b__0_2", some 2, none⟩) := by rfl
  have names : NamesClosure "<Start>b__0_2" "Start" ("<Start>b__0_2", some 2) := (closureOfName?_eq_some_iff.1 called).1
  have name : machine.MachineOf "<Start>b__0_2" display := ⟨by decide, balanced, ⟨"__5", by decide +kernel⟩, rfl⟩
  have source : lambda.OriginOf "<Start>b__0_2" display := by
    refine ⟨rfl, rfl, .inr ⟨⟨some ⟨1⟩, rfl⟩, ⟨"Start", _, names⟩, fun other declared => ?_⟩⟩
    cases declared
    rfl
  obtain ⟨linked, byName, -⟩ :=
    @machine_name_tells_origin _ _ _ method lambda bare .async name source rfl rfl rfl rfl rfl
  have unlinked : (Origin.of { method with link := none }).told = told (some .async) := by
    rw [@told_of_unlinked _ _ _ method .async name rfl rfl, Told.ofHost]
    simp only [called]
    rfl
  refine ⟨name, source, linked.trans unlinked, unlinked, ?_⟩
  rw [byName, unlinked]

/-! ### Closures -/

namespace Origin

variable {name host suffix : String}

theorem closureOfName?_of_lambda (link : Option Method)
    (read : GeneratedName.ofText? name = some ⟨host, some (.ofLetter 'b'), suffix⟩) (filled : host ≠ "") :
    closureOfName? name link = some (host, ⟨name, lambdaOrdinal? suffix, link⟩) := by
  simp only [closureOfName?, read, Option.bind_eq_bind, Option.bind_some, if_neg filled]
  rfl

theorem closureOfName?_of_localFunction (link : Option Method)
    (read : GeneratedName.ofText? name = some ⟨host, some (.ofLetter 'g'), suffix⟩) (filled : host ≠ "") :
    closureOfName? name link = some (host, ⟨(localFunctionName? suffix).getD name, none, link⟩) := by
  simp only [closureOfName?, read, Option.bind_eq_bind, Option.bind_some, if_neg filled]
  rfl

theorem closureOfName?_isSome_iff (link : Option Method) : (closureOfName? name link).isSome = true ↔
    ∃ host letter suffix, GeneratedName.ofText? name = some ⟨host, some (.ofLetter letter), suffix⟩ ∧ host ≠ "" ∧
      (letter = 'b' ∨ letter = 'g') := by
  constructor
  · intro told
    obtain ⟨⟨host, closure⟩, found⟩ := Option.isSome_iff_exists.1 told
    obtain ⟨names, -⟩ := closureOfName?_eq_some_iff.1 found
    generalize (closure.name, closure.ordinal) = parts at names
    cases names with
    | @lambda suffix filled balanced whole =>
      exact ⟨host, 'b', suffix, GeneratedName.ofText?_of_letter balanced 'b' whole, filled, .inl rfl⟩
    | @localFunction suffix filled balanced whole =>
      exact ⟨host, 'g', suffix, GeneratedName.ofText?_of_letter balanced 'g' whole, filled, .inr rfl⟩
  · rintro ⟨host, letter, suffix, read, filled, rfl | rfl⟩
    · rw [closureOfName?_of_lambda link read filled]
      rfl
    · rw [closureOfName?_of_localFunction link read filled]
      rfl

/-- A method name tells of a closure exactly where it is read as a generated name with a host and the letter of a
lambda or of a local function. A lambda goes by the whole name and has the number that its suffix spells, if that fits
in 32 bits; a local function has no number and goes by the name in its suffix, or by the whole name if there is none. -/
theorem closure_name_recovered (name : String) (link : Option Method) :
    ((closureOfName? name link).isSome = true ↔
      ∃ host letter suffix, GeneratedName.ofText? name = some ⟨host, some (.ofLetter letter), suffix⟩ ∧ host ≠ "" ∧
        (letter = 'b' ∨ letter = 'g')) ∧
    (∀ host suffix, GeneratedName.ofText? name = some ⟨host, some (.ofLetter 'b'), suffix⟩ → host ≠ "" →
      ∃ ordinal, closureOfName? name link = some (host, ⟨name, ordinal, link⟩) ∧
        ∀ number, ordinal.map UInt32.toNat = some number ↔ number < 2 ^ 32 ∧ SpellsOrdinal suffix number) ∧
    ∀ host suffix, GeneratedName.ofText? name = some ⟨host, some (.ofLetter 'g'), suffix⟩ → host ≠ "" →
      ∃ shown, closureOfName? name link = some (host, ⟨shown, none, link⟩) ∧
        (SpellsFunction suffix shown ∨ shown = name ∧ ¬∃ called, SpellsFunction suffix called) := by
  refine ⟨closureOfName?_isSome_iff link, ?_, ?_⟩
  · intro host suffix read filled
    exact ⟨lambdaOrdinal? suffix, closureOfName?_of_lambda link read filled, fun number => ordinal_eq_some_iff⟩
  · intro host suffix read filled
    refine ⟨_, closureOfName?_of_localFunction link read filled, ?_⟩
    cases called : localFunctionName? suffix with
    | some shown => exact .inl (localFunctionName?_eq_some_iff.1 called)
    | none =>
      refine .inr ⟨rfl, ?_⟩
      rintro ⟨shown, spelled⟩
      cases called.symm.trans (localFunctionName?_eq_some_iff.2 spelled)

/-- A lambda in a lambda, with the greatest number that there is, and a local function without a name. -/
theorem closure_name_recovered_nested :
    let lambda := "<<Start>b__0>b__1_+04294967295"
    let function := "<Start>g__|0_0"
    (∃ ordinal, closureOfName? lambda none = some ("<Start>b__0", ⟨lambda, ordinal, none⟩) ∧
      ordinal.map UInt32.toNat = some 4294967295) ∧
    ∃ shown, closureOfName? function none = some ("Start", ⟨shown, none, none⟩) ∧
      (SpellsFunction "__|0_0" shown ∨ shown = function ∧ ¬∃ called, SpellsFunction "__|0_0" called) := by
  intro lambda function
  have readLambda : GeneratedName.ofText? "<<Start>b__0>b__1_+04294967295" =
      some ⟨"<Start>b__0", some (.ofLetter 'b'), "__1_+04294967295"⟩ := by rfl
  have readFunction : GeneratedName.ofText? "<Start>g__|0_0" = some ⟨"Start", some (.ofLetter 'g'), "__|0_0"⟩ := by rfl
  obtain ⟨-, lambdas, -⟩ := closure_name_recovered lambda none
  obtain ⟨-, -, functions⟩ := closure_name_recovered function none
  obtain ⟨ordinal, found, numbers⟩ := lambdas _ _ readLambda (by decide)
  have numeral : Text.numeral? UInt32.size "+04294967295".toList = some 4294967295 := by decide
  have spelled : SpellsOrdinal "__1_+04294967295" 4294967295 :=
    ⟨_, (Text.numeral?_eq_some_iff.1 numeral).2, .inr ⟨['1'], by decide, by decide⟩⟩
  exact ⟨⟨ordinal, found, (numbers 4294967295).2 ⟨by decide, spelled⟩⟩,
    functions _ _ readFunction (by decide)⟩

end Origin

end Backtrace
