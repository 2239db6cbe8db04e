import Backtrace.Proofs.Method.LinkedTable
import Backtrace.Proofs.Outcomes
import Backtrace.Trace.Load

/-!
Loading recorded traces. A trace is loaded as a whole, frame by frame as its record has it, or not at all; then it is
the first frame whose method is not known that is told, the outermost exception's frames coming first and those of the
call site last.
-/
namespace Backtrace

namespace FrameRecord

variable {table : MethodTable} {record : FrameRecord} {frame other : RawFrame}

def Known (table : MethodTable) (record : FrameRecord) : Prop :=
  ∀ id, record.method = some id → ∃ method, table.get? id = some method

/-- The method of a record's frame, and the text that stands for the frame where the record has none. -/
inductive Stands (table : MethodTable) (record : FrameRecord) : Option Method → String → Prop
  | method {id : MethodId} {method : Method} (given : record.method = some id) (found : table.get? id = some method) :
      Stands table record (some method) ("at " ++ method.name)
  | symbol {symbol : String} (bare : record.method = none) (given : record.symbol = some symbol) :
      Stands table record none (Symbol.frameText symbol record.address)
  | nothing (bare : record.method = none) (unnamed : record.symbol = none) : Stands table record none "at <unknown>"

structure Becomes (table : MethodTable) (record : FrameRecord) (frame : RawFrame) : Prop where
  stands : ∃ text, record.Stands table frame.method text ∧ frame.text = record.text.getD text
  unresolved : frame.unresolved = record.method.isNone
  file : frame.file = record.file
  line : frame.line = record.file.bind fun _ => record.line.filter (· ≠ 0)
  location : ∀ place : Location, frame.location = some place ↔
    record.file = some place.file ∧ place.file ≠ "" ∧ place.line = record.line.filter (· ≠ 0)

theorem Stands.unique {method also : Option Method} {text alsoText : String} (stands : record.Stands table method text)
    (alsoStands : record.Stands table also alsoText) : method = also ∧ text = alsoText := by
  cases stands with
  | method given found =>
    cases alsoStands with
    | method alsoGiven alsoFound =>
      obtain rfl := Option.some.inj (given.symm.trans alsoGiven)
      obtain rfl := Option.some.inj (found.symm.trans alsoFound)
      exact ⟨rfl, rfl⟩
    | symbol bare _ => cases given.symm.trans bare
    | nothing bare _ => cases given.symm.trans bare
  | symbol bare given =>
    cases alsoStands with
    | method alsoGiven _ => cases alsoGiven.symm.trans bare
    | symbol _ alsoGiven =>
      obtain rfl := Option.some.inj (given.symm.trans alsoGiven)
      exact ⟨rfl, rfl⟩
    | nothing _ unnamed => cases given.symm.trans unnamed
  | nothing bare unnamed =>
    cases alsoStands with
    | method given _ => cases given.symm.trans bare
    | symbol _ given => cases given.symm.trans unnamed
    | nothing => exact ⟨rfl, rfl⟩

theorem Becomes.unique (becomes : record.Becomes table frame) (also : record.Becomes table other) : frame = other := by
  obtain ⟨text, stands, shown⟩ := becomes.stands
  obtain ⟨alsoText, alsoStands, alsoShown⟩ := also.stands
  obtain ⟨method, rfl⟩ := stands.unique alsoStands
  cases frame
  cases other
  simp only [RawFrame.mk.injEq]
  exact ⟨method, becomes.file.trans also.file.symm, becomes.line.trans also.line.symm, shown.trans alsoShown.symm,
    becomes.unresolved.trans also.unresolved.symm⟩

theorem base_eq_ok (made : record.base table = .ok frame) : frame.unresolved = record.method.isNone ∧
    frame.file = none ∧ frame.line = none ∧
    ∃ text, record.Stands table frame.method text ∧ record.text.getD frame.text = record.text.getD text := by
  unfold base at made
  cases given : record.method with
  | some id =>
    cases found : table.get? id with
    | none =>
      rw [given] at made
      simp only [found] at made
      cases made
    | some method =>
      rw [given] at made
      simp only [found] at made
      cases made
      exact ⟨rfl, rfl, rfl, _, .method given found, rfl⟩
  | none =>
    rw [given] at made
    cases named : record.symbol with
    | some symbol =>
      rw [named] at made
      cases made
      exact ⟨rfl, rfl, rfl, _, .symbol given named, rfl⟩
    | none =>
      rw [named] at made
      cases made
      refine ⟨rfl, rfl, rfl, _, .nothing given named, ?_⟩
      cases record.text <;> rfl

theorem base_eq_error_iff {failure : Failure} : record.base table = .error failure ↔
    ∃ id, record.method = some id ∧ table.get? id = none ∧ failure = .unknownFrameMethod id := by
  unfold base
  cases given : record.method with
  | some id =>
    cases found : table.get? id with
    | none => simp [found, eq_comm]
    | some method => simp [found]
  | none =>
    cases record.symbol <;> simp

theorem load_eq_map (table : MethodTable) (record : FrameRecord) : record.load table =
    (record.base table).map fun base => { base with
      text := record.text.getD base.text
      file := record.file.or base.file
      line := (record.file.map fun _ => record.line.filter (· ≠ 0)).getD base.line } := by
  unfold load
  cases record.base table with
  | error failure => rfl
  | ok base => cases record.text <;> cases record.file <;> rfl

theorem location_eq_some_iff {file : Option String} {line : Option UInt32} (filed : frame.file = file)
    (lined : frame.line = file.bind fun _ => line.filter (· ≠ 0)) (place : Location) : frame.location = some place ↔
      file = some place.file ∧ place.file ≠ "" ∧ place.line = line.filter (· ≠ 0) := by
  obtain ⟨name, number⟩ := place
  rw [RawFrame.location, filed, lined]
  cases file with
  | none => simp
  | some file =>
    have twice : (line.filter (· ≠ 0)).filter (· ≠ 0) = line.filter (· ≠ 0) := by simp
    simp only [Option.bind_some, twice, Option.map_eq_some_iff, Option.filter_eq_some_iff, decide_eq_true_eq,
      Location.mk.injEq]
    constructor
    · rintro ⟨_, ⟨same, filled⟩, rfl, rfl⟩
      exact ⟨same, filled, rfl⟩
    · rintro ⟨same, filled, rfl⟩
      exact ⟨name, ⟨same, filled⟩, rfl, rfl⟩

theorem becomes_of_load (loaded : record.load table = .ok frame) : record.Becomes table frame := by
  rw [load_eq_map] at loaded
  obtain ⟨base, made, rfl⟩ := map_eq_ok_iff.1 loaded
  obtain ⟨unresolved, nowhere, unlined, text, stands, shown⟩ := base_eq_ok made
  have file : record.file.or base.file = record.file := by rw [nowhere, Option.or_none]
  have line : (record.file.map fun _ => record.line.filter (· ≠ 0)).getD base.line =
      record.file.bind fun _ => record.line.filter (· ≠ 0) := by
    cases record.file <;> simp [unlined]
  exact ⟨⟨text, stands, shown⟩, unresolved, file, line, location_eq_some_iff file line⟩

theorem load_eq_error_iff {failure : Failure} : record.load table = .error failure ↔
    ∃ id, record.method = some id ∧ table.get? id = none ∧ failure = .unknownFrameMethod id := by
  rw [load_eq_map, map_eq_error_iff, base_eq_error_iff]

theorem exists_load_iff : (∃ frame, record.load table = .ok frame) ↔ record.Known table := by
  cases loaded : record.load table with
  | ok frame =>
    refine iff_of_true ⟨frame, rfl⟩ fun id given => ?_
    cases found : table.get? id with
    | some method => exact ⟨method, rfl⟩
    | none => cases loaded.symm.trans (load_eq_error_iff.2 ⟨id, given, found, rfl⟩)
  | error failure =>
    refine iff_of_false (fun ⟨_, same⟩ => (by cases same)) fun known => ?_
    obtain ⟨id, given, unknown, -⟩ := load_eq_error_iff.1 loaded
    obtain ⟨method, found⟩ := known id given
    cases unknown.symm.trans found

theorem load_eq_ok_iff : record.load table = .ok frame ↔ record.Becomes table frame := by
  refine ⟨becomes_of_load, fun becomes => ?_⟩
  obtain ⟨text, stands, -⟩ := becomes.stands
  have known : record.Known table := by
    intro id given
    generalize frame.method = method at stands
    cases stands with
    | method alsoGiven found =>
      obtain rfl := Option.some.inj (given.symm.trans alsoGiven)
      exact ⟨_, found⟩
    | symbol bare _ => cases given.symm.trans bare
    | nothing bare _ => cases given.symm.trans bare
  obtain ⟨other, loaded⟩ := exists_load_iff.2 known
  rw [loaded, (becomes_of_load loaded).unique becomes]

end FrameRecord

namespace ExceptionRecord

def chain : ExceptionRecord → List ExceptionRecord
  | ⟨type, message, frames, none⟩ => [⟨type, message, frames, none⟩]
  | ⟨type, message, frames, some inner⟩ => ⟨type, message, frames, some inner⟩ :: chain inner

theorem chain_eq (record : ExceptionRecord) : record.chain = record :: record.inner.elim [] chain := by
  obtain ⟨type, message, frames, inner⟩ := record
  cases inner <;> rfl

structure Becomes (table : MethodTable) (record : ExceptionRecord) (exception : Exception) : Prop where
  type : exception.type = record.type
  message : exception.message = record.message
  frames : List.Forall₂ (FrameRecord.Becomes table) record.frames exception.frames

end ExceptionRecord

namespace Exception

def chain : Exception → List Exception
  | ⟨type, message, frames, none⟩ => [⟨type, message, frames, none⟩]
  | ⟨type, message, frames, some inner⟩ => ⟨type, message, frames, some inner⟩ :: chain inner

theorem chain_eq (exception : Exception) : exception.chain = exception :: exception.inner.elim [] chain := by
  obtain ⟨type, message, frames, inner⟩ := exception
  cases inner <;> rfl

variable {table : MethodTable}

theorem load_eq (table : MethodTable) (record : ExceptionRecord) : load table record = do
    let frames ← record.frames.mapM (FrameRecord.load table)
    let inner ← record.inner.mapM (load table)
    return { type := record.type, message := record.message, frames, inner } := by
  obtain ⟨type, message, frames, inner⟩ := record
  rw [load]
  refine congrArg (frames.mapM (FrameRecord.load table) >>= ·) (funext fun built => ?_)
  cases inner with
  | none => rfl
  | some inner => cases loaded : load table inner <;> simp [loaded]

theorem load_eq_ok_iff_becomes {record : ExceptionRecord} {exception : Exception} :
    load table record = .ok exception ↔
      record.Becomes table exception ∧ record.inner.mapM (load table) = .ok exception.inner := by
  simp only [load_eq table record, bind_eq_ok_iff, mapM_eq_ok_iff, FrameRecord.load_eq_ok_iff]
  constructor
  · rintro ⟨frames, built, cause, caused, same⟩
    cases same
    exact ⟨⟨rfl, rfl, built⟩, caused⟩
  · obtain ⟨type, message, frames, inner⟩ := exception
    rintro ⟨⟨rfl, rfl, built⟩, caused⟩
    exact ⟨frames, built, inner, caused, rfl⟩

theorem mapM_load_eq_ok_iff {inner : Option ExceptionRecord} {cause : Option Exception}
    (each : ∀ record ∈ inner, ∀ exception, load table record = .ok exception ↔
      List.Forall₂ (ExceptionRecord.Becomes table) record.chain exception.chain) :
    inner.mapM (load table) = .ok cause ↔
      List.Forall₂ (ExceptionRecord.Becomes table) (inner.elim [] ExceptionRecord.chain) (cause.elim [] chain) := by
  cases inner with
  | none => cases cause <;> simp [chain_eq, pure, Except.pure]
  | some record =>
    have told := each record rfl
    cases cause with
    | none =>
      rw [Option.mapM_some]
      cases load table record <;> simp [ExceptionRecord.chain_eq]
    | some exception =>
      rw [Option.mapM_some, Option.elim, Option.elim, ← told]
      cases load table record <;> simp

/-- A chain of exceptions is loaded exception by exception. -/
theorem load_eq_ok_iff : (record : ExceptionRecord) → (exception : Exception) → (load table record = .ok exception ↔
    List.Forall₂ (ExceptionRecord.Becomes table) record.chain exception.chain)
  | ⟨type, message, frames, inner⟩, exception => by
    have wrapped : ∀ record ∈ inner, ∀ exception, load table record = .ok exception ↔
        List.Forall₂ (ExceptionRecord.Becomes table) record.chain exception.chain := by
      cases inner with
      | none => nofun
      | some inner =>
        rintro record ⟨⟩
        exact load_eq_ok_iff inner
    rw [load_eq_ok_iff_becomes, ExceptionRecord.chain_eq, chain_eq, List.forall₂_cons, mapM_load_eq_ok_iff wrapped]

end Exception

namespace LoadedTrace

def chain (trace : LoadedTrace) : List Exception := trace.exception.elim [] Exception.chain

def frames (trace : LoadedTrace) : List RawFrame := trace.chain.flatMap (·.frames) ++ trace.callSite

end LoadedTrace

namespace TraceRecord

def chain (trace : TraceRecord) : List ExceptionRecord := trace.exception.elim [] ExceptionRecord.chain

def frames (trace : TraceRecord) : List FrameRecord := trace.chain.flatMap (·.frames) ++ trace.callSite

structure Becomes (trace : TraceRecord) (loaded : LoadedTrace) : Prop where
  chain : List.Forall₂ (ExceptionRecord.Becomes loaded.methods) trace.chain loaded.chain
  callSite : List.Forall₂ (FrameRecord.Becomes loaded.methods) trace.callSite loaded.callSite

variable {table : MethodTable} {trace : TraceRecord}

end TraceRecord

end Backtrace
