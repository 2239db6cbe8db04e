import Backtrace.Proofs.Command.Printing
import Backtrace.Proofs.Trace.Json

/-!
Runs that fail print nothing. Whatever can go wrong in a run goes wrong while it is found out what there is to print;
once that is known, it is printed and the run has succeeded.
-/
namespace Backtrace

namespace Host

section Plans

variable {m : Type → Type} [Monad m]

/-- All that a run does before it prints. It gives the texts to print, or what went wrong. -/
def plan (host : Host m) (environment : Environment) (invocation : Invocation) : ExceptT RunFault m (List String) := do
  attempt .log (host.startLog environment)
  let options ← demand .failure (Options.build environment (.ofFlags invocation.flags))
  host.texts options invocation.command

def finish (host : Host m) : Except RunFault (List String) → m UInt32
  | .ok texts => do
    host.printAll texts
    return 0
  | .error fault => do
    host.complain fault.line
    return 1

variable [LawfulMonad m] (host : Host m)

/-- Where a run prints at all, it can no longer fail. -/
theorem run_eq (environment : Environment) (invocation : Invocation) :
    host.run environment invocation = (host.plan environment invocation).run >>= host.finish := by
  have planned : (do
      attempt .log (host.startLog environment)
      let options ← demand .failure (Options.build environment (.ofFlags invocation.flags))
      host.perform options invocation.command) =
      (do liftM (host.printAll (← host.plan environment invocation)) : ExceptT RunFault m Unit) := by
    simp [plan, perform_eq]
  rw [run]
  simp only [planned, ExceptT.run_bind, bind_assoc]
  refine congrArg ((host.plan environment invocation).run >>= ·) (funext fun outcome => ?_)
  cases outcome with
  | ok texts => simp [finish]
  | error fault => simp [finish]

end Plans

end Host

section Quiet

variable {σ α β : Type} {output : σ → String}

def Quiet (output : σ → String) (action : StateM σ α) : Prop := ∀ s, output (action s).2 = output s

theorem Quiet.pure (value : α) : Quiet output (Pure.pure value) := fun _ => rfl

theorem Quiet.bind {action : StateM σ α} {next : α → StateM σ β} (quiet : Quiet output action)
    (rest : ∀ value, Quiet output (next value)) : Quiet output (action >>= next) :=
  fun s => (rest (action s).1 (action s).2).trans (quiet s)

theorem Quiet.bindExcept {action : ExceptT ε (StateM σ) α} {next : α → ExceptT ε (StateM σ) β}
    (quiet : Quiet output action.run) (rest : ∀ value, Quiet output (next value).run) :
    Quiet output (action >>= next).run := by
  rw [ExceptT.run_bind]
  refine quiet.bind fun outcome => ?_
  cases outcome with
  | ok value => exact rest value
  | error fault => exact Quiet.pure _

namespace Host

/-- A host with an output that nothing but printing adds to. -/
structure PrintsTo (host : Host (StateM σ)) (output : σ → String) : Prop where
  today : Quiet output host.today
  isDirectory (path : String) : Quiet output (host.isDirectory path)
  makeDirectory (path : String) : Quiet output (host.makeDirectory path)
  makeFile (path : String) : Quiet output (host.makeFile path)
  readFile (path : String) : Quiet output (host.readFile path)
  readInput : Quiet output host.readInput
  print (text : String) (s : σ) : output (host.print text s).2 = output s ++ text
  complain (line : String) : Quiet output (host.complain line)

namespace PrintsTo

variable {host : Host (StateM σ)}

theorem ensureDirectory (prints : host.PrintsTo output) (path : Path) : Quiet output (host.ensureDirectory path) := by
  refine (prints.makeDirectory path.text).bind fun made => ?_
  cases made with
  | ok => exact .pure _
  | error fault => exact (prints.isDirectory path.text).bind fun _ => .pure _

theorem ensureDirectories (prints : host.PrintsTo output) (start : String) (parts : List String) :
    Quiet output (host.ensureDirectories start parts) := by
  induction parts with
  | nil => exact .pure _
  | cons part above ih =>
    unfold Host.ensureDirectories
    split
    · exact ih
    · refine (prints.ensureDirectory _).bind fun made => ?_
      split
      · refine ih.bind fun madeAbove => ?_
        cases madeAbove with
        | ok => exact prints.ensureDirectory _
        | error fault => exact .pure _
      · exact .pure _

theorem startLog (prints : host.PrintsTo output) (environment : Environment) :
    Quiet output (host.startLog environment) := by
  unfold Host.startLog
  cases environment "DEMYST_LOG_FILE" with
  | none => exact .pure _
  | some given =>
    refine (prints.isDirectory given).bind fun inside => prints.today.bind fun day => ?_
    dsimp only
    split
    · exact .pure _
    · refine (prints.ensureDirectories _ _).bind fun made => ?_
      cases made with
      | error fault => exact .pure _
      | ok =>
        refine (prints.makeFile _).bind fun file => ?_
        cases file <;> exact .pure _

theorem readText {source : StateM σ (Except FileFault ByteArray)} (quiet : Quiet output source) :
    Quiet output (Host.readText source).run :=
  Quiet.bindExcept (fun s => quiet s) fun _ => Quiet.pure _

theorem loadTrace (prints : host.PrintsTo output) (file : String) : Quiet output (host.loadTrace file).run :=
  (readText (prints.readFile file)).bindExcept fun _ => (Quiet.pure _).bindExcept fun _ => Quiet.pure _

theorem texts (prints : host.PrintsTo output) (options : Options) (command : Command) :
    Quiet output (host.texts options command).run := by
  cases command with
  | render file => exact (prints.loadTrace file).bindExcept fun _ => Quiet.pure _
  | frames file => exact (prints.loadTrace file).bindExcept fun _ => (Quiet.pure _).bindExcept fun _ => Quiet.pure _
  | postprocess input =>
    refine Quiet.bindExcept (readText ?_) fun _ => Quiet.pure _
    split
    · exact prints.readInput
    · exact prints.readFile input

theorem plan (prints : host.PrintsTo output) (environment : Environment) (invocation : Invocation) :
    Quiet output (host.plan environment invocation).run := by
  refine Quiet.bindExcept (fun s => prints.startLog environment s) fun _ => ?_
  exact (Quiet.pure _).bindExcept fun options => prints.texts options invocation.command

theorem printAll (prints : host.PrintsTo output) (texts : List String) (s : σ) :
    output (host.printAll texts s).2 = output s ++ String.join texts := by
  induction texts generalizing s with
  | nil => exact String.append_empty.symm
  | cons text texts ih =>
    refine (ih (host.print text s).2).trans ?_
    rw [prints.print, String.join_cons, String.append_assoc]

end PrintsTo

variable {host : Host (StateM σ)} {environment : Environment} {invocation : Invocation} {s logged : σ}
  {options : Options}

theorem run_of_plan {later : σ} {outcome : Except RunFault (List String)}
    (planned : (host.plan environment invocation).run s = (outcome, later)) :
    host.run environment invocation s = host.finish outcome later := by
  rw [run_eq]
  change (StateT.bind (host.plan environment invocation).run host.finish) s = _
  rw [StateT.bind, planned]
  rfl

theorem plan_of_build (log : host.startLog environment s = (.ok (), logged))
    (built : Options.build environment (.ofFlags invocation.flags) = .ok options) :
    (host.plan environment invocation).run s = (host.texts options invocation.command).run logged := by
  have attempted : (attempt RunFault.log (host.startLog environment)).run s = (.ok (), logged) := by
    change (Except.mapError RunFault.log (host.startLog environment s).1, (host.startLog environment s).2) = _
    rw [log]
    rfl
  have demanded : (demand RunFault.failure (Options.build environment (.ofFlags invocation.flags)) :
      ExceptT RunFault (StateM σ) Options).run logged = (.ok options, logged) := by
    rw [built]
    rfl
  rw [plan, run_bind_of_ok attempted, run_bind_of_ok demanded]

theorem texts_of_render {file : String} {loaded : σ} {trace : LoadedTrace}
    (loads : (host.loadTrace file).run logged = (.ok trace, loaded)) :
    (host.texts options (.render file)).run logged = (.ok (rendered options trace), loaded) :=
  run_bind_of_ok loads

end Host

end Quiet

theorem Surroundings.host_printsTo : Surroundings.host.PrintsTo Surroundings.output where
  today _ := rfl
  isDirectory _ _ := rfl
  makeDirectory path s := by
    change (Surroundings.makeDirectory path s).2.output = s.output
    rw [Surroundings.makeDirectory]
    split <;> rfl
  makeFile path s := by
    change (Surroundings.makeFile path s).2.output = s.output
    rw [Surroundings.makeFile]
    split <;> rfl
  readFile _ _ := rfl
  readInput _ := rfl
  print _ _ := rfl
  complain _ _ := rfl

/-- A run ends with status 0 or 1, the latter where it did not come to know what to print, and then it has printed
nothing, on each host where nothing but printing adds to the output. Rendering that comes to load its trace ends with
status 0 and prints what is rendered, however long the chain of causes is and whatever its text is. -/
theorem nothing_printed_on_failure {σ : Type} {host : Host (StateM σ)} {output : σ → String}
    (prints : host.PrintsTo output) (environment : Environment) (invocation : Invocation) (s : σ) :
    let ended := host.run environment invocation s
    (ended.1 = 0 ∨ ended.1 = 1) ∧
      (ended.1 = 1 ↔ ∃ fault later, (host.plan environment invocation).run s = (.error fault, later)) ∧
      (ended.1 = 1 → output ended.2 = output s) ∧
      ∀ file logged options loaded trace, invocation.command = .render file →
        host.startLog environment s = (.ok (), logged) →
        Options.build environment (.ofFlags invocation.flags) = .ok options →
        (host.loadTrace file).run logged = (.ok trace, loaded) →
        ended.1 = 0 ∧ output ended.2 = output s ++ String.join (Host.rendered options trace) := by
  obtain ⟨outcome, later, planned⟩ : ∃ outcome later, (host.plan environment invocation).run s = (outcome, later) :=
    ⟨_, _, rfl⟩
  have silent : output later = output s := by
    rw [← prints.plan environment invocation s, planned]
  have renders {file logged options loaded trace} (asked : invocation.command = .render file)
      (log : host.startLog environment s = (.ok (), logged))
      (built : Options.build environment (.ofFlags invocation.flags) = .ok options)
      (loads : (host.loadTrace file).run logged = (.ok trace, loaded)) :
      outcome = .ok (Host.rendered options trace) := by
    rw [Host.plan_of_build log built, asked, Host.texts_of_render loads] at planned
    exact (congrArg Prod.fst planned).symm
  intro ended
  have same : ended = host.finish outcome later := Host.run_of_plan planned
  rw [same]
  cases outcome with
  | ok texts =>
    have printed : output (host.printAll texts later).2 = output s ++ String.join texts := by
      rw [← silent]
      exact prints.printAll texts later
    have planless : ¬∃ fault later, (host.plan environment invocation).run s = (.error fault, later) :=
      fun ⟨fault, other, failed⟩ => by cases planned.symm.trans failed
    refine ⟨.inl rfl, iff_of_false nofun planless, nofun, ?_⟩
    intro file logged options loaded trace asked log built loads
    cases renders asked log built loads
    exact ⟨rfl, printed⟩
  | error fault =>
    refine ⟨.inr rfl, iff_of_true rfl ⟨fault, later, planned⟩, ?_, ?_⟩
    · exact fun _ => (prints.complain fault.line later).trans silent
    · intro file logged options loaded trace asked log built loads
      cases renders asked log built loads

/-- A chain of 65 exceptions, which is one too many, is not listed, but is rendered, and so is a chain with a name that
cannot be processed. -/
theorem nothing_printed_for_long_chain :
    let deep : TraceRecord := { exception := some <|
      (List.replicate 64 ()).foldr (fun _ inner => { type := "E", inner := some inner }) { type := "E" } }
    let marked : TraceRecord := { exception := some { type := "A", inner := some { type := "B\ue001" } } }
    let s : Surroundings := {
      tree := ⟨[("d", .file deep.toJson.write.toUTF8), ("m", .file marked.toJson.write.toUTF8)]⟩, today := "" }
    let run (command : Command) := Surroundings.host.run (fun _ => none) ⟨command, []⟩ s
    ((run (.frames "d")).1 = 1 ∧ (run (.frames "d")).2.output = "") ∧ (run (.render "d")).1 = 0 ∧
      (run (.render "m")).1 = 0 ∧ (run (.render "m")).2.output = "A\nFailed to post-process stack trace:\n" ++
        " ---> B\ue001 (rethrown as A)\n ===> captured at:\n=== Post-processing error: ===\n" ++
        "Failed to post-process line 1: return type region closed without being opened\n" := by
  intro deep marked s run
  let chain : Exception :=
    (List.replicate 64 ()).foldr (fun _ inner => ⟨"E", "", [], some inner⟩) ⟨"E", "", [], none⟩
  let pair : Exception := ⟨"A", "", [], some ⟨"B\ue001", "", [], none⟩⟩
  have loaded {file : String} {trace : TraceRecord} {exception : Exception}
      (read : s.tree.read s.here file = .ok trace.toJson.write.toUTF8) (shallow : trace.toJson.depth < 128)
      (linked : trace.load = .ok ⟨⟨[]⟩, some exception, []⟩) :
      (Surroundings.host.loadTrace file).run s = (.ok ⟨⟨[]⟩, some exception, []⟩, s) := by
    rw [Surroundings.loadTrace_run, Surroundings.traceIn_of_record read (TraceRecord.ofText_write shallow) linked]
  have splits : "d".splitOn "/" = ["d"] ∧ "m".splitOn "/" = ["m"] :=
    ⟨Surroundings.splitOn_of_letter (by decide) (by decide) (by decide),
      Surroundings.splitOn_of_letter (by decide) (by decide) (by decide)⟩
  have deepLoaded : (Surroundings.host.loadTrace "d").run s = (.ok ⟨⟨[]⟩, some chain, []⟩, s) := by
    refine @loaded "d" deep chain ?_ (by decide +kernel) rfl
    rw [FileTree.read, FileTree.find, splits.1]
    rfl
  have markedLoaded : (Surroundings.host.loadTrace "m").run s = (.ok ⟨⟨[]⟩, some pair, []⟩, s) := by
    refine @loaded "m" marked pair ?_ (by decide +kernel) rfl
    rw [FileTree.read, FileTree.find, splits.2]
    rfl
  have built : Options.build (fun _ => none) (.ofFlags []) = .ok {} := by rfl
  have silent := fun command => nothing_printed_on_failure Surroundings.host_printsTo (fun _ => none) ⟨command, []⟩ s
  have failed : (run (.frames "d")).1 = 1 := by
    have planned : (Surroundings.host.plan (fun _ => none) ⟨.frames "d", []⟩).run s =
        (.error (.failure (.longChain "E" 64)), s) := by
      rw [Host.plan_of_build rfl built, Host.texts, run_bind_of_ok deepLoaded]
      rfl
    exact congrArg Prod.fst (Host.run_of_plan planned)
  refine ⟨⟨failed, (silent (.frames "d")).2.2.1 failed⟩, ?_⟩
  have deepRendered := (silent (.render "d")).2.2.2 "d" s {} s _ rfl rfl built deepLoaded
  have markedRendered := (silent (.render "m")).2.2.2 "m" s {} s _ rfl rfl built markedLoaded
  refine ⟨deepRendered.1, markedRendered.1, markedRendered.2.trans ?_⟩
  decide +kernel

end Backtrace
