import Backtrace.Command.Run
import Backtrace.Command.Surroundings

/-!
What a command prints. It prints when all the rest is done; a trace that can be loaded is loaded without a change to
the surroundings, and rows are printed one to a line.
-/
namespace Backtrace

namespace Host

theorem textOf_toUTF8 (text : String) : textOf text.toUTF8 = .ok text := by
  simp only [textOf, String.fromUTF8?, String.toUTF8_eq_toByteArray, dif_pos text.isValidUTF8]
  rfl

section Texts

variable {m : Type → Type} [Monad m]

def printAll (host : Host m) (texts : List String) : m Unit := texts.forM host.print

def rendered (options : Options) (trace : LoadedTrace) : List String :=
  let resolver := Resolver.ofOptions options
  match trace.exception with
  | some exception =>
    let (formatted, _) := options.formatException Exception.view [] exception (some trace.callSite) resolver
    [formatted.message ++ "\n", block formatted.stackTrace]
  | none => [block (options.formatTrace [] trace.callSite resolver).1]

/-- All that a command does before it prints, and the texts that it has to print then. -/
def texts (host : Host m) (options : Options) : Command → ExceptT RunFault m (List String)
  | .render file => do return rendered options (← host.loadTrace file)
  | .frames file => do
    let rows ← demand .failure (rows options (← host.loadTrace file))
    return rows.map fun row => row.text (Renderer.ofOptions options) ++ "\n"
  | .postprocess input => do
    let text ← readText (if input = "-" then host.readInput else host.readFile input)
    return [(Processor.ofOptions options).process text]

variable [LawfulMonad m] (host : Host m)

theorem printAll_singleton (text : String) : host.printAll [text] = host.print text := by
  simp [printAll]

theorem render_eq (options : Options) (trace : LoadedTrace) :
    host.render options trace = host.printAll (rendered options trace) := by
  rw [render, rendered]
  cases trace.exception with
  | none => exact (host.printAll_singleton _).symm
  | some exception => simp [printAll, printLine]

theorem printRows_eq (renderer : Renderer) (rows : List Row) :
    (rows.forM fun row => liftM (host.printLine (row.text renderer)) : ExceptT RunFault m Unit) =
      liftM (host.printAll (rows.map fun row => row.text renderer ++ "\n")) := by
  induction rows with
  | nil => exact (monadLift_pure ()).symm
  | cons row rows ih =>
    refine Eq.trans ?_ (monadLift_bind _ _).symm
    exact congrArg (liftM (host.printLine (row.text renderer)) >>= ·) (funext fun _ => ih)

/-- A command prints when it has done all the rest. -/
theorem perform_eq (options : Options) (command : Command) :
    host.perform options command = (do liftM (host.printAll (← host.texts options command))) := by
  cases command with
  | render file => simp [perform, texts, render_eq]
  | frames file => simp [perform, texts, printRows_eq]
  | postprocess input => simp [perform, texts, printAll_singleton]

end Texts

end Host

section Runs

variable {σ ε α β : Type} {action : ExceptT ε (StateM σ) α} {next : α → ExceptT ε (StateM σ) β} {s : σ}

theorem run_bind_of_ok {value : α} {after : σ} (done : action.run s = (.ok value, after)) :
    (action >>= next).run s = (next value).run after := by
  change (StateT.bind action.run (ExceptT.bindCont next)) s = _
  rw [StateT.bind, done]
  rfl

theorem run_bind_of_unchanged {value : Except ε α} {rest : α → Except ε β} (first : action.run s = (value, s))
    (second : ∀ found, (next found).run s = (rest found, s)) : (action >>= next).run s = (value >>= rest, s) := by
  cases value with
  | error fault =>
    change (StateT.bind action.run (ExceptT.bindCont next)) s = _
    rw [StateT.bind, first]
    rfl
  | ok found => exact (run_bind_of_ok first).trans (second found)

end Runs

namespace Surroundings

def printed (text : String) (s : Surroundings) : Surroundings := { s with output := s.output ++ text }

theorem printed_printed (first second : String) (s : Surroundings) :
    (s.printed first).printed second = s.printed (first ++ second) := by
  simp [printed, String.append_assoc]

def textIn (s : Surroundings) (file : String) : Except RunFault String := do
  (Host.textOf (← (s.tree.read s.here file).mapError .file)).mapError .file

def traceIn (s : Surroundings) (file : String) : Except RunFault LoadedTrace := do
  let record ← (TraceRecord.ofText (← s.textIn file)).mapError .json
  record.load.mapError .failure

theorem splitOn_of_letter {name : String} (filled : ¬String.Pos.Raw.atEnd name 0 = true)
    (other : ¬(String.Pos.Raw.get name 0 == String.Pos.Raw.get "/" 0) = true)
    (last : String.Pos.Raw.atEnd name (String.Pos.Raw.next name (String.Pos.Raw.unoffsetBy 0 0)) = true) :
    name.splitOn "/" =
      [String.Pos.Raw.extract name 0 (String.Pos.Raw.next name (String.Pos.Raw.unoffsetBy 0 0))] := by
  rw [String.splitOn, if_neg (by decide), String.splitOnAux, if_neg filled, if_neg other, String.splitOnAux,
    if_pos last]
  rfl

theorem traceIn_of_record {s : Surroundings} {file text : String} {record : TraceRecord} {loaded : LoadedTrace}
    (read : s.tree.read s.here file = .ok text.toUTF8) (recorded : TraceRecord.ofText text = .ok record)
    (linked : record.load = .ok loaded) : s.traceIn file = .ok loaded := by
  have held : s.textIn file = .ok text := by
    rw [textIn, read]
    exact congrArg (Except.mapError RunFault.file) (Host.textOf_toUTF8 text)
  rw [traceIn, held]
  change ((TraceRecord.ofText text).mapError RunFault.json >>= fun record => record.load.mapError .failure) = _
  rw [recorded]
  change record.load.mapError RunFault.failure = _
  rw [linked]
  rfl

theorem loadTrace_run (s : Surroundings) (file : String) : (host.loadTrace file).run s = (s.traceIn file, s) := by
  have readText : (Host.readText (host.readFile file)).run s = (s.textIn file, s) :=
    run_bind_of_unchanged rfl fun _ => rfl
  exact run_bind_of_unchanged readText fun _ => run_bind_of_unchanged rfl fun _ => rfl

theorem printAll_run (texts : List String) (s : Surroundings) :
    host.printAll texts s = ((), s.printed (String.join texts)) := by
  induction texts generalizing s with
  | nil => simp [printed]; rfl
  | cons text texts ih =>
    refine (ih (s.printed text)).trans ?_
    rw [printed_printed, String.join_cons]

/-- What the `frames` command prints, where a trace has rows. -/
theorem perform_frames {options : Options} {file : String} {loaded : LoadedTrace} {rows : List Row} {s : Surroundings}
    (loads : s.traceIn file = .ok loaded) (shown : Host.rows options loaded = .ok rows) :
    (host.perform options (.frames file)).run s =
      (.ok (), s.printed (String.join (rows.map fun row => row.text (Renderer.ofOptions options) ++ "\n"))) := by
  have loading : (host.loadTrace file).run s = (.ok loaded, s) := by rw [loadTrace_run, loads]
  have listing :
      (Host.demand .failure (Host.rows options loaded) : ExceptT RunFault (StateM Surroundings) (List Row)).run s =
        (.ok rows, s) := by
    rw [shown]
    rfl
  have found : (host.texts options (.frames file)).run s =
      (.ok (rows.map fun row => row.text (Renderer.ofOptions options) ++ "\n"), s) := by
    rw [Host.texts, run_bind_of_ok loading, run_bind_of_ok listing]
    rfl
  rw [Host.perform_eq, run_bind_of_ok found]
  change (Except.ok (host.printAll _ s).1, (host.printAll _ s).2) = _
  rw [printAll_run]

end Surroundings

end Backtrace
