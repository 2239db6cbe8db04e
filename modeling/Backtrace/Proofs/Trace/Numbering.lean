import Mathlib.Algebra.Ring.Nat
import Mathlib.Data.List.Basic
import Backtrace.Proofs.Command.Printing
import Backtrace.Proofs.Json.Written

/-!
The numbers of frames. A trace finds its frames through an index table, and its listing counts them as it goes
through the sections; both number the frames as they stand in the sections put together.
-/
namespace Backtrace

namespace ExceptionTrace

variable {trace : ExceptionTrace}

theorem frameAt?_of_mem {part : TraceSection} {number : Nat} (member : (part, number) ∈ trace.sections.zipIdx)
    (place : Nat) : trace.frameAt? (number, place) = part.document.frames[place]? := by
  rw [frameAt?, List.mk_mem_zipIdx_iff_getElem?.1 member, Option.bind_some]

theorem map_getElem?_range (frames : List ResolvedFrame) :
    (List.range frames.length).map (frames[·]?) = frames.map some := by
  refine List.ext_getElem (by simp) fun index _ inside => ?_
  rw [List.length_map] at inside
  simp [inside]

/-- What stands at the places of a trace, in order, are its frames. -/
theorem places_frames (trace : ExceptionTrace) : trace.places.map trace.frameAt? = trace.frames.map some := by
  have shown (entry : TraceSection × Nat) (member : entry ∈ trace.sections.zipIdx) :
      ((List.range entry.1.document.count).map (entry.2, ·)).map trace.frameAt? =
        entry.1.document.frames.map some := by
    rw [List.map_map, ← map_getElem?_range]
    exact List.map_congr_left fun place _ => frameAt?_of_mem member place
  have sections : trace.sections.zipIdx.map Prod.fst = trace.sections := List.zipIdx_map_fst 0 trace.sections
  calc trace.places.map trace.frameAt?
    _ = trace.sections.zipIdx.flatMap fun entry => entry.1.document.frames.map some := by
      rw [places, List.map_flatMap]
      exact List.flatMap_congr shown
    _ = (trace.sections.zipIdx.map Prod.fst).flatMap fun part => part.document.frames.map some :=
      by rw [List.flatMap_map]
    _ = trace.frames.map some := by rw [sections, frames, List.map_flatMap]

theorem frameCount_eq_length (trace : ExceptionTrace) : trace.frameCount = trace.frames.length := by
  rw [frameCount, ← List.length_map trace.frameAt?, places_frames, List.length_map]

theorem frameCount_eq (trace : ExceptionTrace) : trace.frameCount = (trace.sections.map (·.document.count)).sum := by
  rw [frameCount_eq_length, frames, List.length_flatMap]
  rfl

theorem frame?_eq (trace : ExceptionTrace) (index : Nat) : trace.frame? index = trace.frames[index]? := by
  have shown : (trace.places.map trace.frameAt?)[index]? = trace.frames[index]?.map some := by
    rw [places_frames, List.getElem?_map]
  rw [List.getElem?_map] at shown
  rw [frame?]
  cases placed : trace.places[index]? with
  | none => cases found : trace.frames[index]? <;> simp_all
  | some place => cases found : trace.frames[index]? <;> simp_all

end ExceptionTrace

def Row.isFrame : Row → Bool
  | .frame _ _ => true
  | .title _ => false

theorem frameRows_filter (next : Nat) (frames : List ResolvedFrame) :
    (frameRows next frames).filter Row.isFrame =
      (frames.zipIdx next).map fun (shown, number) => .frame number shown := by
  induction frames generalizing next with
  | nil => rfl
  | cons shown frames ih => rw [frameRows, List.filter_cons_of_pos rfl, ih]; rfl

/-- The rows of frames are numbered through the sections, whatever banners stand between them. -/
theorem sectionRows_filter (next : Nat) (parts : List TraceSection) :
    (sectionRows next parts).filter Row.isFrame =
      ((parts.flatMap (·.document.frames)).zipIdx next).map fun (shown, number) => .frame number shown := by
  induction parts generalizing next with
  | nil => rfl
  | cons part parts ih =>
    rw [sectionRows, List.filter_append, List.filter_append, ih, frameRows_filter, List.flatMap_cons,
      List.zipIdx_append, List.map_append]
    cases part.banner <;> rfl

namespace ExceptionTrace

theorem rows_filter_getElem? (trace : ExceptionTrace) (index : Nat) :
    (trace.rows.filter Row.isFrame)[index]? = (trace.frame? index).map (Row.frame index) := by
  rw [rows, List.filter_cons_of_neg (by simp [Row.isFrame]), sectionRows_filter, List.getElem?_map,
    List.getElem?_zipIdx, frame?_eq, frames, Option.map_map]
  simp [Function.comp_def]

end ExceptionTrace

/-- Numbers of frames. A trace has as many frames as its sections together, the frame with a number is the one that
stands there when the sections are put together, whichever of them are empty, and no frame has a greater number. The
listing of an exception that has a trace is printed by rows, and the row with a number shows the frame with that
number. -/
theorem frames_numbered (options : Options) :
    (∀ trace : ExceptionTrace,
      trace.frameCount = (trace.sections.map (·.document.count)).sum ∧
      (∀ index, trace.frame? index = (trace.sections.flatMap (·.document.frames))[index]?) ∧
      ∀ index, trace.frame? index = none ↔ trace.frameCount ≤ index) ∧
    ∀ (s : Surroundings) (file : String) (loaded : LoadedTrace) (exception : Exception) (trace : ExceptionTrace),
      s.traceIn file = .ok loaded → loaded.exception = some exception →
      (options.aggregate Exception.view [] exception (some loaded.callSite) (.ofOptions options)).1 = .ok trace →
      let renderer := Renderer.ofOptions options
      (Surroundings.host.perform options (.frames file)).run s =
        (.ok (), s.printed (String.join (trace.rows.map fun row => row.text renderer ++ "\n"))) ∧
      ∀ index, ((trace.rows.filter Row.isFrame).map (Row.text renderer))[index]? =
        (trace.frame? index).map fun shown => Row.column index ++ "  " ++ renderer.plain shown ++ shown.note := by
  refine ⟨fun trace => ⟨trace.frameCount_eq, trace.frame?_eq, fun index => ?_⟩,
    fun s file loaded exception trace loads present traced => ⟨?_, fun index => ?_⟩⟩
  · rw [ExceptionTrace.frame?_eq, List.getElem?_eq_none_iff, ExceptionTrace.frameCount_eq_length]
  · refine Surroundings.perform_frames loads ?_
    simp only [Host.rows, present, traced]
    rfl
  · rw [List.getElem?_map, ExceptionTrace.rows_filter_getElem?, Option.map_map]
    rfl

/-- A listing that counts past an exception without frames. -/
theorem frames_numbered_past_empty_section :
    let text := "\x7b\"exception\":\x7b\"type\":\"A\",\"frames\":[\x7b\"text\":\"at F()\"\x7d]," ++
      "\"inner\":\x7b\"type\":\"B\"\x7d\x7d,\"call_site\":[\x7b\"text\":\"at Main()\"\x7d]\x7d"
    let s : Surroundings := { tree := ⟨[("t", .file text.toUTF8)]⟩, today := "" }
    (Surroundings.host.perform {} (.frames "t")).run s =
      (.ok (), s.printed ("A\n   0  at F() [raw]\n ---> B (rethrown as A)\n" ++
        " ===> captured at:\n   1  at Main() [raw]\n")) := by
  intro text s
  let loaded : LoadedTrace :=
    ⟨⟨[]⟩, some ⟨"A", "", [.ofText "at F()"], some ⟨"B", "", [], none⟩⟩, [.ofText "at Main()"]⟩
  have path : "t".splitOn "/" = ["t"] := Surroundings.splitOn_of_letter (by decide) (by decide) (by decide)
  have reads : s.tree.read s.here "t" = .ok text.toUTF8 := by
    rw [FileTree.read, FileTree.find, path]
    rfl
  -- the file holds a value as it is written, which is read back
  let frames (text : String) : Json.Node := .list [.record [("text", .text text)]]
  let first : Json.Node :=
    .record [("type", .text "A"), ("frames", frames "at F()"), ("inner", .record [("type", .text "B")])]
  let node : Json.Node := .record [("exception", first), ("call_site", frames "at Main()")]
  have whole : node.Whole := by
    have framesWhole (text : String) : (frames text).Whole :=
      .list (by simpa using .record (by simp [Json.Node.Whole.text]))
    have secondWhole : (Json.Node.record [("type", .text "B")]).Whole := .record (by simp [Json.Node.Whole.text])
    have firstWhole : first.Whole := .record (by simp [Json.Node.Whole.text, framesWhole, secondWhole])
    exact .record (by simp [firstWhole, framesWhole])
  have written : node.write = text := by decide +kernel
  have recorded : TraceRecord.ofText text =
      .ok ⟨[], some ⟨"A", "", [{ text := some "at F()" }], some ⟨"B", "", [], none⟩⟩,
        [{ text := some "at Main()" }]⟩ := by
    rw [TraceRecord.ofText, Json.ofText, ← written, Json.Tree.ofText_write whole]
    rfl
  have loads : s.traceIn "t" = .ok loaded := Surroundings.traceIn_of_record reads recorded rfl
  refine ((frames_numbered {}).2 s "t" loaded _ _ loads rfl rfl).1.trans ?_
  exact congrArg (fun text => (Except.ok (), s.printed text)) (by decide +kernel)

end Backtrace
