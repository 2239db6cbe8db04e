import Backtrace.Proofs.Method.Json
import Backtrace.Trace.Json

/-!
Recorded traces are decoded from all that tells them, and so are frames and exceptions. With what is known of types,
parameters and methods this holds for all records, and for the texts that they are written as.
-/
namespace Backtrace
open Json

/-! ### Frames -/

def FrameRecord.members (frame : FrameRecord) : List (String × Node) := [
  ("method", nullOr MethodId.toJson frame.method), ("file", nullOr .text frame.file),
  ("line", nullOr .natural (frame.line.map UInt32.toNat)), ("text", nullOr .text frame.text),
  ("symbol", nullOr .text frame.symbol), ("address", nullOr .natural (frame.address.map UInt64.toNat))]

theorem FrameRecord.toJson_eq (frame : FrameRecord) : frame.toJson = .record frame.members := by
  simp only [toJson, members, nullOr, Option.map_map]
  rfl

def FrameDraft.told (frame : FrameRecord) (given : List String) : FrameDraft where
  method := slot given "method" frame.method
  file := slot given "file" frame.file
  line := slot given "line" (frame.line.map UInt32.toNat)
  text := slot given "text" frame.text
  symbol := slot given "symbol" frame.symbol
  address := slot given "address" (frame.address.map UInt64.toNat)

theorem FrameDraft.finish_told {frame : FrameRecord} {given : List String} (enough : Enough frame.members given) :
    (told frame given).finish = frame := by
  have method : "method" ∈ given ∨ frame.method = none :=
    enough.option MethodId.toJson (by simp [FrameRecord.members, nullOr]) (by decide) MethodId.toJson_ne_null
  have file : "file" ∈ given ∨ frame.file = none :=
    enough.option Node.text (by simp [FrameRecord.members, nullOr]) (by decide) Node.text_ne_null
  have line : "line" ∈ given ∨ frame.line.map UInt32.toNat = none :=
    enough.option Node.natural (by simp [FrameRecord.members, nullOr]) (by decide) Node.natural_ne_null
  have text : "text" ∈ given ∨ frame.text = none :=
    enough.option Node.text (by simp [FrameRecord.members, nullOr]) (by decide) Node.text_ne_null
  have symbol : "symbol" ∈ given ∨ frame.symbol = none :=
    enough.option Node.text (by simp [FrameRecord.members, nullOr]) (by decide) Node.text_ne_null
  have address : "address" ∈ given ∨ frame.address.map UInt64.toNat = none :=
    enough.option Node.natural (by simp [FrameRecord.members, nullOr]) (by decide) Node.natural_ne_null
  simp [finish, told, join_slot method, join_slot file, join_slot line, join_slot text, join_slot symbol,
    join_slot address, Function.comp_def]

theorem frameFields_takes (frame : FrameRecord) (depth : Nat) :
    Takes (frameFields depth) (FrameDraft.told frame) frame.members depth where
  blank := by simp [frameFields, FrameDraft.told]
  known given key original value member retold shallow fresh := by
    have text (content : Option String) (retold : Retold (nullOr .text content) value) :
        value.asOption Node.asText = .ok content :=
      recovers_option Node.text Node.text_ne_null (fun text _ => recovers_text text) value retold shallow
    simp only [FrameRecord.members, List.mem_cons, Prod.mk.injEq, List.not_mem_nil, or_false] at member
    rcases member with ⟨rfl, rfl⟩ | ⟨rfl, rfl⟩ | ⟨rfl, rfl⟩ | ⟨rfl, rfl⟩ | ⟨rfl, rfl⟩ | ⟨rfl, rfl⟩
    · have method := recovers_option MethodId.toJson MethodId.toJson_ne_null (fun id _ => id.recovers depth)
        value retold shallow
      simp [frameFields, FrameDraft.told, once_slot fresh method]
    · simp [frameFields, FrameDraft.told, once_slot fresh (text _ retold)]
    · have line : value.asOption (Node.asNatural UInt32.size) = .ok (frame.line.map UInt32.toNat) := by
        refine recovers_option Node.natural Node.natural_ne_null (fun number found => recovers_natural ?_)
          value retold shallow
        obtain ⟨line, -, rfl⟩ := Option.map_eq_some_iff.1 found
        exact line.toNat_lt
      simp [frameFields, FrameDraft.told, once_slot fresh line]
    · simp [frameFields, FrameDraft.told, once_slot fresh (text _ retold)]
    · simp [frameFields, FrameDraft.told, once_slot fresh (text _ retold)]
    · have address : value.asOption (Node.asNatural UInt64.size) = .ok (frame.address.map UInt64.toNat) := by
        refine recovers_option Node.natural Node.natural_ne_null (fun number found => recovers_natural ?_)
          value retold shallow
        obtain ⟨address, -, rfl⟩ := Option.map_eq_some_iff.1 found
        exact address.toNat_lt
      simp [frameFields, FrameDraft.told, once_slot fresh address]
  unknown given key value other passed := by
    simp only [FrameRecord.members, List.map_cons, List.map_nil, List.mem_cons, List.not_mem_nil, or_false, not_or]
      at other
    obtain ⟨method, file, line, text, symbol, address⟩ := other
    simp [frameFields, FrameDraft.told, Node.pass, passed, Ne.symm method, Ne.symm file, Ne.symm line, Ne.symm text,
      Ne.symm symbol, Ne.symm address]

namespace FrameRecord

theorem toJson_whole (frame : FrameRecord) : frame.toJson.Whole := by
  have line : (nullOr (fun line : UInt32 => Node.natural line.toNat) frame.line).Whole :=
    nullOr_whole fun line => .natural (Nat.lt_trans line.toNat_lt (by decide))
  have address : (nullOr (fun address : UInt64 => Node.natural address.toNat) frame.address).Whole :=
    nullOr_whole fun address => .natural address.toNat_lt
  exact .record (by simp [line, address, nullOr_whole Node.Whole.text, nullOr_whole MethodId.toJson_whole])

theorem recovers (frame : FrameRecord) (depth : Nat) : Recovers depth frame.toJson (ofJson depth) frame := by
  rw [toJson_eq]
  exact Takes.recordAt (frameFields_takes frame) (by simp [members])
    (fun _ enough => by rw [FrameDraft.finish_told enough]) depth

end FrameRecord

/-! ### Exceptions -/

namespace ExceptionRecord

def members (exception : ExceptionRecord) : List (String × Node) := [
  ("type", .text exception.type), ("message", .text exception.message),
  ("frames", .list (exception.frames.map FrameRecord.toJson)), ("inner", nullOr toJson exception.inner)]

theorem toJson_eq (exception : ExceptionRecord) : exception.toJson = .record exception.members := by
  obtain ⟨type, message, frames, inner⟩ := exception
  cases inner <;> rw [toJson] <;> rfl

theorem toJson_ne_null (exception : ExceptionRecord) : exception.toJson ≠ .null := by
  rw [toJson_eq]
  exact Node.record_ne_null _

theorem toJson_whole : (exception : ExceptionRecord) → exception.toJson.Whole
  | ⟨type, message, frames, inner⟩ => by
    have wrapped : (nullOr toJson inner).Whole := by
      cases inner with
      | none => exact .null
      | some inner => exact toJson_whole inner
    rw [toJson_eq]
    exact .record (by simp [members, wrapped, Node.Whole.text, Node.whole_list_map FrameRecord.toJson_whole])

end ExceptionRecord

def ExceptionDraft.told (exception : ExceptionRecord) (given : List String) : ExceptionDraft where
  type := slot given "type" exception.type
  message := slot given "message" exception.message
  frames := slot given "frames" exception.frames
  inner := slot given "inner" exception.inner

theorem ExceptionDraft.finish_told {exception : ExceptionRecord} {given : List String}
    (enough : Enough exception.members given) : (told exception given).finish = .ok exception := by
  have written : ("type", Node.text exception.type) ∈ exception.members := by simp [ExceptionRecord.members]
  have type : "type" ∈ given := enough.mem_given written (by decide) (Node.text_ne_null _)
  have message : "message" ∈ given ∨ exception.message = "" := by
    have written : ("message", Node.text exception.message) ∈ exception.members := by simp [ExceptionRecord.members]
    have initial : "message" ∈ given ∨ Node.text exception.message = .text "" :=
      enough.default written (Node.text_ne_null _) (by simp [defaults])
    simpa [Node.text] using initial
  have frames : "frames" ∈ given ∨ exception.frames = [] :=
    enough.list FrameRecord.toJson (by simp [ExceptionRecord.members]) (by simp [defaults])
  have inner : "inner" ∈ given ∨ exception.inner = none :=
    enough.option ExceptionRecord.toJson (by simp [ExceptionRecord.members, nullOr]) (by decide)
      ExceptionRecord.toJson_ne_null
  simp only [finish, told, required_slot type, getD_slot message, getD_slot frames, join_slot inner]
  obtain ⟨_, _, _, _⟩ := exception
  rfl

theorem exceptionFields_takes {depth : Nat} {decode : Node → Decoded ExceptionRecord}
    (wrapped : ∀ exception : ExceptionRecord, Recovers depth exception.toJson decode exception)
    (exception : ExceptionRecord) :
    Takes (exceptionFields depth decode) (ExceptionDraft.told exception) exception.members depth where
  blank := by simp [exceptionFields, ExceptionDraft.told]
  known given key original value member retold shallow fresh := by
    simp only [ExceptionRecord.members, List.mem_cons, Prod.mk.injEq, List.not_mem_nil, or_false] at member
    rcases member with ⟨rfl, rfl⟩ | ⟨rfl, rfl⟩ | ⟨rfl, rfl⟩ | ⟨rfl, rfl⟩
    · simp [exceptionFields, ExceptionDraft.told, once_slot fresh (recovers_text _ value retold shallow)]
    · simp [exceptionFields, ExceptionDraft.told, once_slot fresh (recovers_text _ value retold shallow)]
    · have frames : value.asListAt depth FrameRecord.ofJson = .ok exception.frames :=
        recovers_listAt (fun below frame _ => frame.recovers below) value retold shallow
      simp [exceptionFields, ExceptionDraft.told, once_slot fresh frames]
    · have inner := recovers_option ExceptionRecord.toJson ExceptionRecord.toJson_ne_null
        (fun exception _ => wrapped exception) value retold shallow
      simp [exceptionFields, ExceptionDraft.told, once_slot fresh inner]
  unknown given key value other passed := by
    simp only [ExceptionRecord.members, List.map_cons, List.map_nil, List.mem_cons, List.not_mem_nil, or_false, not_or]
      at other
    obtain ⟨type, message, frames, inner⟩ := other
    simp [exceptionFields, ExceptionDraft.told, Node.pass, passed, Ne.symm type, Ne.symm message, Ne.symm frames,
      Ne.symm inner]

theorem ExceptionRecord.recovers (exception : ExceptionRecord) (depth : Nat) :
    Recovers depth exception.toJson (ofJson depth) exception := by
  induction depth generalizing exception with
  | zero =>
    rw [toJson_eq]
    exact fun _ retold shallow => absurd shallow (Nat.not_le_of_lt retold.depth_pos_of_record)
  | succ depth ih =>
    rw [toJson_eq]
    exact (exceptionFields_takes ih exception).decode (by simp [members])
      (fun _ enough => ExceptionDraft.finish_told enough) .direct

/-! ### Traces -/

namespace TraceRecord

def members (trace : TraceRecord) : List (String × Node) := [
  ("methods", .list (trace.methods.map MethodRecord.toJson)),
  ("exception", nullOr ExceptionRecord.toJson trace.exception),
  ("call_site", .list (trace.callSite.map FrameRecord.toJson))]

theorem toJson_whole (trace : TraceRecord) : trace.toJson.Whole :=
  .record (by simp [Node.whole_list_map MethodRecord.toJson_whole, Node.whole_list_map FrameRecord.toJson_whole,
    nullOr_whole ExceptionRecord.toJson_whole])

end TraceRecord

def TraceDraft.told (trace : TraceRecord) (given : List String) : TraceDraft where
  methods := slot given "methods" trace.methods
  exception := slot given "exception" trace.exception
  callSite := slot given "call_site" trace.callSite

theorem TraceDraft.finish_told {trace : TraceRecord} {given : List String} (enough : Enough trace.members given) :
    (told trace given).finish = trace := by
  have methods : "methods" ∈ given ∨ trace.methods = [] :=
    enough.list MethodRecord.toJson (by simp [TraceRecord.members]) (by simp [defaults])
  have exception : "exception" ∈ given ∨ trace.exception = none :=
    enough.option ExceptionRecord.toJson (by simp [TraceRecord.members, nullOr]) (by decide)
      ExceptionRecord.toJson_ne_null
  have callSite : "call_site" ∈ given ∨ trace.callSite = [] :=
    enough.list FrameRecord.toJson (by simp [TraceRecord.members]) (by simp [defaults])
  simp only [finish, told, getD_slot methods, join_slot exception, getD_slot callSite]

theorem traceFields_takes (trace : TraceRecord) (depth : Nat) :
    Takes (traceFields depth) (TraceDraft.told trace) trace.members depth where
  blank := by simp [traceFields, TraceDraft.told]
  known given key original value member retold shallow fresh := by
    simp only [TraceRecord.members, List.mem_cons, Prod.mk.injEq, List.not_mem_nil, or_false] at member
    rcases member with ⟨rfl, rfl⟩ | ⟨rfl, rfl⟩ | ⟨rfl, rfl⟩
    · have methods : value.asListAt depth MethodRecord.ofJson = .ok trace.methods :=
        recovers_listAt (fun below method _ => method.recovers below) value retold shallow
      simp [traceFields, TraceDraft.told, once_slot fresh methods]
    · have exception := recovers_option ExceptionRecord.toJson ExceptionRecord.toJson_ne_null
        (fun exception _ => exception.recovers depth) value retold shallow
      simp [traceFields, TraceDraft.told, once_slot fresh exception]
    · have callSite : value.asListAt depth FrameRecord.ofJson = .ok trace.callSite :=
        recovers_listAt (fun below frame _ => frame.recovers below) value retold shallow
      simp [traceFields, TraceDraft.told, once_slot fresh callSite]
  unknown given key value other passed := by
    simp only [TraceRecord.members, List.map_cons, List.map_nil, List.mem_cons, List.not_mem_nil, or_false, not_or]
      at other
    obtain ⟨methods, exception, callSite⟩ := other
    simp [traceFields, TraceDraft.told, Node.pass, passed, Ne.symm methods, Ne.symm exception, Ne.symm callSite]

theorem TraceRecord.recovers (trace : TraceRecord) (depth : Nat) : Recovers depth trace.toJson (ofJson depth) trace :=
  Takes.recordAt (traceFields_takes trace) (by simp [members])
    (fun _ enough => by rw [TraceDraft.finish_told enough]) depth

/-! ### Texts of records -/

/-- Records are read back from all that tells them, if fewer than 128 containers stand inside each other: from the
text that it is written as, and from every other text of the same tree. -/
def ReadBack {α : Type} (write : α → Node) (decode : Node → Decoded α) : Prop :=
  ∀ (value : α) (told : Node), Retold (write value) told → told.depth < 128 →
    Tree.ofText told.write = ⟨told, true⟩ ∧ ∀ text, Tree.ofText text = ⟨told, true⟩ → ofText decode text = .ok value

theorem readBack_of_recovers {α : Type} {write : α → Node} {decode : Node → Decoded α}
    (whole : ∀ value, (write value).Whole) (recovers : ∀ value, Recovers maxDepth (write value) decode value) :
    ReadBack write decode := by
  intro value told retold shallow
  refine ⟨Tree.ofText_write (retold.whole (whole value)), fun text read => ?_⟩
  have decoded : decode told = .ok value := recovers value told retold (Nat.le_of_lt_succ shallow)
  rw [ofText, read]
  simp only [decoded]
  rfl

/-- A trace is read back from what it is written as, if it is not too deep. -/
theorem TraceRecord.ofText_write {trace : TraceRecord} (shallow : trace.toJson.depth < 128) :
    ofText trace.toJson.write = .ok trace := by
  obtain ⟨written, decoded⟩ := readBack_of_recovers TraceRecord.toJson_whole (fun trace => trace.recovers maxDepth)
    trace trace.toJson (.refl trace.toJson_whole) shallow
  exact decoded _ written

/-- Types, parameters, methods, frames, exceptions and traces are read back from what they are written as, and just so
when members are permuted, spare ones are dropped and unknown ones are added, wherever that is. -/
theorem records_read_back :
    ReadBack TypeRef.toJson (TypeRef.ofJson maxDepth .direct) ∧ ReadBack Parameter.toJson (Parameter.ofJson maxDepth) ∧
      ReadBack MethodRecord.toJson (MethodRecord.ofJson maxDepth) ∧
      ReadBack FrameRecord.toJson (FrameRecord.ofJson maxDepth) ∧
      ReadBack ExceptionRecord.toJson (ExceptionRecord.ofJson maxDepth) ∧
      ReadBack TraceRecord.toJson (TraceRecord.ofJson maxDepth) :=
  ⟨readBack_of_recovers TypeRef.toJson_whole (TypeRef.recovers maxDepth .direct),
    readBack_of_recovers Parameter.toJson_whole fun parameter => parameter.recovers maxDepth,
    readBack_of_recovers MethodRecord.toJson_whole fun method => method.recovers maxDepth,
    readBack_of_recovers FrameRecord.toJson_whole fun frame => frame.recovers maxDepth,
    readBack_of_recovers ExceptionRecord.toJson_whole fun exception => exception.recovers maxDepth,
    readBack_of_recovers TraceRecord.toJson_whole fun trace => trace.recovers maxDepth⟩

/-- An array type whose shape has its kind behind other members, one of them unknown, and whose element has only a
name. -/
theorem array_type_read_back :
    ofText (TypeRef.ofJson maxDepth .direct)
        ("\x7b\"shape\":\x7b\"rank\":1,\"note\":[\"x\"],\"kind\":\"array\",\"element\":\x7b\"name\":\"T\"\x7d\x7d," ++
          "\"name\":\"\"\x7d") =
      .ok (.arrayOf (.named "T") 1) := by
  let element : Node := .record [("name", .text "T")]
  let shape : Node :=
    .record [("rank", .natural 1), ("note", .list [.text "x"]), ("kind", .text "array"), ("element", element)]
  let told : Node := .record [("shape", shape), ("name", .text "")]
  have inner : Retold (TypeRef.named "T").toJson element := by
    rw [TypeRef.toJson_eq]
    refine @Retold.record _ _ [("namespace", .null), ("generic_arguments", .list []), ("enclosing", .null),
      ("shape", .record [("kind", .text "named")])] [] [("name", .text "T", .text "T")] ?_ ?_ ?_ (.swap _ _ _) (.refl _)
    · exact List.forall_mem_singleton.2 (.text "T")
    · simp [Spare, defaults]
    · exact List.forall_mem_nil _
  have around : Retold (Shape.array (.named "T") 1).toJson shape := by
    refine @Retold.record _ _ [] [("note", .list [.text "x"])] [("kind", .text "array", .text "array"),
      ("element", (TypeRef.named "T").toJson, element), ("rank", .natural 1, .natural 1)] ?_ ?_ ?_ (.refl _) ?_
    · simp [inner, Retold.text, Retold.natural]
    · exact List.forall_mem_nil _
    · simp [Node.Whole.text, Node.whole_list_iff]
    · exact @List.perm_append_comm _ [("rank", _), ("note", _)] [("kind", _), ("element", _)]
  have retold : Retold (TypeRef.arrayOf (.named "T") 1).toJson told := by
    rw [TypeRef.toJson_eq]
    refine @Retold.record _ _ [("namespace", .null), ("generic_arguments", .list []), ("enclosing", .null)] []
      [("name", .text "", .text ""), ("shape", (Shape.array (.named "T") 1).toJson, shape)] ?_ ?_ ?_ ?_ (.swap _ _ _)
    · simp [around, Retold.text]
    · simp [Spare, defaults]
    · exact List.forall_mem_nil _
    · refine .trans (.swap _ _ _) (.cons _ ?_)
      exact @List.perm_append_comm _ [("namespace", _), ("generic_arguments", _), ("enclosing", _)] [("shape", _)]
  obtain ⟨written, decoded⟩ := records_read_back.1 (.arrayOf (.named "T") 1) told retold (by decide)
  refine decoded _ ?_
  rw [← written]
  exact congrArg Tree.ofText (by decide)

end Backtrace
