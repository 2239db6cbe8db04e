import Backtrace.Proofs.Json.Told
import Backtrace.TypeRef.Json

/-!
Types are decoded from all that tells them. A type is told through types in its list of arguments, in the type around
it and in its shape; the depth that is left bounds them all.
-/
namespace Backtrace
open Json

def Shape.toJson : Shape TypeRef → Node
  | .named => .record [("kind", .text "named")]
  | .genericParameter => .record [("kind", .text "generic_parameter")]
  | .array element rank => .record [
    ("kind", .text "array"), ("element", element.toJson), ("rank", .natural rank.toNat)]
  | .pointer element => .record [("kind", .text "pointer"), ("element", element.toJson)]
  | .byRef element => .record [("kind", .text "by_ref"), ("element", element.toJson)]

namespace TypeRef

def members (type : TypeRef) : List (String × Node) := [
  ("namespace", (type.space.map Node.text).getD .null), ("name", .text type.name),
  ("generic_arguments", .list (type.arguments.map toJson)), ("enclosing", (type.enclosing.map toJson).getD .null),
  ("shape", type.shape.toJson)]

theorem listToJson_eq_map (types : List TypeRef) : listToJson types = types.map toJson := by
  induction types with
  | nil => rfl
  | cons type types ih => rw [listToJson, ih, List.map_cons]

theorem optionToJson_eq (type : Option TypeRef) : optionToJson type = (type.map toJson).getD .null := by
  cases type <;> rfl

theorem toJson_eq (type : TypeRef) : type.toJson = .record type.members := by
  obtain ⟨space, name, arguments, enclosing, shape⟩ := type
  rw [members, ← listToJson_eq_map, ← optionToJson_eq]
  cases shape <;> rw [toJson] <;> rfl

theorem toJson_ne_null (type : TypeRef) : type.toJson ≠ .null := by
  rw [toJson_eq]
  exact Node.record_ne_null _

mutual
theorem toJson_whole : (type : TypeRef) → type.toJson.Whole
  | ⟨space, name, arguments, enclosing, shape⟩ => by
    have spaceWhole : ((space.map Node.text).getD .null).Whole := by
      cases space with
      | none => exact .null
      | some text => exact .text text
    have shapeWhole : shape.toJson.Whole := by
      cases shape with
      | named | genericParameter => exact .record (by simp [Node.Whole.text])
      | array element rank =>
        have small : rank.toNat < UInt64.size := Nat.lt_trans rank.toNat_lt (by decide)
        exact .record (by simp [Node.Whole.text, Node.Whole.natural small, toJson_whole element])
      | pointer element | byRef element => exact .record (by simp [Node.Whole.text, toJson_whole element])
    rw [toJson_eq, members]
    refine .record ?_
    rw [← listToJson_eq_map, ← optionToJson_eq]
    simp [spaceWhole, shapeWhole, Node.Whole.text, optionToJson_whole enclosing,
      Node.Whole.list (listToJson_whole arguments)]

theorem listToJson_whole : (types : List TypeRef) → ∀ item ∈ listToJson types, item.Whole
  | [] => by simp [listToJson]
  | type :: types => by
    rw [listToJson]
    exact List.forall_mem_cons.2 ⟨toJson_whole type, listToJson_whole types⟩

theorem optionToJson_whole : (type : Option TypeRef) → (optionToJson type).Whole
  | none => .null
  | some type => toJson_whole type
end

end TypeRef

/-! ### Shapes -/

def ElementDraft.told (element : TypeRef) (rank : UInt8) (given : List String) : ElementDraft :=
  ⟨slot given "element" element, slot given "rank" rank.toNat⟩

theorem arrayFields_takes {decode : Node → Decoded TypeRef} {depth : Nat} {element : TypeRef} (rank : UInt8)
    (typed : Recovers depth element.toJson decode element) :
    Takes (arrayFields decode) (ElementDraft.told element rank)
      [("element", element.toJson), ("rank", .natural rank.toNat)] depth where
  blank := by simp [arrayFields, ElementDraft.told]
  known given key original value member retold shallow fresh := by
    simp only [List.mem_cons, Prod.mk.injEq, List.not_mem_nil, or_false] at member
    rcases member with ⟨rfl, rfl⟩ | ⟨rfl, rfl⟩
    · simp [arrayFields, ElementDraft.told, once_slot fresh (typed value retold shallow)]
    · simp [arrayFields, ElementDraft.told, once_slot fresh (recovers_natural rank.toNat_lt value retold shallow)]
  unknown given key value other passed := by
    simp only [List.map_cons, List.map_nil, List.mem_cons, List.not_mem_nil, or_false, not_or] at other
    obtain ⟨element, rank⟩ := other
    simp [arrayFields, ElementDraft.told, Node.pass, passed, Ne.symm element, Ne.symm rank]

theorem elementFields_takes {decode : Node → Decoded TypeRef} {depth : Nat} {element : TypeRef}
    (typed : Recovers depth element.toJson decode element) :
    Takes (elementFields decode) (slot · "element" element) [("element", element.toJson)] depth where
  blank := by simp [elementFields]
  known given key original value member retold shallow fresh := by
    obtain ⟨rfl, rfl⟩ := Prod.mk.inj (List.mem_singleton.1 member)
    exact once_slot fresh (typed value retold shallow)
  unknown given key value other passed := by
    have other : key ≠ "element" := fun same => other (same ▸ List.mem_cons_self)
    simp [elementFields, Node.pass, passed, Ne.symm other]

namespace Shape

variable {depth : Nat} {source : Source} {decode : Node → Decoded TypeRef}

theorem toJson_eq (shape : Shape TypeRef) : ∃ members, shape.toJson = .record members := by
  cases shape <;> exact ⟨_, rfl⟩

theorem toJson_ne_null (shape : Shape TypeRef) : shape.toJson ≠ .null := by
  obtain ⟨members, same⟩ := shape.toJson_eq
  rw [same]
  exact Node.record_ne_null members

theorem eq_named {shape : Shape TypeRef} (initial : shape.toJson = .record [("kind", .text "named")]) :
    shape = .named := by
  cases shape with
  | named => rfl
  | genericParameter | array | pointer | byRef => simp [toJson, Node.record, Node.text] at initial

theorem mem_element {element : TypeRef} {written : List (String × Node)} {given : List String}
    (enough : Enough written given) (inside : ("element", element.toJson) ∈ written) : "element" ∈ given :=
  enough.mem_given inside (by decide) element.toJson_ne_null

theorem element_of_parts {element : TypeRef} (typed : Recovers depth element.toJson decode element)
    {told : List (String × Node)} (tells : Tells [("element", element.toJson)] told)
    (shallow : ∀ member ∈ told, member.2.depth ≤ depth) :
    ∃ draft, (Parts.named (keyed told)).decode (elementFields decode) = .ok draft ∧ required draft = .ok element := by
  obtain ⟨given, taken, enough⟩ := (elementFields_takes typed).parts tells shallow
  exact ⟨_, taken, required_slot (mem_element enough List.mem_cons_self)⟩

theorem array_of_parts {element : TypeRef} (rank : UInt8) (typed : Recovers depth element.toJson decode element)
    {told : List (String × Node)} (tells : Tells [("element", element.toJson), ("rank", .natural rank.toNat)] told)
    (shallow : ∀ member ∈ told, member.2.depth ≤ depth) :
    ofParts decode (.named (keyed told)) "array" = .ok (.array element rank) := by
  obtain ⟨given, taken, enough⟩ := (arrayFields_takes rank typed).parts tells shallow
  have hasElement := mem_element enough List.mem_cons_self
  have hasRank : "rank" ∈ given :=
    enough.mem_given (List.mem_cons_of_mem _ List.mem_cons_self) (by decide) (Node.natural_ne_null _)
  simp [ofParts, taken, ElementDraft.told, required_slot, hasElement, hasRank, bind, Except.bind, pure, Except.pure]

theorem recovers (typed : ∀ element : TypeRef, Recovers depth element.toJson decode element) (shape : Shape TypeRef) :
    Recovers (depth + 1) shape.toJson (Shape.ofJson depth source decode) shape := by
  intro node retold shallow
  have split {kind : String} {written : List (String × Node)} :=
    @variant_told kinds kind depth written _ (ofParts decode) source
  cases shape with
  | named =>
    obtain ⟨told, decoded, -⟩ := split (by decide) (by decide) (by simp) retold shallow
    exact decoded
  | genericParameter =>
    obtain ⟨told, decoded, -⟩ := split (by decide) (by decide) (by simp) retold shallow
    exact decoded
  | array element rank =>
    have small : rank.toNat < UInt64.size := Nat.lt_trans rank.toNat_lt (by decide)
    obtain ⟨told, decoded, tells, below⟩ := split (by decide) (by simp)
      (by simp [element.toJson_whole, Node.Whole.natural small]) retold shallow
    exact decoded.trans (array_of_parts rank (typed element) tells below)
  | pointer element | byRef element =>
    obtain ⟨told, decoded, tells, below⟩ := split (by decide) (by simp) (by simp [element.toJson_whole]) retold shallow
    obtain ⟨draft, taken, present⟩ := element_of_parts (typed element) tells below
    refine decoded.trans ?_
    simp [ofParts, taken, present, bind, Except.bind, pure, Except.pure]

end Shape

/-! ### Types -/

def TypeDraft.told (type : TypeRef) (given : List String) : TypeDraft where
  space := slot given "namespace" type.space
  name := slot given "name" type.name
  arguments := slot given "generic_arguments" type.arguments
  enclosing := slot given "enclosing" type.enclosing
  shape := slot given "shape" type.shape

theorem TypeDraft.finish_told {type : TypeRef} {given : List String} (enough : Enough type.members given) :
    (TypeDraft.told type given).finish = .ok type := by
  have space : "namespace" ∈ given ∨ type.space = none :=
    enough.option Node.text (by simp [TypeRef.members]) (by decide) Node.text_ne_null
  have written : ("name", Node.text type.name) ∈ type.members := by simp [TypeRef.members]
  have name : "name" ∈ given := enough.mem_given written (by decide) (Node.text_ne_null _)
  have arguments : "generic_arguments" ∈ given ∨ type.arguments = [] :=
    enough.list TypeRef.toJson (by simp [TypeRef.members]) (by simp [defaults])
  have enclosing : "enclosing" ∈ given ∨ type.enclosing = none :=
    enough.option TypeRef.toJson (by simp [TypeRef.members]) (by decide) TypeRef.toJson_ne_null
  have shape : "shape" ∈ given ∨ type.shape = .named := by
    have written : ("shape", type.shape.toJson) ∈ type.members := by simp [TypeRef.members]
    exact (enough.default written type.shape.toJson_ne_null (by simp [defaults])).imp_right Shape.eq_named
  simp only [finish, TypeDraft.told, required_slot name, join_slot space, getD_slot arguments, join_slot enclosing,
    getD_slot shape]
  obtain ⟨_, _, _, _, _⟩ := type
  rfl

/-- The fields of a type, if types at the depths below are decoded. -/
theorem typeFields_takes {depth : Nat} {source : Source} {decode : Node → Decoded TypeRef}
    {inner : Option (Source → Node → Decoded TypeRef)}
    (typed : ∀ type : TypeRef, Recovers depth type.toJson decode type)
    (within : ∀ below, depth = below + 1 → ∃ item, inner = some item ∧
      ∀ source (type : TypeRef), Recovers below type.toJson (item source) type) (type : TypeRef) :
    Takes (typeFields depth source decode inner) (TypeDraft.told type) type.members depth where
  blank := by simp [typeFields, TypeDraft.told]
  known given key original value member retold shallow fresh := by
    simp only [TypeRef.members, List.mem_cons, Prod.mk.injEq, List.not_mem_nil, or_false] at member
    rcases member with ⟨rfl, rfl⟩ | ⟨rfl, rfl⟩ | ⟨rfl, rfl⟩ | ⟨rfl, rfl⟩ | ⟨rfl, rfl⟩
    · have space := recovers_option Node.text Node.text_ne_null (fun text _ => recovers_text text) value retold shallow
      simp [typeFields, TypeDraft.told, once_slot fresh space]
    · simp [typeFields, TypeDraft.told, once_slot fresh (recovers_text type.name value retold shallow)]
    · have arguments : value.asList (inner.map (· source)) = .ok type.arguments := by
        cases depth with
        | zero => exact absurd shallow (Nat.not_le_of_lt retold.depth_pos_of_list)
        | succ below =>
          obtain ⟨item, rfl, each⟩ := within below rfl
          exact recovers_list (fun argument _ => each source argument) value retold shallow
      simp [typeFields, TypeDraft.told, once_slot fresh arguments]
    · have enclosing := recovers_option TypeRef.toJson TypeRef.toJson_ne_null (fun type _ => typed type) value retold
        shallow
      simp [typeFields, TypeDraft.told, once_slot fresh enclosing]
    · cases depth with
      | zero =>
        obtain ⟨members, written⟩ := type.shape.toJson_eq
        exact absurd shallow (Nat.not_le_of_lt (written ▸ retold).depth_pos_of_record)
      | succ below =>
        obtain ⟨item, rfl, each⟩ := within below rfl
        have shape : Shape.ofJson below source (item .setAside) value = .ok type.shape :=
          type.shape.recovers (each .setAside) value retold shallow
        simp [typeFields, TypeDraft.told, once_slot fresh shape]
  unknown given key value other passed := by
    simp only [TypeRef.members, List.map_cons, List.map_nil, List.mem_cons, List.not_mem_nil, or_false, not_or] at other
    obtain ⟨space, name, arguments, enclosing, shape⟩ := other
    simp [typeFields, TypeDraft.told, Node.pass, passed, Ne.symm space, Ne.symm name, Ne.symm arguments,
      Ne.symm enclosing, Ne.symm shape]

namespace TypeRef

theorem members_distinct (type : TypeRef) : (type.members.map Prod.fst).Nodup := by
  simp [members]

theorem recovers (depth : Nat) (source : Source) (type : TypeRef) :
    Recovers depth type.toJson (ofJson depth source) type := by
  induction depth using Nat.strongRecOn generalizing source type with
  | ind depth ih =>
    rw [toJson_eq]
    intro node retold shallow
    cases depth with
    | zero => exact absurd shallow (Nat.not_le_of_lt retold.depth_pos_of_record)
    | succ depth =>
      have typed (type : TypeRef) : Recovers depth type.toJson (ofJson depth source) type :=
        ih depth (Nat.lt_succ_self depth) source type
      obtain ⟨inner, within, unfolded⟩ : ∃ inner : Option (Source → Node → Decoded TypeRef),
          (∀ below, depth = below + 1 → ∃ item, inner = some item ∧
            ∀ source (type : TypeRef), Recovers below type.toJson (item source) type) ∧
          ofJson (depth + 1) source node =
            (typeFields depth source (ofJson depth source) inner).decode source node >>= TypeDraft.finish := by
        cases depth with
        | zero => exact ⟨none, fun _ absurd_ => (by cases absurd_), rfl⟩
        | succ below =>
          refine ⟨some (ofJson below), ?_, rfl⟩
          rintro _ ⟨⟩
          exact ⟨_, rfl, fun source type => ih below (by omega) source type⟩
      rw [unfolded]
      exact (typeFields_takes typed within type).decode type.members_distinct
        (fun _ enough => TypeDraft.finish_told enough) source node retold shallow

end TypeRef

end Backtrace
