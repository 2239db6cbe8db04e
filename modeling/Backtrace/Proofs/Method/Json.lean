import Backtrace.Method.Json
import Backtrace.Proofs.TypeRef.Json

/-! Parameters and methods are decoded from all that tells them. -/
namespace Backtrace
open Json

theorem MethodId.recovers (id : MethodId) (depth : Nat) : Recovers depth id.toJson ofJson id := by
  intro node retold shallow
  rw [ofJson, recovers_natural id.value.toNat_lt node retold shallow]
  exact congrArg (fun value => Except.ok (MethodId.mk value)) UInt64.ofNat_toNat

theorem nullOr_whole {α : Type} {write : α → Node} {value : Option α} (each : ∀ value, (write value).Whole) :
    (nullOr write value).Whole := by
  cases value with
  | none => exact .null
  | some value => exact each value

theorem MethodId.toJson_ne_null (id : MethodId) : id.toJson ≠ .null := Node.natural_ne_null _

theorem MethodId.toJson_whole (id : MethodId) : id.toJson.Whole := .natural id.value.toNat_lt

/-! ### Parameters -/

def Parameter.members (parameter : Parameter) : List (String × Node) := [
  ("name", nullOr .text parameter.name), ("type", parameter.type.toJson), ("modifier", .text parameter.modifier.word),
  ("tuple_element_names", nullOr (fun names => .list (names.map (nullOr .text))) parameter.tupleNames)]

theorem Parameter.toJson_whole (parameter : Parameter) : parameter.toJson.Whole := by
  have names (names : List (Option String)) : (Node.list (names.map (nullOr .text))).Whole :=
    Node.whole_list_map (fun _ => nullOr_whole .text) names
  exact .record (by simp [nullOr_whole Node.Whole.text, nullOr_whole names, Node.Whole.text, TypeRef.toJson_whole])

def ParameterDraft.told (parameter : Parameter) (given : List String) : ParameterDraft where
  name := slot given "name" parameter.name
  type := slot given "type" parameter.type
  modifier := slot given "modifier" parameter.modifier
  tupleNames := slot given "tuple_element_names" parameter.tupleNames

theorem Modifier.eq_none {modifier : Modifier} (initial : Node.text modifier.word = .text "none") :
    modifier = .none := by
  cases modifier with
  | none => rfl
  | ref | out | «in» | params => simp [word, Node.text] at initial

theorem ParameterDraft.finish_told {parameter : Parameter} {given : List String}
    (enough : Enough parameter.members given) : (told parameter given).finish = .ok parameter := by
  have name : "name" ∈ given ∨ parameter.name = none :=
    enough.option Node.text (by simp [Parameter.members, nullOr]) (by decide) Node.text_ne_null
  have written : ("type", parameter.type.toJson) ∈ parameter.members := by simp [Parameter.members]
  have type : "type" ∈ given := enough.mem_given written (by decide) parameter.type.toJson_ne_null
  have modifier : "modifier" ∈ given ∨ parameter.modifier = .none := by
    have written : ("modifier", Node.text parameter.modifier.word) ∈ parameter.members := by simp [Parameter.members]
    exact (enough.default written (Node.text_ne_null _) (by simp [defaults])).imp_right Modifier.eq_none
  have tupleNames : "tuple_element_names" ∈ given ∨ parameter.tupleNames = none :=
    enough.option (fun names => .list (names.map (nullOr .text))) (by simp [Parameter.members, nullOr]) (by decide)
      fun _ => Node.list_ne_null _
  simp only [finish, told, join_slot name, required_slot type, getD_slot modifier, join_slot tupleNames]
  rfl

theorem parameterFields_takes (parameter : Parameter) (depth : Nat) :
    Takes (parameterFields depth) (ParameterDraft.told parameter) parameter.members depth where
  blank := by simp [parameterFields, ParameterDraft.told]
  known given key original value member retold shallow fresh := by
    simp only [Parameter.members, List.mem_cons, Prod.mk.injEq, List.not_mem_nil, or_false] at member
    rcases member with ⟨rfl, rfl⟩ | ⟨rfl, rfl⟩ | ⟨rfl, rfl⟩ | ⟨rfl, rfl⟩
    · have name := recovers_option Node.text Node.text_ne_null (fun text _ => recovers_text text) value retold shallow
      simp [parameterFields, ParameterDraft.told, once_slot fresh name]
    · have type := TypeRef.recovers depth .direct parameter.type value retold shallow
      simp [parameterFields, ParameterDraft.told, once_slot fresh type]
    · have modifier : word? Modifier.words depth value = .ok parameter.modifier := by
        rw [retold.of_text]
        cases parameter.modifier <;> rfl
      simp [parameterFields, ParameterDraft.told, once_slot fresh modifier]
    · have each (names : List (Option String)) : Recovers depth (.list (names.map (nullOr .text)))
          (Node.asListAt depth fun _ => Node.asOption Node.asText) names :=
        recovers_listAt fun _ _ _ => recovers_option Node.text Node.text_ne_null fun text _ => recovers_text text
      have names := recovers_option _ (fun _ => Node.list_ne_null _) (fun names _ => each names) value retold shallow
      simp [parameterFields, ParameterDraft.told, once_slot fresh names]
  unknown given key value other passed := by
    simp only [Parameter.members, List.map_cons, List.map_nil, List.mem_cons, List.not_mem_nil, or_false, not_or]
      at other
    obtain ⟨name, type, modifier, names⟩ := other
    simp [parameterFields, ParameterDraft.told, Node.pass, passed, Ne.symm name, Ne.symm type, Ne.symm modifier,
      Ne.symm names]

theorem Parameter.recovers (parameter : Parameter) (depth : Nat) :
    Recovers depth parameter.toJson (ofJson depth) parameter :=
  Takes.recordAt (parameterFields_takes parameter) (by simp [members])
    (fun _ enough => ParameterDraft.finish_told enough) depth

/-! ### Ways a method was made -/

theorem linkFields_takes (name : String) (link : Option MethodId) (depth : Nat) :
    Takes (linkFields name) (slot · name link) [(name, nullOr MethodId.toJson link)] depth where
  blank := by simp [linkFields]
  known given key original value member retold shallow fresh := by
    obtain ⟨rfl, rfl⟩ := Prod.mk.inj (List.mem_singleton.1 member)
    have linked := recovers_option MethodId.toJson MethodId.toJson_ne_null (fun id _ => id.recovers depth) value retold
      shallow
    simp [linkFields, once_slot fresh linked]
  unknown given key value other passed := by
    have other : key ≠ name := fun same => other (same ▸ List.mem_cons_self)
    simp [linkFields, Node.pass, passed, other, Ne.symm other]

namespace Synthesis

theorem link_of_parts {name : String} {link : Option MethodId} {depth : Nat} (plain : name ∉ defaults.map Prod.fst)
    {told : List (String × Node)} (tells : Tells [(name, nullOr MethodId.toJson link)] told)
    (shallow : ∀ member ∈ told, member.2.depth ≤ depth) :
    ∃ draft, (Parts.named (keyed told)).decode (linkFields name) = .ok draft ∧ draft.join = link := by
  obtain ⟨given, taken, enough⟩ := (linkFields_takes name link depth).parts tells shallow
  exact ⟨_, taken, join_slot (enough.option MethodId.toJson List.mem_cons_self plain MethodId.toJson_ne_null)⟩

theorem toJson_eq (synthesis : Synthesis) : ∃ members, synthesis.toJson = .record members := by
  cases synthesis <;> exact ⟨_, rfl⟩

theorem toJson_ne_null (synthesis : Synthesis) : synthesis.toJson ≠ .null := by
  obtain ⟨members, same⟩ := synthesis.toJson_eq
  rw [same]
  exact Node.record_ne_null members

theorem eq_unknown {synthesis : Synthesis} (initial : synthesis.toJson = .record [("kind", .text "unknown")]) :
    synthesis = .unknown := by
  cases synthesis with
  | unknown => rfl
  | plain | asyncMachine | iteratorMachine | closure => simp [toJson, Node.record, Node.text] at initial

theorem recovers (synthesis : Synthesis) (depth : Nat) : Recovers depth synthesis.toJson (ofJson depth) synthesis := by
  intro node retold shallow
  cases depth with
  | zero =>
    obtain ⟨members, written⟩ := synthesis.toJson_eq
    exact absurd shallow (Nat.not_le_of_lt (written ▸ retold).depth_pos_of_record)
  | succ depth =>
    have link (id : Option MethodId) : (nullOr MethodId.toJson id).Whole := nullOr_whole MethodId.toJson_whole
    have split {kind : String} {written : List (String × Node)} :=
      @variant_told kinds kind depth written _ ofParts .direct
    cases synthesis with
    | unknown | plain =>
      obtain ⟨told, decoded, -⟩ := split (by decide) (by decide) (by simp) retold shallow
      exact decoded
    | asyncMachine id | iteratorMachine id | closure id =>
      obtain ⟨told, decoded, tells, below⟩ := split (by decide) (by simp) (by simp [link]) retold shallow
      obtain ⟨draft, taken, linked⟩ := link_of_parts (by decide) tells below
      refine decoded.trans ?_
      simp [ofParts, taken, linked, bind, Except.bind, pure, Except.pure]

end Synthesis

/-! ### Methods -/

def MethodRecord.members (method : MethodRecord) : List (String × Node) := [
  ("id", method.id.toJson), ("name", .text method.name),
  ("declaring_type", nullOr TypeRef.toJson method.declaringType), ("returns", nullOr Parameter.toJson method.returns),
  ("parameters", .list (method.parameters.map Parameter.toJson)),
  ("generic_arguments", .list (method.genericArguments.map TypeRef.toJson)), ("synthesis", method.synthesis.toJson),
  ("stripped", .bool method.stripped)]

theorem MethodRecord.toJson_eq (method : MethodRecord) : method.toJson = .record method.members := by
  rw [toJson, TypeRef.listToJson_eq_map, TypeRef.optionToJson_eq]
  rfl

theorem Synthesis.toJson_whole (synthesis : Synthesis) : synthesis.toJson.Whole := by
  have link (id : Option MethodId) : (nullOr MethodId.toJson id).Whole := nullOr_whole MethodId.toJson_whole
  cases synthesis <;> exact .record (by simp [Node.Whole.text, link])

theorem MethodRecord.toJson_whole (method : MethodRecord) : method.toJson.Whole := by
  rw [toJson_eq]
  exact .record (by simp [members, MethodId.toJson_whole, Node.Whole.text, nullOr_whole TypeRef.toJson_whole,
    nullOr_whole Parameter.toJson_whole, Node.whole_list_map Parameter.toJson_whole,
    Node.whole_list_map TypeRef.toJson_whole, Synthesis.toJson_whole, Node.Whole.bool])

def MethodDraft.told (method : MethodRecord) (given : List String) : MethodDraft where
  id := slot given "id" method.id
  name := slot given "name" method.name
  declaringType := slot given "declaring_type" method.declaringType
  returns := slot given "returns" method.returns
  parameters := slot given "parameters" method.parameters
  genericArguments := slot given "generic_arguments" method.genericArguments
  synthesis := slot given "synthesis" method.synthesis
  stripped := slot given "stripped" method.stripped

theorem Parameter.toJson_ne_null (parameter : Parameter) : parameter.toJson ≠ .null := Node.record_ne_null _

theorem MethodDraft.finish_told {method : MethodRecord} {given : List String} (enough : Enough method.members given) :
    (told method given).finish = .ok method := by
  have inside : ("id", method.id.toJson) ∈ method.members ∧ ("name", Node.text method.name) ∈ method.members := by
    simp [MethodRecord.members]
  have id : "id" ∈ given := enough.mem_given inside.1 (by decide) method.id.toJson_ne_null
  have name : "name" ∈ given := enough.mem_given inside.2 (by decide) (Node.text_ne_null _)
  have declaringType : "declaring_type" ∈ given ∨ method.declaringType = none :=
    enough.option TypeRef.toJson (by simp [MethodRecord.members, nullOr]) (by decide) TypeRef.toJson_ne_null
  have returns : "returns" ∈ given ∨ method.returns = none :=
    enough.option Parameter.toJson (by simp [MethodRecord.members, nullOr]) (by decide) Parameter.toJson_ne_null
  have parameters : "parameters" ∈ given ∨ method.parameters = [] :=
    enough.list Parameter.toJson (by simp [MethodRecord.members]) (by simp [defaults])
  have genericArguments : "generic_arguments" ∈ given ∨ method.genericArguments = [] :=
    enough.list TypeRef.toJson (by simp [MethodRecord.members]) (by simp [defaults])
  have synthesis : "synthesis" ∈ given ∨ method.synthesis = .unknown := by
    have written : ("synthesis", method.synthesis.toJson) ∈ method.members := by simp [MethodRecord.members]
    exact (enough.default written method.synthesis.toJson_ne_null (by simp [defaults])).imp_right Synthesis.eq_unknown
  have stripped : "stripped" ∈ given ∨ method.stripped = false := by
    have written : ("stripped", Node.bool method.stripped) ∈ method.members := by simp [MethodRecord.members]
    exact (enough.default written (Node.bool_ne_null _) (by simp [defaults])).imp_right Node.bool.inj
  simp only [finish, told, required_slot id, required_slot name, join_slot declaringType, join_slot returns,
    getD_slot parameters, getD_slot genericArguments, getD_slot synthesis, getD_slot stripped]
  rfl

theorem methodFields_takes (method : MethodRecord) (depth : Nat) :
    Takes (methodFields depth) (MethodDraft.told method) method.members depth where
  blank := by simp [methodFields, MethodDraft.told]
  known given key original value member retold shallow fresh := by
    simp only [MethodRecord.members, List.mem_cons, Prod.mk.injEq, List.not_mem_nil, or_false] at member
    rcases member with ⟨rfl, rfl⟩ | ⟨rfl, rfl⟩ | ⟨rfl, rfl⟩ | ⟨rfl, rfl⟩ |
      ⟨rfl, rfl⟩ | ⟨rfl, rfl⟩ | ⟨rfl, rfl⟩ | ⟨rfl, rfl⟩
    · simp [methodFields, MethodDraft.told, once_slot fresh (method.id.recovers depth value retold shallow)]
    · simp [methodFields, MethodDraft.told, once_slot fresh (recovers_text method.name value retold shallow)]
    · have declaringType := recovers_option TypeRef.toJson TypeRef.toJson_ne_null
        (fun type _ => TypeRef.recovers depth .direct type) value retold shallow
      simp [methodFields, MethodDraft.told, once_slot fresh declaringType]
    · have returns := recovers_option Parameter.toJson Parameter.toJson_ne_null
        (fun parameter _ => parameter.recovers depth) value retold shallow
      simp [methodFields, MethodDraft.told, once_slot fresh returns]
    · have parameters : value.asListAt depth Parameter.ofJson = .ok method.parameters :=
        recovers_listAt (fun below parameter _ => parameter.recovers below) value retold shallow
      simp [methodFields, MethodDraft.told, once_slot fresh parameters]
    · have arguments : (value.asListAt depth fun depth => TypeRef.ofJson depth .direct) = .ok method.genericArguments :=
        recovers_listAt (fun below type _ => TypeRef.recovers below .direct type) value retold shallow
      simp [methodFields, MethodDraft.told, once_slot fresh arguments]
    · simp [methodFields, MethodDraft.told, once_slot fresh (method.synthesis.recovers depth value retold shallow)]
    · simp [methodFields, MethodDraft.told, once_slot fresh (recovers_bool method.stripped value retold shallow)]
  unknown given key value other passed := by
    simp only [MethodRecord.members, List.map_cons, List.map_nil, List.mem_cons, List.not_mem_nil, or_false, not_or]
      at other
    obtain ⟨id, name, declaringType, returns, parameters, arguments, synthesis, stripped⟩ := other
    simp [methodFields, MethodDraft.told, Node.pass, passed, Ne.symm id, Ne.symm name, Ne.symm declaringType,
      Ne.symm returns, Ne.symm parameters, Ne.symm arguments, Ne.symm synthesis, Ne.symm stripped]

theorem MethodRecord.recovers (method : MethodRecord) (depth : Nat) :
    Recovers depth method.toJson (ofJson depth) method := by
  rw [toJson_eq]
  exact Takes.recordAt (methodFields_takes method) (by simp [members])
    (fun _ enough => MethodDraft.finish_told enough) depth

end Backtrace
