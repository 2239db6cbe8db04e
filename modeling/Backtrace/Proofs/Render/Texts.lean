import Backtrace.Render
import Backtrace.Proofs.Method.Texts
import Backtrace.Proofs.Render.Spans

/-!
The texts that the line of a frame shows, and its markers. A line is over an alphabet exactly where the
texts that it shows are, and its markers are in order whatever they are.
-/
namespace Backtrace

variable {alphabet : Alphabet}

theorem over_orPlaceholder {text : String} : alphabet.Over (orPlaceholder text) ↔ alphabet.Over text := by
  unfold orPlaceholder
  split
  · next blank =>
    rw [blank]
    exact ⟨fun _ => Alphabet.over_empty, fun _ => Alphabet.over_of_fixed (by decide)⟩
  · rfl

theorem over_getD {text : Option String} : alphabet.Over (text.getD "") ↔ alphabet.Each text.toList := by
  cases text <;> simp

namespace Tuple

def shownTexts (tuple : Tuple) : List String :=
  tuple.wrapper.toList ++ tuple.types ++ (tuple.names.take tuple.types.length).filterMap id

theorem each_elements (types : List String) (names : List (Option String)) :
    alphabet.Each (elements types names) ↔
      alphabet.Each types ∧ alphabet.Each ((names.take types.length).filterMap id) := by
  have space : alphabet.Over " " := Alphabet.over_of_fixed (by decide)
  fun_induction elements types names with
  | case1 => simp
  | case2 type types name names ih =>
    simp only [Alphabet.each_cons, Alphabet.over_append, over_orPlaceholder, ih, space, List.length_cons,
      List.take_succ_cons, List.filterMap_cons, id, and_true]
    constructor
    · intro both
      obtain ⟨⟨typeOver, nameOver⟩, typesOver, namesOver⟩ := both
      exact ⟨⟨typeOver, typesOver⟩, nameOver, namesOver⟩
    · intro both
      obtain ⟨⟨typeOver, typesOver⟩, nameOver, namesOver⟩ := both
      exact ⟨⟨typeOver, nameOver⟩, typesOver, namesOver⟩
  | case3 type types names ih =>
    simp only [Alphabet.each_cons, over_orPlaceholder, ih, List.length_cons, List.take_succ_cons,
      List.filterMap_cons, id, and_assoc]
  | case4 type types ih =>
    simp only [Alphabet.each_cons, over_orPlaceholder, ih, List.take_nil, List.filterMap_nil, Alphabet.each_nil,
      and_true]

theorem over_text (tuple : Tuple) : alphabet.Over tuple.text ↔ alphabet.Each tuple.shownTexts := by
  have inner : alphabet.Over ("(" ++ ", ".intercalate (elements tuple.types tuple.names) ++ ")") ↔
      alphabet.Each tuple.types ∧ alphabet.Each ((tuple.names.take tuple.types.length).filterMap id) := by
    rw [Alphabet.over_append, Alphabet.over_append, Alphabet.over_intercalate (Alphabet.over_of_fixed (by decide)),
      each_elements]
    exact ⟨fun all => all.1.2, fun both =>
      ⟨⟨Alphabet.over_of_fixed (by decide), both⟩, Alphabet.over_of_fixed (by decide)⟩⟩
  unfold text shownTexts
  cases tuple.wrapper with
  | none =>
    simp only [Option.toList_none, List.nil_append, Alphabet.each_append]
    exact inner
  | some wrapper =>
    simp only [Option.toList_some, List.cons_append, List.nil_append, Alphabet.each_cons, Alphabet.each_append]
    rw [Alphabet.over_append, Alphabet.over_append, Alphabet.over_append, inner]
    exact ⟨fun all => ⟨all.1.1.1, all.1.2⟩, fun both =>
      ⟨⟨⟨both.1, Alphabet.over_of_fixed (by decide)⟩, both.2⟩, Alphabet.over_of_fixed (by decide)⟩⟩

theorem each_shownTexts {tuple : Tuple} (clean : alphabet.Each tuple.texts) : alphabet.Each tuple.shownTexts := by
  simp only [texts, Alphabet.each_append] at clean
  simp only [shownTexts, Alphabet.each_append]
  refine ⟨clean.1, fun name member => clean.2 name ?_⟩
  exact ((List.take_sublist _ tuple.names).filterMap id).subset member

end Tuple

namespace ResolvedParameter

def typeTexts (parameter : ResolvedParameter) : List String :=
  match parameter.tuple with
  | some tuple => tuple.shownTexts
  | none => [parameter.type]

def fullTexts (parameter : ResolvedParameter) : List String :=
  parameter.keyword.toList ++ parameter.typeTexts ++ parameter.name.toList

def initial (parameter : ResolvedParameter) : List String :=
  (parameter.name.map fun name => String.ofList (name.toList.take 1)).toList

theorem over_typeText (parameter : ResolvedParameter) :
    alphabet.Over parameter.typeText ↔ alphabet.Each parameter.typeTexts := by
  unfold typeText typeTexts
  cases parameter.tuple with
  | none => simp [over_orPlaceholder]
  | some tuple => exact tuple.over_text

theorem over_full (parameter : ResolvedParameter) :
    alphabet.Over parameter.full ↔ alphabet.Each parameter.fullTexts := by
  have space : alphabet.Over " " := Alphabet.over_of_fixed (by decide)
  unfold full fullTexts
  cases parameter.keyword <;> cases parameter.name <;> simp [over_typeText, space, and_assoc]

theorem isFixed_placeLetter (place : Nat) : isFixed (placeLetter place) = true := by
  have letters : ∀ rest < 26, isFixed (Char.ofNat ('a'.toNat + rest)) = true := by decide
  exact letters _ (Nat.mod_lt _ (by decide))

theorem over_letter (parameter : ResolvedParameter) (place : Nat) :
    alphabet.Over (String.singleton (parameter.letter place)) ↔ alphabet.Each parameter.initial := by
  have placeOver := alphabet.fixed _ (isFixed_placeLetter place)
  rw [Alphabet.over_singleton]
  unfold letter initial
  cases parameter.name with
  | none => simpa using placeOver
  | some name =>
    simp only [Option.map_some, Option.toList_some, Alphabet.each_cons, Alphabet.each_nil, and_true,
      Alphabet.over_ofList, Option.bind_some]
    cases name.toList with
    | nil => simpa using placeOver
    | cons c cs => simp

theorem each_typeTexts {parameter : ResolvedParameter} (clean : alphabet.Each parameter.texts) :
    alphabet.Each parameter.typeTexts := by
  simp only [texts, Alphabet.each_append, Alphabet.each_cons, Alphabet.each_flatMap, Option.mem_toList] at clean
  unfold typeTexts
  cases found : parameter.tuple with
  | none => simpa using clean.1.2.1
  | some tuple => exact Tuple.each_shownTexts (clean.2 tuple found)

theorem each_fullTexts {parameter : ResolvedParameter} (clean : alphabet.Each parameter.texts) :
    alphabet.Each parameter.fullTexts := by
  have typeOver := each_typeTexts clean
  simp only [texts, Alphabet.each_append, Alphabet.each_cons] at clean
  simp only [fullTexts, Alphabet.each_append]
  exact ⟨⟨clean.1.2.2, typeOver⟩, clean.1.1⟩

theorem each_initial {parameter : ResolvedParameter} (clean : alphabet.Each parameter.texts) :
    alphabet.Each parameter.initial := by
  simp only [texts, Alphabet.each_append, Alphabet.each_toList] at clean
  unfold initial
  cases named : parameter.name with
  | none => simp
  | some name =>
    simp only [Option.map_some, Option.toList_some, Alphabet.each_cons, Alphabet.each_nil, and_true]
    exact Alphabet.over_of_subset (clean.1.1 name named) (fun c => List.mem_of_mem_take)

end ResolvedParameter

namespace ResolvedMethod

def returnTexts (method : ResolvedMethod) : List String :=
  match method.kind with
  | .method => method.returns.toList.flatMap ResolvedParameter.typeTexts
  | .constructor | .staticConstructor => []

end ResolvedMethod

namespace Renderer

variable (renderer : Renderer)

def parameterTexts (parameter : ResolvedParameter) : List String :=
  if renderer.fullParameters then parameter.fullTexts else parameter.initial

def memberTexts (method : ResolvedMethod) : List String :=
  match method.kind with
  | .constructor | .staticConstructor =>
    method.declaringType.toList ++ method.parameters.flatMap renderer.parameterTexts
  | .method =>
    method.declaringType.toList ++ method.name :: method.generics.toList ++
      if method.hasSub then
        method.subName.toList ++ (method.subParameters.getD []).flatMap renderer.parameterTexts
      else method.parameters.flatMap renderer.parameterTexts

def shownTexts : ResolvedFrame → List String
  | .raw text => [stripSentinels text]
  | .method shown location =>
    shown.returnTexts ++ renderer.memberTexts shown ++ location.toList.map Location.file

theorem over_parameterList (parameters : Option (List ResolvedParameter)) :
    alphabet.Over (renderer.parameterList parameters) ↔
      alphabet.Each ((parameters.getD []).flatMap renderer.parameterTexts) := by
  unfold parameterList
  cases parameters with
  | none =>
    change alphabet.Over ("(" ++ placeholder ++ ")") ↔ alphabet.Each []
    exact ⟨fun _ => Alphabet.each_nil, fun _ => Alphabet.over_of_fixed (by decide)⟩
  | some parameters =>
    have shown (place : Nat) (parameter : ResolvedParameter) :
        alphabet.Over (if renderer.fullParameters then parameter.full
          else String.singleton (parameter.letter place)) ↔ alphabet.Each (renderer.parameterTexts parameter) := by
      unfold parameterTexts
      split
      · exact parameter.over_full
      · exact parameter.over_letter place
    rw [Alphabet.over_append, Alphabet.over_append, Alphabet.over_intercalate (Alphabet.over_of_fixed (by decide)),
      Option.getD_some, Alphabet.each_flatMap]
    constructor
    · intro each parameter member
      obtain ⟨⟨-, all⟩, -⟩ := each
      obtain ⟨place, bound, rfl⟩ := List.mem_iff_getElem.1 member
      exact (shown place _).1 (all _ (List.mem_mapIdx.2 ⟨place, bound, rfl⟩))
    · intro each
      refine ⟨⟨Alphabet.over_of_fixed (by decide), fun text member => ?_⟩, Alphabet.over_of_fixed (by decide)⟩
      obtain ⟨place, bound, rfl⟩ := List.mem_mapIdx.1 member
      exact (shown place _).2 (each _ (List.getElem_mem bound))

theorem each_returnPieces (method : ResolvedMethod) :
    alphabet.Each ((returnPieces method).map Line.plainSpan) ↔ alphabet.Each method.returnTexts := by
  have fixed : alphabet.Over " " ∧ alphabet.Over "async" ∧ alphabet.Over "async " :=
    ⟨Alphabet.over_of_fixed (by decide), Alphabet.over_of_fixed (by decide), Alphabet.over_of_fixed (by decide)⟩
  unfold returnPieces ResolvedMethod.returnText? ResolvedMethod.returnTexts
  cases method.kind <;> cases method.isAsync <;> cases method.returns <;>
    simp [Line.plainSpan, fixed, ResolvedParameter.over_typeText]

theorem each_declaringPieces (method : ResolvedMethod) :
    alphabet.Each ((declaringPieces method).map Line.plainSpan) ↔ alphabet.Each method.declaringType.toList := by
  have dot : alphabet.Over "." := Alphabet.over_of_fixed (by decide)
  unfold declaringPieces
  cases method.declaringType with
  | none => rfl
  | some type =>
    by_cases blank : type = ""
    · rw [Option.filter_some_neg (by simpa using blank), blank]
      simp
    · rw [Option.filter_some_pos (by simpa using blank)]
      simp [Line.plainSpan, dot]

theorem each_ordinalPieces (method : ResolvedMethod) : alphabet.Each ((ordinalPieces method).map Line.plainSpan) := by
  unfold ordinalPieces
  cases method.ordinal with
  | none => exact Alphabet.each_nil
  | some ordinal =>
    refine Alphabet.each_cons.2 ⟨?_, Alphabet.each_nil⟩
    rw [Line.plainSpan, Alphabet.over_append, Alphabet.over_append]
    exact ⟨⟨Alphabet.over_of_fixed (by decide), Alphabet.over_decimalText _⟩, Alphabet.over_of_fixed (by decide)⟩

theorem each_constructorPieces {word : String} (fixed : alphabet.Over word) (method : ResolvedMethod) :
    alphabet.Each ((renderer.constructorPieces word method).map Line.plainSpan) ↔
      alphabet.Each (method.declaringType.toList ++ method.parameters.flatMap renderer.parameterTexts) := by
  simp only [constructorPieces, List.map_cons, List.map_nil, Line.plainSpan, Alphabet.each_cons, Alphabet.each_append,
    Alphabet.each_nil, Alphabet.over_empty, fixed, true_and, and_true, over_orPlaceholder, over_getD,
    over_parameterList, Option.getD_some]

theorem each_methodPieces (method : ResolvedMethod) :
    alphabet.Each ((renderer.methodPieces method).map Line.plainSpan) ↔
      alphabet.Each (method.declaringType.toList ++ method.name :: method.generics.toList ++
        if method.hasSub then
          method.subName.toList ++ (method.subParameters.getD []).flatMap renderer.parameterTexts
        else method.parameters.flatMap renderer.parameterTexts) := by
  have fixed : alphabet.Over "()+" ∧ alphabet.Over "=>\x7b…\x7d" :=
    ⟨Alphabet.over_of_fixed (by decide), Alphabet.over_of_fixed (by decide)⟩
  unfold methodPieces
  split <;>
    simp only [List.map_append, List.map_cons, List.map_nil, Line.plainSpan, Alphabet.each_cons,
      Alphabet.each_append, Alphabet.each_nil, Alphabet.over_empty, true_and, and_true, over_orPlaceholder, over_getD,
      over_parameterList, Option.getD_some, each_declaringPieces, each_ordinalPieces, fixed, and_assoc]

theorem each_memberPieces (method : ResolvedMethod) :
    alphabet.Each ((renderer.memberPieces method).map Line.plainSpan) ↔
      alphabet.Each (renderer.memberTexts method) := by
  unfold memberPieces memberTexts
  cases method.kind with
  | method => exact renderer.each_methodPieces method
  | constructor => exact renderer.each_constructorPieces (Alphabet.over_of_fixed (by decide)) method
  | staticConstructor => exact renderer.each_constructorPieces (Alphabet.over_of_fixed (by decide)) method

theorem each_locationPieces (location : Option Location) :
    alphabet.Each ((locationPieces location).map Line.plainSpan) ↔
      alphabet.Each (location.toList.map Location.file) := by
  have fixed : alphabet.Over " " ∧ alphabet.Over "(at " ∧ alphabet.Over ")" ∧ alphabet.Over ":" :=
    ⟨Alphabet.over_of_fixed (by decide), Alphabet.over_of_fixed (by decide), Alphabet.over_of_fixed (by decide),
      Alphabet.over_of_fixed (by decide)⟩
  cases location with
  | none => rfl
  | some location =>
    obtain ⟨file, line⟩ := location
    cases line <;> simp [locationPieces, Location.text, Line.plainSpan, fixed, Alphabet.over_decimalText]

/-- A line is over an alphabet exactly where the texts that it shows are. -/
theorem over_plain_iff (frame : ResolvedFrame) :
    alphabet.Over (renderer.plain frame) ↔ alphabet.Each (renderer.shownTexts frame) := by
  have pieces (pieces : List Span) : alphabet.Over (Line.ofPieces pieces).plain ↔
      alphabet.Each (pieces.map Line.plainSpan) := by
    rw [Line.plain_ofPieces, Alphabet.over_join]
  cases frame with
  | raw text => exact pieces _
  | method shown location =>
    rw [plain, line, Renderer.method, pieces, List.map_append, List.map_append, Alphabet.each_append,
      Alphabet.each_append, each_returnPieces, each_memberPieces, each_locationPieces, shownTexts,
      Alphabet.each_append, Alphabet.each_append]

theorem each_parameterTexts {parameters : List ResolvedParameter}
    (clean : ∀ parameter ∈ parameters, alphabet.Each parameter.texts) :
    alphabet.Each (parameters.flatMap renderer.parameterTexts) := by
  rw [Alphabet.each_flatMap]
  intro parameter member
  unfold parameterTexts
  split
  · exact ResolvedParameter.each_fullTexts (clean parameter member)
  · exact ResolvedParameter.each_initial (clean parameter member)

theorem each_memberTexts {method : ResolvedMethod} (clean : alphabet.Each method.texts) :
    alphabet.Each (renderer.memberTexts method) := by
  obtain ⟨typeOver, nameOver, genericsOver, -, parametersOver, subOver, subNameOver⟩ :=
    ResolvedMethod.each_texts.1 clean
  have parameters := renderer.each_parameterTexts parametersOver
  unfold memberTexts
  split
  · exact Alphabet.each_append.2 ⟨Alphabet.each_toList.2 typeOver, parameters⟩
  · exact Alphabet.each_append.2 ⟨Alphabet.each_toList.2 typeOver, parameters⟩
  · refine Alphabet.each_append.2 ⟨Alphabet.each_append.2 ⟨Alphabet.each_toList.2 typeOver, ?_⟩, ?_⟩
    · exact Alphabet.each_cons.2 ⟨nameOver, Alphabet.each_toList.2 genericsOver⟩
    · split
      · exact Alphabet.each_append.2 ⟨Alphabet.each_toList.2 subNameOver, renderer.each_parameterTexts subOver⟩
      · exact parameters

theorem each_returnTexts {method : ResolvedMethod} (clean : alphabet.Each method.texts) :
    alphabet.Each method.returnTexts := by
  obtain ⟨-, -, -, returnsOver, -⟩ := ResolvedMethod.each_texts.1 clean
  unfold ResolvedMethod.returnTexts
  split
  · rw [Alphabet.each_flatMap]
    intro returned member
    exact ResolvedParameter.each_typeTexts (returnsOver returned (Option.mem_toList.1 member))
  · exact Alphabet.each_nil
  · exact Alphabet.each_nil

end Renderer

theorem over_stripSentinels {text : String} (clean : alphabet.Over text) : alphabet.Over (stripSentinels text) :=
  Alphabet.over_of_subset clean fun _ member => (List.mem_filter.1 member).1

theorem stripSentinels_unmarked (text : String) : Alphabet.unmarked.Over (stripSentinels text) := by
  rw [stripSentinels, Alphabet.over_ofList]
  intro c member
  simpa [withoutSentinels, Alphabet.unmarked] using (List.mem_filter.1 member).2

theorem stripSentinels_of_unmarked {text : String} (unmarked : Alphabet.unmarked.Over text) :
    stripSentinels text = text := by
  rw [stripSentinels, withoutSentinels_eq_self unmarked, String.ofList_toList]

theorem Renderer.plain_raw (renderer : Renderer) (text : String) :
    renderer.plain (.raw text) = stripSentinels text := by
  rw [plain, line, Line.plain_ofPieces]
  simp [Line.plainSpan]

namespace ResolvedFrame

def texts : ResolvedFrame → List String
  | .raw text => [text]
  | .method shown location => shown.texts ++ location.toList.map Location.file

theorem over_plain {frame : ResolvedFrame} (renderer : Renderer) (clean : alphabet.Each frame.texts) :
    alphabet.Over (renderer.plain frame) := by
  rw [renderer.over_plain_iff]
  cases frame with
  | raw text => exact Alphabet.each_cons.2 ⟨over_stripSentinels (clean text List.mem_cons_self), Alphabet.each_nil⟩
  | method shown location =>
    obtain ⟨shownOver, locationOver⟩ := Alphabet.each_append.1 clean
    exact Alphabet.each_append.2 ⟨Alphabet.each_append.2
      ⟨Renderer.each_returnTexts shownOver, renderer.each_memberTexts shownOver⟩, locationOver⟩

end ResolvedFrame

end Backtrace
