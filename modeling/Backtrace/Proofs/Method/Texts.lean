import Backtrace.Resolved
import Backtrace.Proofs.GeneratedName
import Backtrace.Proofs.TypeRef.Texts

/-!
The texts of a method's metadata. What is shown of the method is over every alphabet that the metadata
of the method and of those behind its links is over.
-/
namespace Backtrace

variable {alphabet : Alphabet}

def Parameter.texts (parameter : Parameter) : List String :=
  parameter.name.toList ++ parameter.type.texts ++ (parameter.tupleNames.getD []).filterMap id

def MethodRecord.texts (record : MethodRecord) : List String :=
  record.name :: TypeRef.textsOfOuter record.declaringType ++
    (record.returns.toList ++ record.parameters).flatMap Parameter.texts ++
      record.genericArguments.flatMap TypeRef.texts

namespace Method

mutual
def texts : Method → List String
  | ⟨record, link⟩ => record.texts ++ textsOfLink link

def textsOfLink : Option Method → List String
  | none => []
  | some method => texts method
end

end Method

namespace Tuple

def texts (tuple : Tuple) : List String := tuple.wrapper.toList ++ tuple.types ++ tuple.names.filterMap id

end Tuple

namespace ResolvedParameter

def texts (parameter : ResolvedParameter) : List String :=
  parameter.name.toList ++ parameter.type :: parameter.keyword.toList ++ parameter.tuple.toList.flatMap Tuple.texts

end ResolvedParameter

namespace ResolvedMethod

def texts (method : ResolvedMethod) : List String :=
  method.declaringType.toList ++ method.name :: method.generics.toList ++
    (method.returns.toList ++ method.parameters ++ method.subParameters.getD []).flatMap ResolvedParameter.texts ++
    method.subName.toList

end ResolvedMethod

/-! Generated names are cut into parts of themselves. -/

namespace GeneratedName

theorem ofText_over {name : String} {parts : GeneratedName} (found : ofText? name = some parts)
    (clean : alphabet.Over name) : alphabet.Over parts.host ∧ alphabet.Over parts.suffix := by
  obtain ⟨host, kind, suffix⟩ := parts
  obtain ⟨tail, whole, -, behind⟩ := ofText?_eq_some_iff.1 found
  have inside {c : Char} (member : c ∈ host.toList ∨ c ∈ tail) : alphabet.has c := by
    apply clean
    rw [whole]
    rcases member with member | member <;> simp [member]
  refine ⟨fun c member => inside (.inl member), ?_⟩
  cases behind with
  | bare => exact Alphabet.over_empty
  | lettered letter => exact fun c member => inside (.inr (List.mem_cons_of_mem letter member))

end GeneratedName

theorem localFunctionName_over {suffix name : String} (found : localFunctionName? suffix = some name)
    (clean : alphabet.Over suffix) : alphabet.Over name := by
  obtain ⟨-, -, rest, whole⟩ := localFunctionName?_eq_some_iff.1 found
  intro c member
  apply clean
  simp [whole, member]

/-! Where a method comes from tells nothing that its metadata does not. -/

theorem TypeRef.source_over {type found : TypeRef} (source : type.source? = some found)
    (clean : alphabet.Each type.texts) : alphabet.Each found.texts := by
  fun_induction TypeRef.source? type with
  | case1 space name arguments shape _ outer ih =>
    unfold TypeRef.texts TypeRef.textsOfOuter at clean
    simp only [Alphabet.each_append] at clean
    exact ih source clean.1.2
  | case2 => cases source
  | case3 => cases source; exact clean

namespace Method

theorem each_texts {method : Method} : alphabet.Each method.texts ↔ alphabet.Over method.name ∧
    alphabet.Each (TypeRef.textsOfOuter method.declaringType) ∧
    (∀ parameter ∈ method.returns.toList ++ method.parameters, alphabet.Each parameter.texts) ∧
    (∀ type ∈ method.genericArguments, alphabet.Each type.texts) ∧ alphabet.Each (textsOfLink method.link) := by
  obtain ⟨record, link⟩ := method
  unfold texts MethodRecord.texts
  simp only [Alphabet.each_append, Alphabet.each_cons, Alphabet.each_flatMap, and_assoc]

end Method

def Closure.texts (closure : Closure) : List String := closure.name :: Method.textsOfLink closure.host

namespace Origin

def Body.texts : Body → List String
  | .closure host => Method.textsOfLink host
  | .unknown | .plain => []

def Unrolled.texts (unrolled : Unrolled) : List String :=
  unrolled.name :: TypeRef.textsOfOuter unrolled.declaringType ++ Method.textsOfLink unrolled.target ++
    unrolled.body.texts

def texts (origin : Origin) : List String :=
  origin.name :: TypeRef.textsOfOuter origin.declaringType ++ Method.textsOfLink origin.target ++
    origin.closure.toList.flatMap Closure.texts

theorem machineHost_over {type outer : Option TypeRef} {host : String} (found : machineHost? type = some (host, outer))
    (clean : alphabet.Each (TypeRef.textsOfOuter type)) :
    alphabet.Over host ∧ alphabet.Each (TypeRef.textsOfOuter outer) := by
  simp only [machineHost?, Option.bind_eq_bind, Option.bind_eq_some_iff] at found
  obtain ⟨⟨space, name, arguments, enclosing, shape⟩, rfl, parts, cut, shown⟩ := found
  split at shown
  · cases shown
    unfold TypeRef.textsOfOuter TypeRef.texts at clean
    simp only [Alphabet.each_append, Alphabet.each_cons] at clean
    exact ⟨(GeneratedName.ofText_over cut (TypeRef.withoutArity_over clean.1.1.1.2.1)).1, clean.1.2⟩
  · cases shown

theorem closureOfName_over {name shown : String} {host : Option Method} {closure : Closure}
    (found : closureOfName? name host = some (shown, closure)) (clean : alphabet.Over name)
    (hostOver : alphabet.Each (Method.textsOfLink host)) : alphabet.Over shown ∧ alphabet.Each closure.texts := by
  simp only [closureOfName?, Option.bind_eq_bind, Option.bind_eq_some_iff] at found
  obtain ⟨parts, cut, kinds⟩ := found
  obtain ⟨parsedOver, suffixOver⟩ := GeneratedName.ofText_over cut clean
  split at kinds
  · cases kinds
  · split at kinds <;> cases kinds
    · exact ⟨parsedOver, Alphabet.each_cons.2 ⟨clean, hostOver⟩⟩
    · refine ⟨parsedOver, Alphabet.each_cons.2 ⟨?_, hostOver⟩⟩
      cases called : localFunctionName? parts.suffix with
      | none => exact clean
      | some called' => exact localFunctionName_over called suffixOver

theorem bodyOf_over {method : Method} (clean : alphabet.Each method.texts) : alphabet.Each (bodyOf method).texts := by
  unfold bodyOf
  split
  · exact Alphabet.each_nil
  all_goals first | exact Alphabet.each_nil | exact (Method.each_texts.1 clean).2.2.2.2

namespace Unrolled

theorem each_texts {unrolled : Unrolled} : alphabet.Each unrolled.texts ↔ alphabet.Over unrolled.name ∧
    alphabet.Each (TypeRef.textsOfOuter unrolled.declaringType) ∧
    alphabet.Each (Method.textsOfLink unrolled.target) ∧ alphabet.Each unrolled.body.texts := by
  simp only [texts, Alphabet.each_append, Alphabet.each_cons, and_assoc]

theorem itself_over {method : Method} {body : Body} (clean : alphabet.Each method.texts)
    (bodyOver : alphabet.Each body.texts) : alphabet.Each (itself method body).texts := by
  obtain ⟨nameOver, typeOver, -⟩ := Method.each_texts.1 clean
  exact each_texts.2 ⟨nameOver, typeOver, clean, bodyOver⟩

theorem ofTypeName_over {method : Method} {machine : Option Machine} (clean : alphabet.Each method.texts) :
    alphabet.Each (ofTypeName method machine).texts := by
  obtain ⟨nameOver, typeOver, -, -, -⟩ := Method.each_texts.1 clean
  unfold ofTypeName
  split
  · next host outer found =>
    obtain ⟨hostOver, outerOver⟩ := machineHost_over found typeOver
    exact each_texts.2 ⟨hostOver, outerOver, Alphabet.each_nil, Alphabet.each_nil⟩
  · exact each_texts.2 ⟨nameOver, typeOver, Alphabet.each_nil, Alphabet.each_nil⟩

theorem ofMachine_over {method : Method} {machine : Machine} (clean : alphabet.Each method.texts) :
    alphabet.Each (ofMachine method machine).texts := by
  obtain ⟨-, -, -, -, linkOver⟩ := Method.each_texts.1 clean
  unfold ofMachine
  split
  · next origin link =>
    rw [link] at linkOver
    obtain ⟨nameOver, typeOver, -, -, -⟩ := Method.each_texts.1 linkOver
    exact each_texts.2 ⟨nameOver, typeOver, linkOver, bodyOf_over linkOver⟩
  · exact ofTypeName_over clean

theorem of_over {method : Method} (clean : alphabet.Each method.texts) : alphabet.Each (of method).texts := by
  unfold of
  split
  · exact ofMachine_over clean
  · exact ofMachine_over clean
  · split
    · exact ofTypeName_over clean
    · exact itself_over clean Alphabet.each_nil
  all_goals exact itself_over clean (bodyOf_over clean)

end Unrolled

theorem ofClosure_over {method : Unrolled} {host : Option Method} (clean : alphabet.Each method.texts)
    (hostOver : alphabet.Each (Method.textsOfLink host)) :
    alphabet.Over (ofClosure method host).1 ∧ alphabet.Each (TypeRef.textsOfOuter (ofClosure method host).2.1) ∧
      alphabet.Each (ofClosure method host).2.2.texts := by
  obtain ⟨nameOver, typeOver, -, -⟩ := Unrolled.each_texts.1 clean
  have outerOver : alphabet.Each (TypeRef.textsOfOuter ((host.bind (·.declaringType)).or method.declaringType)) := by
    cases host with
    | none => exact typeOver
    | some host =>
      obtain ⟨-, hostTypeOver, -⟩ := Method.each_texts.1 hostOver
      cases declared : host.declaringType with
      | none => simpa [declared] using typeOver
      | some type => simpa [declared] using hostTypeOver
  unfold ofClosure
  cases named : closureOfName? method.name host with
  | some found =>
    obtain ⟨shownOver, closureOver⟩ := closureOfName_over named nameOver hostOver
    exact ⟨shownOver, outerOver, closureOver⟩
  | none =>
    refine ⟨?_, outerOver, Alphabet.each_cons.2 ⟨nameOver, hostOver⟩⟩
    cases host with
    | none => exact nameOver
    | some host => exact (Method.each_texts.1 hostOver).1

theorem each_texts {origin : Origin} : alphabet.Each origin.texts ↔ alphabet.Over origin.name ∧
    alphabet.Each (TypeRef.textsOfOuter origin.declaringType) ∧ alphabet.Each (Method.textsOfLink origin.target) ∧
    ∀ closure, origin.closure = some closure → alphabet.Each closure.texts := by
  simp only [texts, Alphabet.each_append, Alphabet.each_cons, Alphabet.each_flatMap, Option.mem_toList, and_assoc]

theorem sourceOfOuter_over {type : Option TypeRef} (clean : alphabet.Each (TypeRef.textsOfOuter type)) :
    alphabet.Each (TypeRef.textsOfOuter (type.bind TypeRef.source?)) := by
  cases type with
  | none => exact clean
  | some type =>
    cases source : type.source? with
    | none => simp [source, TypeRef.textsOfOuter]
    | some found =>
      rw [Option.bind_some, source]
      exact TypeRef.source_over source clean

theorem of_over {method : Method} (clean : alphabet.Each method.texts) : alphabet.Each (Origin.of method).texts := by
  have unrolledOver := Unrolled.of_over clean
  obtain ⟨nameOver, typeOver, targetOver, bodyOver⟩ := Unrolled.each_texts.1 unrolledOver
  rw [each_texts]
  unfold Origin.of
  cases body : (Unrolled.of method).body with
  | plain =>
    simp only [body]
    exact ⟨nameOver, sourceOfOuter_over typeOver, targetOver, nofun⟩
  | closure host =>
    rw [body] at bodyOver
    simp only [body]
    obtain ⟨hostNameOver, outerOver, closureOver⟩ := ofClosure_over unrolledOver bodyOver
    exact ⟨hostNameOver, sourceOfOuter_over outerOver, targetOver, by rintro _ ⟨⟩; exact closureOver⟩
  | unknown =>
    cases named : closureOfName? (Unrolled.of method).name none with
    | none =>
      simp only [body, named]
      exact ⟨nameOver, sourceOfOuter_over typeOver, targetOver, nofun⟩
    | some found =>
      simp only [body, named]
      obtain ⟨hostOver, closureOver⟩ := closureOfName_over named nameOver Alphabet.each_nil
      exact ⟨hostOver, sourceOfOuter_over typeOver, targetOver, by rintro _ ⟨⟩; exact closureOver⟩

end Origin

/-! What is shown of parameters and methods is composed of the texts of their metadata. -/

theorem elementNames_over {count : Nat} {names : List (Option String)} (clean : alphabet.Each (names.filterMap id)) :
    alphabet.Each ((elementNames count names).filterMap id) := by
  fun_induction elementNames count names with
  | case1 => exact Alphabet.each_nil
  | case2 count ih => exact ih clean
  | case3 count name names ih =>
    cases name with
    | none => exact ih clean
    | some name =>
      obtain ⟨nameOver, namesOver⟩ := Alphabet.each_cons.1 clean
      by_cases blank : name = ""
      · simpa [blank] using ih namesOver
      · rw [Option.filter_some_pos (by simpa using blank)]
        exact Alphabet.each_cons.2 ⟨nameOver, ih namesOver⟩

namespace Tuple

theorem each_texts {tuple : Tuple} : alphabet.Each tuple.texts ↔
    (∀ wrapper, tuple.wrapper = some wrapper → alphabet.Over wrapper) ∧ alphabet.Each tuple.types ∧
      alphabet.Each (tuple.names.filterMap id) := by
  simp only [texts, Alphabet.each_append, Alphabet.each_toList, and_assoc]

theorem of_over {type : TypeRef} {names : List (Option String)} {tuple : Tuple}
    (found : Tuple.of? type names = some tuple) (clean : alphabet.Each type.texts)
    (namesOver : alphabet.Each (names.filterMap id)) : alphabet.Each tuple.texts := by
  obtain ⟨space, name, arguments, enclosing, shape⟩ := type
  unfold TypeRef.texts at clean
  simp only [Alphabet.each_append, Alphabet.each_toList, Alphabet.each_cons] at clean
  obtain ⟨⟨⟨⟨spaceOver, nameOver, -⟩, argumentsOver⟩, outerOver⟩, -⟩ := clean
  unfold Tuple.of? at found
  split at found
  · obtain rfl := Option.some.inj found
    refine each_texts.2 ⟨?_, TypeRef.displayEach_over arguments argumentsOver, elementNames_over namesOver⟩
    rintro _ ⟨⟩
  · split at found
    · next inner only =>
      obtain rfl : arguments = [inner] := only
      split at found
      · obtain rfl := Option.some.inj found
        obtain ⟨innerSpace, innerName, elements, innerOuter, innerShape⟩ := inner
        unfold TypeRef.textsOfEach TypeRef.texts at argumentsOver
        simp only [Alphabet.each_append] at argumentsOver
        refine each_texts.2 ⟨?_, TypeRef.displayEach_over elements argumentsOver.1.1.1.2, elementNames_over namesOver⟩
        rintro _ ⟨⟩
        have outerShown := TypeRef.displayOuter_over false enclosing outerOver
        exact Alphabet.over_append.2 ⟨TypeRef.qualifier_over spaceOver outerShown, TypeRef.withoutArity_over nameOver⟩
      · cases found
    · cases found

end Tuple

namespace Parameter

theorem keyword_mem {modifier : Modifier} {isRef : Bool} {keyword : String}
    (found : modifier.keyword?.or (if isRef then some "ref" else none) = some keyword) :
    keyword ∈ ["ref", "out", "in", "params"] := by
  cases modifier <;> cases isRef <;> cases found <;> decide

theorem keyword_over {modifier : Modifier} {isRef : Bool} {keyword : String}
    (found : modifier.keyword?.or (if isRef then some "ref" else none) = some keyword) : alphabet.Over keyword := by
  have fixed : ∀ keyword ∈ ["ref", "out", "in", "params"], keyword.toList.all isFixed = true := by decide
  exact Alphabet.over_of_fixed (fixed keyword (keyword_mem found))

theorem referent_over {type : TypeRef} (clean : alphabet.Each type.texts) : alphabet.Each type.referent.1.texts := by
  obtain ⟨space, name, arguments, enclosing, shape⟩ := type
  cases shape with
  | byRef element =>
    unfold TypeRef.texts at clean
    exact (Alphabet.each_append.1 clean).2
  | _ => exact clean

theorem resolve_over {parameter : Parameter} (clean : alphabet.Each parameter.texts) :
    alphabet.Each parameter.resolve.texts := by
  simp only [texts, Alphabet.each_append, Alphabet.each_toList] at clean
  obtain ⟨⟨nameOver, typeOver⟩, namesOver⟩ := clean
  have referentOver := referent_over typeOver
  simp only [ResolvedParameter.texts, resolve, Alphabet.each_append, Alphabet.each_cons, Alphabet.each_toList,
    Alphabet.each_flatMap, Option.mem_toList]
  refine ⟨⟨?_, TypeRef.display_over false _ referentOver, fun keyword => keyword_over⟩, ?_⟩
  · intro name found
    exact nameOver name (Option.eq_some_of_filter_eq_some found)
  · intro tuple found
    obtain ⟨names, given, found⟩ := Option.bind_eq_some_iff.1 found
    rw [given] at namesOver
    exact Tuple.of_over found referentOver namesOver

end Parameter

theorem shownArguments_over {arguments : List TypeRef} {runtime : Option TypeRef}
    (clean : ∀ type ∈ arguments, alphabet.Each type.texts)
    (runtimeOver : alphabet.Each (TypeRef.textsOfOuter runtime)) :
    ∀ type ∈ shownArguments arguments runtime, alphabet.Each type.texts := by
  unfold shownArguments
  split
  · exact clean
  · next type =>
    obtain ⟨space, name, given, enclosing, shape⟩ := type
    unfold TypeRef.textsOfOuter TypeRef.texts at runtimeOver
    simp only [Alphabet.each_append, TypeRef.textsOfEach_eq_flatMap, Alphabet.each_flatMap] at runtimeOver
    obtain ⟨⟨⟨-, givenOver⟩, -⟩, -⟩ := runtimeOver
    split
    · intro shown member
      obtain ⟨index, bound, rfl⟩ := List.mem_iff_getElem.1 member
      rw [List.getElem_zipWith, instantiated]
      split
      · exact givenOver _ (List.mem_of_mem_drop (List.getElem_mem _))
      · exact clean _ (List.getElem_mem _)
    · exact clean

theorem genericDisplay_over {arguments : List TypeRef} {runtime : Option TypeRef} {shown : String}
    (found : genericDisplay? arguments runtime = some shown) (clean : ∀ type ∈ arguments, alphabet.Each type.texts)
    (runtimeOver : alphabet.Each (TypeRef.textsOfOuter runtime)) : alphabet.Over shown := by
  apply TypeRef.angled_over found
  apply TypeRef.displayEach_over
  rw [TypeRef.textsOfEach_eq_flatMap, Alphabet.each_flatMap]
  exact shownArguments_over clean runtimeOver

namespace Method

theorem parameters_over {method : Method} {parameters : List ResolvedParameter}
    (known : method.parameters? = .ok parameters) (clean : alphabet.Each method.texts) :
    ∀ parameter ∈ parameters, alphabet.Each parameter.texts := by
  obtain ⟨-, -, parametersOver, -⟩ := each_texts.1 clean
  unfold parameters? at known
  split at known
  · cases known
  · cases known
    intro parameter member
    obtain ⟨source, found, rfl⟩ := List.mem_map.1 member
    exact source.resolve_over (parametersOver source (by simp [found]))

theorem targetParameters_over {origin : Origin} {parameters : Option (List ResolvedParameter)}
    (known : targetParameters? origin = .ok parameters) (clean : alphabet.Each origin.texts) :
    ∀ parameter ∈ parameters.getD [], alphabet.Each parameter.texts := by
  obtain ⟨-, -, targetOver, -⟩ := Origin.each_texts.1 clean
  unfold targetParameters? at known
  split at known
  · next target found =>
    rw [found] at targetOver
    cases told : target.parameters? with
    | error failure => rw [told] at known; cases known
    | ok shown =>
      rw [told] at known
      cases known
      exact parameters_over told targetOver
  · cases known
    simp

theorem hostParameters_over {host : Option Method} (clean : alphabet.Each (textsOfLink host)) :
    ∀ parameter ∈ hostParameters host, alphabet.Each parameter.texts := by
  cases host with
  | none => simp [hostParameters]
  | some host =>
    unfold hostParameters
    cases told : host.parameters? with
    | error failure => simp [told]
    | ok shown => simpa [told] using parameters_over told clean

theorem genericSource_over {origin : Origin} {source : Method} (found : genericSource? origin = some source)
    (clean : alphabet.Each origin.texts) : alphabet.Each source.texts := by
  obtain ⟨-, -, targetOver, closureOver⟩ := Origin.each_texts.1 clean
  rcases Option.or_eq_some_iff.1 found with inHost | ⟨-, inTarget⟩
  · obtain ⟨closure, present, host⟩ := Option.bind_eq_some_iff.1 inHost
    have each := closureOver closure present
    rw [Closure.texts, host, Alphabet.each_cons] at each
    exact each.2
  · rw [inTarget] at targetOver
    exact targetOver

end Method

namespace ResolvedMethod

theorem each_texts {method : ResolvedMethod} : alphabet.Each method.texts ↔
    (∀ type, method.declaringType = some type → alphabet.Over type) ∧ alphabet.Over method.name ∧
    (∀ generics, method.generics = some generics → alphabet.Over generics) ∧
    (∀ returned, method.returns = some returned → alphabet.Each returned.texts) ∧
    (∀ parameter ∈ method.parameters, alphabet.Each parameter.texts) ∧
    (∀ parameter ∈ method.subParameters.getD [], alphabet.Each parameter.texts) ∧
    (∀ name, method.subName = some name → alphabet.Over name) := by
  simp only [texts, Alphabet.each_append, Alphabet.each_cons, Alphabet.each_toList, Alphabet.each_flatMap,
    List.forall_mem_append, Option.mem_toList, and_assoc]

end ResolvedMethod

namespace Method

def shownWith (method : Method) (parameters : Option (List ResolvedParameter)) : ResolvedMethod :=
  let origin := Origin.of method
  { outline origin with
    generics := (genericSource? origin).bind fun source =>
      genericDisplay? source.genericArguments method.declaringType
    isLambda := origin.closure.isSome
    ordinal := origin.closure.bind (·.ordinal)
    subName := origin.closure.map (·.name)
    subParameters := origin.closure.bind fun _ => parameters
    parameters := match origin.closure with
      | some closure => hostParameters closure.host
      | none => parameters.getD []
    kind := match origin.closure with
      | some _ => .method
      | none => .ofName origin.name }

section shownWith

variable (method : Method) (known : Option (List ResolvedParameter))

theorem isLambda_shownWith : (method.shownWith known).isLambda = (Origin.of method).closure.isSome := rfl

theorem ordinal_shownWith : (method.shownWith known).ordinal = (Origin.of method).closure.bind (·.ordinal) := rfl

theorem subName_shownWith : (method.shownWith known).subName = (Origin.of method).closure.map (·.name) := rfl

theorem subParameters_shownWith :
    (method.shownWith known).subParameters = (Origin.of method).closure.bind fun _ => known := rfl

theorem parameters_shownWith : (method.shownWith known).parameters =
    ((Origin.of method).closure.map fun closure => hostParameters closure.host).getD (known.getD []) := by
  unfold shownWith
  cases closed : (Origin.of method).closure <;> simp [closed]

theorem kind_shownWith : (method.shownWith known).kind =
    ((Origin.of method).closure.map fun _ => .method).getD (.ofName (Origin.of method).name) := by
  unfold shownWith
  cases closed : (Origin.of method).closure <;> simp [closed]

end shownWith

theorem resolve_eq_map (method : Method) :
    method.resolve = (targetParameters? (Origin.of method)).map method.shownWith := by
  unfold resolve shownWith
  generalize Origin.of method = origin
  obtain ⟨target, name, type, machine, closure⟩ := origin
  cases known : targetParameters? ⟨target, name, type, machine, closure⟩ with
  | error failure => simp only [known]; rfl
  | ok parameters => simp only [known]; cases closure <;> rfl

theorem exists_shownWith {method : Method} {shown : ResolvedMethod} (resolved : method.resolve = .ok shown) :
    ∃ known, targetParameters? (Origin.of method) = .ok known ∧ shown = method.shownWith known := by
  rw [resolve_eq_map] at resolved
  cases told : targetParameters? (Origin.of method) with
  | error failure =>
    rw [told] at resolved
    cases resolved
  | ok known =>
    rw [told] at resolved
    exact ⟨known, rfl, (Except.ok.inj resolved).symm⟩

theorem shownWith_over {method : Method} {parameters : Option (List ResolvedParameter)}
    (clean : alphabet.Each method.texts)
    (parametersOver : ∀ parameter ∈ parameters.getD [], alphabet.Each parameter.texts) :
    alphabet.Each (method.shownWith parameters).texts := by
  have originOver := Origin.of_over clean
  obtain ⟨nameOver, typeOver, targetOver, closureOver⟩ := Origin.each_texts.1 originOver
  refine ResolvedMethod.each_texts.2 ⟨?_, nameOver, ?_, ?_, ?_, ?_, ?_⟩
  · intro type found
    exact TypeRef.displayOuter_over true _ typeOver type (by rw [TypeRef.displayOuter_eq_map]; exact found)
  · intro generics found
    obtain ⟨source, chosen, display⟩ := Option.bind_eq_some_iff.1 found
    obtain ⟨-, -, -, argumentsOver, -⟩ := each_texts.1 (genericSource_over chosen originOver)
    exact genericDisplay_over display argumentsOver (each_texts.1 clean).2.1
  · intro returned found
    obtain ⟨target, present, told⟩ := Option.bind_eq_some_iff.1 found
    obtain ⟨source, given, rfl⟩ := Option.map_eq_some_iff.1 told
    rw [present] at targetOver
    exact source.resolve_over ((each_texts.1 targetOver).2.2.1 source (by simp [given]))
  · unfold shownWith
    cases closed : (Origin.of method).closure with
    | none => simpa [closed] using parametersOver
    | some closure =>
      have hostOver := (Alphabet.each_cons.1 (closureOver closure closed)).2
      simpa [closed] using hostParameters_over hostOver
  · change ∀ parameter ∈ ((Origin.of method).closure.bind fun _ => parameters).getD [], _
    cases (Origin.of method).closure with
    | none => simp
    | some closure => exact parametersOver
  · intro name found
    obtain ⟨closure, closed, rfl⟩ := Option.map_eq_some_iff.1 found
    exact (Alphabet.each_cons.1 (closureOver closure closed)).1

/-- What is shown of a method is over every alphabet that its metadata is over. -/
theorem resolve_over {method : Method} {shown : ResolvedMethod} (resolved : method.resolve = .ok shown)
    (clean : alphabet.Each method.texts) : alphabet.Each shown.texts := by
  obtain ⟨known, told, rfl⟩ := exists_shownWith resolved
  exact shownWith_over clean (targetParameters_over told (Origin.of_over clean))

end Method

end Backtrace
