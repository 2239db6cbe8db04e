import Backtrace.TypeRef

/-!
How a named type is spelled: by a keyword, with a question mark, as a tuple, or by its bare name with its arguments
behind that. The bare name has the type around it in front, with a dot, unless the inner type passes for a nullable
value or for a tuple: those are told by their own namespace and name, wherever they stand.
-/
namespace Backtrace.TypeRef

variable {type : TypeRef}

theorem display_named (named : type.isNamed = true) (full : Bool) :
    type.display full =
      displayNamed full type.space type.name (displayEach type.arguments) (displayOuter full type.enclosing) := by
  obtain ⟨space, name, arguments, enclosing, shape⟩ := type
  cases shape with
  | named => rw [display]
  | genericParameter | array _ _ | pointer _ | byRef _ => cases named

theorem length_displayEach (types : List TypeRef) : (displayEach types).length = types.length := by
  rw [displayEach_eq_map, List.length_map]

theorem isSome_displayOuter (full : Bool) (outer : Option TypeRef) :
    (displayOuter full outer).isSome = outer.isSome := by
  rw [displayOuter_eq_map, Option.isSome_map]

theorem isNamed_of_isValueTuple (tuple : type.isValueTuple = true) : type.isNamed = true :=
  (Bool.and_eq_true_iff.1 tuple).1

theorem isNamed_of_isNullable (nullable : type.isNullable = true) : type.isNamed = true :=
  (Bool.and_eq_true_iff.1 nullable).1

theorem keyword?_of_lookup {name : String} (wordless : keywords.lookup (withoutArity name) = none)
    (space : Option String) (nested : Bool) : keyword? space name nested = none := by
  unfold keyword?
  rw [wordless]
  split <;> rfl

theorem keyword?_nested (space : Option String) (name : String) : keyword? space name true = none := by
  simp [keyword?]

theorem display_of_keyword {keyword : String} (named : type.isNamed = true)
    (found : keyword? type.space type.name type.enclosing.isSome = some keyword) (full : Bool) :
    type.display full = keyword := by
  rw [display_named named, displayNamed, isSome_displayOuter, found]

theorem display_of_isValueTuple (tuple : type.isValueTuple = true) (full : Bool) :
    type.display full = "(" ++ ", ".intercalate (displayEach type.arguments) ++ ")" := by
  have spelled : spellsTuple type.space type.name type.arguments.length = true := (Bool.and_eq_true_iff.1 tuple).2
  have called : withoutArity type.name = "ValueTuple" := by
    simp only [spellsTuple, Bool.and_eq_true, decide_eq_true_eq] at spelled
    exact spelled.1.2
  have wordless : keywords.lookup (withoutArity type.name) = none := by
    rw [called]
    rfl
  have nullable (arguments : Nat) : spellsNullable type.space type.name arguments = false := by
    simp [spellsNullable, called]
  rw [display_named (isNamed_of_isValueTuple tuple), displayNamed, keyword?_of_lookup wordless, length_displayEach]
  simp only [nullable, spelled, Bool.false_eq_true, if_false, if_true]

theorem display_of_not_tuple (named : type.isNamed = true) (notTuple : type.isValueTuple = false) (full : Bool) :
    type.display full =
      match keyword? type.space type.name type.enclosing.isSome with
      | some keyword => keyword
      | none =>
        if type.isNullable then (displayEach type.arguments).headD "" ++ "?"
        else type.displayBare full ++ (displayArguments? type.arguments).getD "" := by
  have spelled : spellsTuple type.space type.name type.arguments.length = false := by
    simpa [isValueTuple, named] using notTuple
  rw [display_named named, displayNamed, isSome_displayOuter, length_displayEach]
  simp only [spelled, isNullable, named, Bool.true_and, Bool.false_eq_true, if_false]
  rfl

/-- A type that is not named by a keyword, as nullable or as a tuple has its bare name and its arguments. -/
theorem display_plain (named : type.isNamed = true) (full : Bool)
    (wordless : keyword? type.space type.name type.enclosing.isSome = none) (notNullable : type.isNullable = false)
    (notTuple : type.isValueTuple = false) :
    type.display full = type.displayBare full ++ (displayArguments? type.arguments).getD "" := by
  rw [display_of_not_tuple named notTuple, wordless, notNullable]
  rfl

theorem simpleName_of_isNullable (nullable : type.isNullable = true) : type.simpleName = "Nullable" := by
  simp only [isNullable, spellsNullable, Bool.and_eq_true, decide_eq_true_eq] at nullable
  exact nullable.2.1.2

theorem isValueTuple_of_isNullable (nullable : type.isNullable = true) : type.isValueTuple = false := by
  have called : withoutArity type.name = "Nullable" := simpleName_of_isNullable nullable
  simp [isValueTuple, spellsTuple, called]

theorem display_of_isNullable (nullable : type.isNullable = true) (full : Bool) :
    type.display full = (displayEach type.arguments).headD "" ++ "?" := by
  have wordless : keywords.lookup (withoutArity type.name) = none := by
    rw [← simpleName, simpleName_of_isNullable nullable]
    rfl
  rw [display_of_not_tuple (isNamed_of_isNullable nullable) (isValueTuple_of_isNullable nullable),
    keyword?_of_lookup wordless, nullable]
  rfl

theorem append_singleton_ne (front other : String) {last different : Char} (differ : last ≠ different) :
    front ++ String.singleton last ≠ other ++ String.singleton different := by
  intro same
  have lists := congrArg (fun text => text.toList.getLast?) same
  simp only [String.toList_append, String.toList_singleton, List.getLast?_append, List.getLast?_singleton,
    Option.some_or] at lists
  exact differ (Option.some.inj lists)

/-! ### Types inside other types -/

variable {outer : TypeRef}

/-- What a type inside another one is called: the type around it, a dot, its own name and its arguments. -/
def nestedText (type outer : TypeRef) (full : Bool) : String :=
  outer.display full ++ "." ++ type.simpleName ++ (displayArguments? type.arguments).getD ""

theorem displayBare_nested (nested : type.enclosing = some outer) (full : Bool) :
    type.displayBare full = outer.display full ++ "." ++ type.simpleName := by
  rw [displayBare, nested]
  rfl

theorem display_nested (named : type.isNamed = true) (nested : type.enclosing = some outer)
    (notNullable : type.isNullable = false) (notTuple : type.isValueTuple = false) (full : Bool) :
    type.display full = nestedText type outer full := by
  have wordless : keyword? type.space type.name type.enclosing.isSome = none := by
    rw [nested]
    exact keyword?_nested type.space type.name
  rw [display_plain named full wordless notNullable notTuple, displayBare_nested nested]
  rfl

theorem exists_nestedText_eq (type outer : TypeRef) (generic : type.arguments ≠ []) (full : Bool) :
    ∃ front, nestedText type outer full = front ++ String.singleton '>' := by
  obtain ⟨argument, others, some_⟩ := List.exists_cons_of_ne_nil generic
  have angled : displayArguments? type.arguments =
      some ("<" ++ ", ".intercalate (displayEach type.arguments) ++ String.singleton '>') := by
    rw [some_]
    rfl
  rw [nestedText, angled, Option.getD_some, ← String.append_assoc]
  exact ⟨_, rfl⟩

theorem nestedText_ne (generic : type.arguments ≠ []) (full : Bool) (front : String) {mark : Char}
    (other : mark ≠ '>') : front ++ String.singleton mark ≠ nestedText type outer full := by
  obtain ⟨before, text⟩ := exists_nestedText_eq type outer generic full
  rw [text]
  exact append_singleton_ne front before other

theorem arguments_of_isNullable (nullable : type.isNullable = true) : type.arguments ≠ [] := by
  rintro empty
  simp [isNullable, spellsNullable, empty] at nullable

theorem arguments_of_isValueTuple (tuple : type.isValueTuple = true) : type.arguments ≠ [] := by
  rintro empty
  simp [isValueTuple, spellsTuple, empty] at tuple

/-- A named type inside another one is called after that one exactly where it does not pass for a nullable value or a
tuple. It never goes by a keyword. -/
theorem nested_display_iff (named : type.isNamed = true) (nested : type.enclosing = some outer) (full : Bool) :
    (type.display full = outer.display full ++ "." ++ type.simpleName ++ (displayArguments? type.arguments).getD "" ↔
      type.isNullable = false ∧ type.isValueTuple = false) ∧
    keyword? type.space type.name type.enclosing.isSome = none := by
  refine ⟨⟨fun called => ⟨?_, ?_⟩, fun plain => display_nested named nested plain.1 plain.2 full⟩, ?_⟩
  · refine Bool.eq_false_iff.2 fun nullable => ?_
    rw [display_of_isNullable nullable] at called
    exact nestedText_ne (arguments_of_isNullable nullable) full _ (by decide : '?' ≠ '>') called
  · refine Bool.eq_false_iff.2 fun tuple => ?_
    rw [display_of_isValueTuple tuple] at called
    exact nestedText_ne (arguments_of_isValueTuple tuple) full _ (by decide : ')' ≠ '>') called
  · rw [nested]
    exact keyword?_nested type.space type.name

/-- A type inside another one that has the name of a keyword's type. -/
theorem nested_display_of_keyword :
    let outer := TypeRef.qualified "System" "Outer"
    let type := ((TypeRef.qualified "System" "Int32\x601").instantiate [.genericParameter "T"]).nestedIn outer
    type.isNamed = true ∧ type.enclosing = some outer ∧
      type.display true = outer.display true ++ "." ++ type.simpleName ++ (displayArguments? type.arguments).getD "" ∧
      type.display true = "System.Outer.Int32<T>" := by
  intro outer type
  exact ⟨rfl, rfl, (nested_display_iff rfl rfl true).1.2 ⟨by decide, by decide⟩, by decide⟩

/-- The type around is lost where the inner type passes for a nullable value. -/
theorem nested_nullable_display_differs :
    let outer := TypeRef.qualified "System" "Outer"
    let type := ((TypeRef.qualified "System" "Nullable").instantiate [.qualified "System" "Int32"]).nestedIn outer
    type.isNamed = true ∧ type.enclosing = some outer ∧ type.display false = "int?" ∧
      outer.display false ++ "." ++ type.simpleName ++ (displayArguments? type.arguments).getD "" =
        "Outer.Nullable<int>" := by
  intro outer type
  exact ⟨rfl, rfl, by decide, by decide⟩

end Backtrace.TypeRef
