import Backtrace.Proofs.TypeRef.Spellings
import Backtrace.Render
import Backtrace.Resolved

/-!
Tuples with the names of their elements, and the names of their types. The text of a tuple is the name of its type
with the element names put in, as long as the type around the tuple has no spelling of its own.
-/
namespace Backtrace

namespace TypeRef

/-- Whether a named type is spelled by its bare name, with its arguments behind that in angle brackets unless they
are the elements of a tuple. -/
def SpelledPlainly (type : TypeRef) : Prop :=
  type.isNamed = true ∧ keyword? type.space type.name type.enclosing.isSome = none ∧ type.isNullable = false

end TypeRef

namespace Tuple

def unnamed (tuple : Tuple) : Tuple := { tuple with names := tuple.names.map fun _ => none }

theorem elements_unnamed {types : List String} (filled : ∀ type ∈ types, type ≠ "") (names : List (Option String)) :
    elements types (names.map fun _ => none) = types := by
  induction types generalizing names with
  | nil => rfl
  | cons type types ih =>
    obtain ⟨first, others⟩ := List.forall_mem_cons.1 filled
    have shown : orPlaceholder type = type := if_neg first
    cases names with
    | nil => rw [List.map_nil, elements, shown, ← List.map_nil, ih others]
    | cons name names => rw [List.map_cons, elements, shown, ih others]

theorem of?_cases {type : TypeRef} {names : List (Option String)} {tuple : Tuple}
    (recorded : of? type names = some tuple) :
    (type.isValueTuple = true ∧ tuple = ofElements none type.arguments names) ∨
    type.isValueTuple = false ∧ ∃ inner, type.arguments = [inner] ∧ inner.isValueTuple = true ∧
      tuple = ofElements (some (type.displayBare false)) inner.arguments names := by
  unfold of? at recorded
  split at recorded
  · next itself => exact .inl ⟨itself, (Option.some.inj recorded).symm⟩
  · next other =>
    split at recorded
    · next inner only =>
      split at recorded
      · next tuple => exact .inr ⟨Bool.eq_false_iff.2 other, inner, only, tuple, (Option.some.inj recorded).symm⟩
      · cases recorded
    · cases recorded

theorem text_unnamed {elements : List TypeRef} {wrapper : Option String} {names : List (Option String)}
    (filled : ∀ type ∈ TypeRef.displayEach elements, type ≠ "") :
    (ofElements wrapper elements names).unnamed.text =
      let inner := "(" ++ ", ".intercalate (TypeRef.displayEach elements) ++ ")"
      match wrapper with
      | some wrapper => wrapper ++ "<" ++ inner ++ ">"
      | none => inner := by
  cases wrapper <;> simp only [text, unnamed, ofElements, elements_unnamed filled]

end Tuple

namespace TypeRef

theorem keyword_ne {space : Option String} {name keyword front behind : String} {nested : Bool}
    (found : keyword? space name nested = some keyword) : keyword ≠ front ++ "<" ++ behind := by
  rintro rfl
  unfold keyword? at found
  split at found
  · obtain ⟨before, after, parts, -⟩ := List.lookup_eq_some_iff.1 found
    have plain : keywords.all (!·.2.toList.contains '<') = true := by decide
    have member := List.all_eq_true.1 plain (withoutArity name, front ++ "<" ++ behind) (by simp [parts])
    simp at member
  · cases found

theorem wrapped_eq_display_of_named {type inner : TypeRef} (named : type.isNamed = true)
    (other : type.isValueTuple = false) (only : type.arguments = [inner]) :
    type.displayBare false ++ "<" ++ inner.display false ++ ">" = type.display false ↔ type.SpelledPlainly := by
  rw [display_of_not_tuple named other, SpelledPlainly]
  cases found : keyword? type.space type.name type.enclosing.isSome with
  | some keyword =>
    refine iff_of_false (fun same => ?_) (by simp)
    exact keyword_ne found (same.symm.trans String.append_assoc)
  | none =>
    cases nullable : type.isNullable with
    | true =>
      refine iff_of_false (fun same => ?_) (by simp)
      exact append_singleton_ne _ _ (by decide : '>' ≠ '?') same
    | false =>
      refine iff_of_true ?_ ⟨named, rfl, rfl⟩
      have behind : displayArguments? type.arguments = some ("<" ++ inner.display false ++ ">") := by
        rw [only]
        rfl
      simp [behind, String.append_assoc]

/-- A type around a tuple is named by its bare name and the tuple in angle brackets exactly where it has no other
spelling, or refers to a type that happens to be named so. -/
theorem wrapped_eq_display_iff {type inner : TypeRef} (other : type.isValueTuple = false)
    (only : type.arguments = [inner]) :
    let wrapped := type.displayBare false ++ "<" ++ inner.display false ++ ">"
    wrapped = type.display false ↔
      type.SpelledPlainly ∨ ∃ element, type.shape = .byRef element ∧ element.display false = wrapped := by
  intro wrapped
  by_cases named : type.isNamed = true
  · rw [wrapped_eq_display_of_named named other only, or_iff_left]
    rintro ⟨element, reference, -⟩
    rw [isNamed, reference] at named
    cases named
  · rw [or_iff_right fun plain => named plain.1]
    obtain ⟨space, name, arguments, enclosing, shape⟩ := type
    cases shape with
    | named => exact absurd rfl named
    | byRef element =>
      rw [display]
      exact ⟨fun same => ⟨element, rfl, same.symm⟩, by rintro ⟨_, ⟨⟩, same⟩; exact same.symm⟩
    | pointer element =>
      refine iff_of_false (fun same => ?_) (by simp)
      rw [display] at same
      exact append_singleton_ne _ _ (by decide : '>' ≠ '*') same
    | array element rank =>
      refine iff_of_false (fun same => ?_) (by simp)
      rw [display, brackets, ← String.append_assoc] at same
      exact append_singleton_ne _ _ (by decide : '>' ≠ ']') same
    | genericParameter =>
      refine iff_of_false (fun same => ?_) (by simp)
      have lengths := congrArg String.length same
      rw [display] at lengths
      simp only [wrapped, displayBare, simpleName, String.length_append] at lengths
      have bracket : "<".length = 1 := rfl
      omega

end TypeRef

/-- The text of a recorded tuple without names is the name of its type exactly where that is a tuple itself, or is
spelled plainly around one. -/
theorem Tuple.text_unnamed_eq_display_iff {type : TypeRef} {names : List (Option String)} {tuple : Tuple}
    (recorded : of? type names = some tuple) (filled : ∀ element ∈ tuple.types, element ≠ "") :
    tuple.unnamed.text = type.display false ↔ type.isValueTuple = true ∨ type.SpelledPlainly ∨
      ∃ element, type.shape = .byRef element ∧ element.display false = tuple.unnamed.text := by
  rcases of?_cases recorded with ⟨itself, rfl⟩ | ⟨other, inner, only, within, rfl⟩
  · refine iff_of_true ?_ (.inl itself)
    rw [text_unnamed filled, TypeRef.display_of_isValueTuple itself]
  · have wrapped : (ofElements (some (type.displayBare false)) inner.arguments names).unnamed.text =
        type.displayBare false ++ "<" ++ inner.display false ++ ">" := by
      rw [text_unnamed filled, TypeRef.display_of_isValueTuple within]
    rw [or_iff_right (by simp [other]), wrapped]
    exact TypeRef.wrapped_eq_display_iff other only

def ResolvedParameter.unnamed (shown : ResolvedParameter) : ResolvedParameter :=
  { shown with tuple := shown.tuple.map Tuple.unnamed }

/-- The text of a parameter's type whose tuple elements have names. Without the names it is the name of the type, or
of the type that a reference refers to, exactly where that type is a tuple itself or is spelled plainly around one;
a reference to a reference has to refer to a type that is named like the text. -/
theorem unnamed_type_text_iff (parameter : Parameter) {tuple : Tuple}
    (recorded : parameter.resolve.tuple = some tuple) (filled : ∀ element ∈ tuple.types, element ≠ "") :
    let type := parameter.type.referent.1
    let text := parameter.resolve.unnamed.typeText
    text = type.display false ↔ type.isValueTuple = true ∨ type.SpelledPlainly ∨
      ∃ element, type.shape = .byRef element ∧ element.display false = text := by
  intro type text
  obtain ⟨names, -, found⟩ := Option.bind_eq_some_iff.1 recorded
  have shown : text = tuple.unnamed.text := by
    simp only [text, ResolvedParameter.typeText, ResolvedParameter.unnamed, recorded, Option.map_some]
  rw [shown]
  exact Tuple.text_unnamed_eq_display_iff found filled

/-- A list of tuples, passed by reference. -/
theorem unnamed_type_text_of_list :
    let pair := TypeRef.tupleOf [.qualified "System" "Int32", .qualified "System" "String"]
    let list := (TypeRef.qualified "System.Collections.Generic" "List\x601").instantiate [pair]
    let parameter : Parameter := { type := .byRefTo list, tupleNames := some [some "id"] }
    parameter.resolve.typeText = "List<(int id, string)>" ∧
      parameter.resolve.unnamed.typeText = list.display false ∧ list.display false = "List<(int, string)>" := by
  intro pair list parameter
  have recorded : parameter.resolve.tuple = some ⟨some "List", ["int", "string"], [some "id", none]⟩ := by decide
  exact ⟨by decide, (unnamed_type_text_iff parameter recorded (by decide)).2 (.inr (.inl ⟨rfl, by decide, by decide⟩)),
    by decide⟩

/-- A nullable tuple has a spelling of its own, which it loses where its elements have names. -/
theorem nullable_tuple_text_differs :
    let pair := TypeRef.tupleOf [.qualified "System" "Int32", .qualified "System" "String"]
    let nullable := (TypeRef.qualified "System" "Nullable\x601").instantiate [pair]
    let parameter : Parameter := { type := nullable, tupleNames := some [some "x"] }
    parameter.resolve.tuple = some ⟨some "Nullable", ["int", "string"], [some "x", none]⟩ ∧
      nullable.display false = "(int, string)?" ∧
      parameter.resolve.unnamed.typeText = "Nullable<(int, string)>" := by
  intro pair nullable parameter
  exact ⟨by decide, by decide, by decide⟩

end Backtrace
