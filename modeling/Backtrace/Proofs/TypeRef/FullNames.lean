import Backtrace.Proofs.TypeRef.Spellings

/-!
Full and short names. A full name is the short one with at most a namespace in front: that of the outermost type, which
is found from an array, a pointer or a reference by way of its element, and from a type inside another one by way of
that. Generic parameters, keywords, nullable values and tuples have no namespace in front, whatever is in them.
-/
namespace Backtrace.TypeRef

variable {type inner last met : TypeRef} {front : String}

/-- The type that a type's name starts with: the element of an array, pointer or reference, or the type around a named
one. -/
def leading? (type : TypeRef) : Option TypeRef :=
  match type.shape with
  | .named => type.enclosing
  | .genericParameter => none
  | .array element _ | .pointer element | .byRef element => some element

inductive LeadsTo : TypeRef → TypeRef → Prop
  | itself (type : TypeRef) : LeadsTo type type
  | step {type inner met : TypeRef} (found : type.leading? = some inner) (way : LeadsTo inner met) : LeadsTo type met

/-- A type whose name is the same in full and in short: a generic parameter, a type with a keyword, a nullable value or
a tuple. -/
def SpelledApart (type : TypeRef) : Prop :=
  type.isGenericParameter = true ∨
    type.isNamed = true ∧ (keyword? type.space type.name type.enclosing.isSome).isSome = true ∨
    type.isNullable = true ∨ type.isValueTuple = true

theorem sizeOf_leading_lt (found : type.leading? = some inner) : sizeOf inner < sizeOf type := by
  obtain ⟨space, name, arguments, enclosing, shape⟩ := type
  cases shape with
  | genericParameter => cases found
  | named =>
    obtain rfl : enclosing = some inner := found
    simp only [mk.sizeOf_spec, Option.some.sizeOf_spec]
    omega
  | array _ _ | pointer _ | byRef _ =>
    cases found
    simp only [mk.sizeOf_spec, Shape.array.sizeOf_spec, Shape.pointer.sizeOf_spec, Shape.byRef.sizeOf_spec]
    omega

theorem display_of_isGenericParameter (parameter : type.isGenericParameter = true) (full : Bool) :
    type.display full = type.simpleName := by
  obtain ⟨space, name, arguments, enclosing, shape⟩ := type
  cases shape with
  | genericParameter =>
    rw [display]
    rfl
  | named | array _ _ | pointer _ | byRef _ => cases parameter

theorem display_of_spelledApart (apart : type.SpelledApart) : type.display true = type.display false := by
  rcases apart with parameter | ⟨named, word⟩ | nullable | tuple
  · rw [display_of_isGenericParameter parameter, display_of_isGenericParameter parameter]
  · obtain ⟨keyword, found⟩ := Option.isSome_iff_exists.1 word
    rw [display_of_keyword named found, display_of_keyword named found]
  · rw [display_of_isNullable nullable, display_of_isNullable nullable]
  · rw [display_of_isValueTuple tuple, display_of_isValueTuple tuple]

theorem spellings_of_plain (named : type.isNamed = true) (plain : ¬type.SpelledApart) :
    keyword? type.space type.name type.enclosing.isSome = none ∧ type.isNullable = false ∧
      type.isValueTuple = false := by
  simp only [SpelledApart, named, true_and, not_or, Bool.not_eq_true, Option.isSome_eq_false_iff,
    Option.isNone_iff_eq_none] at plain
  exact plain.2

/-- A name starts with that of the leading type, and goes on in the same way in full and in short. -/
theorem display_of_leading (found : type.leading? = some inner) (plain : ¬type.SpelledApart) :
    ∃ rest, ∀ full, type.display full = inner.display full ++ rest := by
  obtain ⟨space, name, arguments, enclosing, shape⟩ := type
  cases shape with
  | named =>
    obtain ⟨-, notNullable, notTuple⟩ := spellings_of_plain rfl plain
    refine ⟨"." ++ (withoutArity name ++ (displayArguments? arguments).getD ""), fun full => ?_⟩
    rw [display_nested rfl found notNullable notTuple, nestedText, String.append_assoc, String.append_assoc]
    rfl
  | genericParameter => cases found
  | array element rank =>
    cases found
    exact ⟨brackets rank, fun full => by rw [display]⟩
  | pointer element =>
    cases found
    exact ⟨"*", fun full => by rw [display]⟩
  | byRef element =>
    cases found
    exact ⟨"", fun full => by rw [display, String.append_empty]⟩

theorem display_of_outermost (outermost : type.leading? = none) (plain : ¬type.SpelledApart) :
    type.display true = qualifier true type.space none ++ type.display false := by
  obtain ⟨space, name, arguments, enclosing, shape⟩ := type
  cases shape with
  | named =>
    obtain rfl : enclosing = none := outermost
    obtain ⟨wordless, notNullable, notTuple⟩ := spellings_of_plain rfl plain
    have bare (full : Bool) : displayBare full ⟨space, name, arguments, none, .named⟩ =
        qualifier full space none ++ withoutArity name := rfl
    have unqualified : qualifier false space none = "" := rfl
    rw [display_plain rfl true wordless notNullable notTuple, display_plain rfl false wordless notNullable notTuple,
      bare, bare, unqualified, String.empty_append, String.append_assoc]
  | genericParameter => exact absurd (.inl rfl) plain
  | array _ _ | pointer _ | byRef _ => cases outermost

/-- What stands in front of the short name in the full one, where the way from a type ends at `last`. -/
structure FullName (type last : TypeRef) (front : String) : Prop where
  reached : type.LeadsTo last
  outermost : last.leading? = none
  whole : type.display true = front ++ type.display false
  namespaced : front = "" ∨ ∃ space, space ≠ "" ∧ last.space = some space ∧ front = space ++ "."
  apart : (∃ met, type.LeadsTo met ∧ met.SpelledApart) → front = ""
  plain : (¬∃ met, type.LeadsTo met ∧ met.SpelledApart) →
    ∀ space, space ≠ "" → last.space = some space → front = space ++ "."

theorem leadsTo_iff : type.LeadsTo met ↔ met = type ∨ ∃ inner, type.leading? = some inner ∧ inner.LeadsTo met := by
  constructor
  · rintro (_ | ⟨found, way⟩)
    · exact .inl rfl
    · exact .inr ⟨_, found, way⟩
  · rintro (rfl | ⟨inner, found, way⟩)
    · exact .itself _
    · exact .step found way

namespace FullName

theorem of_apart (apart : type.SpelledApart) (reached : type.LeadsTo last) (outermost : last.leading? = none) :
    FullName type last "" where
  reached
  outermost
  whole := by rw [display_of_spelledApart apart, String.empty_append]
  namespaced := .inl rfl
  apart _ := rfl
  plain none_ := absurd ⟨type, .itself type, apart⟩ none_

/-- What a type has in front is what its leading type has. -/
theorem step (found : type.leading? = some inner) (plain : ¬type.SpelledApart) (full : FullName inner last front) :
    FullName type last front := by
  obtain ⟨rest, goesOn⟩ := display_of_leading found plain
  have same : (∃ met, type.LeadsTo met ∧ met.SpelledApart) ↔ ∃ met, inner.LeadsTo met ∧ met.SpelledApart := by
    constructor
    · rintro ⟨met, way, apart⟩
      rcases leadsTo_iff.1 way with rfl | ⟨other, found', way⟩
      · exact absurd apart plain
      · cases found.symm.trans found'
        exact ⟨met, way, apart⟩
    · rintro ⟨met, way, apart⟩
      exact ⟨met, .step found way, apart⟩
  refine ⟨.step found full.reached, full.outermost, ?_, full.namespaced, ?_, ?_⟩
  · rw [goesOn, goesOn, full.whole, String.append_assoc]
  · exact fun met => full.apart (same.1 met)
  · exact fun none_ => full.plain (mt same.2 none_)

theorem of_outermost (outermost : type.leading? = none) (plain : ¬type.SpelledApart) :
    FullName type type (qualifier true type.space none) where
  reached := .itself type
  outermost
  whole := display_of_outermost outermost plain
  namespaced := by
    unfold qualifier
    cases type.space with
    | none => exact .inl rfl
    | some space =>
      by_cases empty : space = ""
      · exact .inl (if_pos empty)
      · exact .inr ⟨space, empty, rfl, if_neg empty⟩
  apart := by
    rintro ⟨met, way, apart⟩
    rcases leadsTo_iff.1 way with rfl | ⟨inner, found, -⟩
    · exact absurd apart plain
    · cases outermost.symm.trans found
  plain _ space filled found := by
    rw [found]
    exact if_neg filled

end FullName

/-- The full name of a type is the short one, with nothing or a namespace in front: that of the type that the way along
elements and types around ends at. A type on the way that is spelled apart leaves no room for it. -/
theorem full_name_has_namespace_in_front (type : TypeRef) : ∃ last front, FullName type last front := by
  by_cases apart : type.SpelledApart
  · cases found : type.leading? with
    | none => exact ⟨type, "", .of_apart apart (.itself type) found⟩
    | some inner =>
      obtain ⟨last, _, full⟩ := full_name_has_namespace_in_front inner
      exact ⟨last, "", .of_apart apart (.step found full.reached) full.outermost⟩
  · cases found : type.leading? with
    | none => exact ⟨type, _, .of_outermost found apart⟩
    | some inner =>
      obtain ⟨last, front, full⟩ := full_name_has_namespace_in_front inner
      exact ⟨last, front, full.step found apart⟩
termination_by sizeOf type
decreasing_by all_goals exact sizeOf_leading_lt found

example :
    let inner := (named "Inner").nestedIn ((qualified "App" "Outer").instantiate [qualified "System" "Int32"])
    (arrayOf inner 2).display true = "App.Outer<int>.Inner[,]" ∧
      (arrayOf inner 2).display false = "Outer<int>.Inner[,]" := by
  decide

end Backtrace.TypeRef
