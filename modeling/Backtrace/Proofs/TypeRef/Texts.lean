import Backtrace.TypeRef
import Backtrace.Proofs.Text.Alphabet

/-!
The texts of a type reference. The name of a type is made of them and of fixed texts alone, so it is
over every alphabet that they are over.
-/
namespace Backtrace.TypeRef

mutual
def texts : TypeRef → List String
  | ⟨space, name, arguments, enclosing, shape⟩ =>
    space.toList ++ [name] ++ textsOfEach arguments ++ textsOfOuter enclosing ++
    match shape with
    | .named | .genericParameter => []
    | .array element _ | .pointer element | .byRef element => texts element

def textsOfEach : List TypeRef → List String
  | [] => []
  | type :: types => texts type ++ textsOfEach types

def textsOfOuter : Option TypeRef → List String
  | none => []
  | some outer => texts outer
end

variable {alphabet : Alphabet}

theorem textsOfEach_eq_flatMap (types : List TypeRef) : textsOfEach types = types.flatMap texts := by
  induction types with
  | nil => rfl
  | cons type types ih => rw [textsOfEach, ih, List.flatMap_cons]

theorem withoutArity_over {name : String} (clean : alphabet.Over name) : alphabet.Over (withoutArity name) :=
  Alphabet.over_of_subset clean fun _ member => (List.takeWhile_subset _) member

theorem keyword_over {space : Option String} {name keyword : String} {nested : Bool}
    (found : keyword? space name nested = some keyword) : alphabet.Over keyword := by
  unfold keyword? at found
  split at found
  · obtain ⟨before, behind, parts, -⟩ := List.lookup_eq_some_iff.1 found
    have fixed : keywords.all (·.2.toList.all isFixed) = true := by decide
    exact Alphabet.over_of_fixed (List.all_eq_true.1 fixed (withoutArity name, keyword) (by simp [parts]))
  · cases found

theorem angled_over {names : List String} {angled : String} (found : angled? names = some angled)
    (clean : alphabet.Each names) : alphabet.Over angled := by
  cases names with
  | nil => cases found
  | cons name names =>
    obtain rfl := Option.some.inj found
    simp only [Alphabet.over_append]
    exact ⟨⟨Alphabet.over_of_fixed (by decide),
      (Alphabet.over_intercalate (Alphabet.over_of_fixed (by decide))).2 clean⟩, Alphabet.over_of_fixed (by decide)⟩

theorem brackets_over (rank : UInt8) : alphabet.Over (brackets rank) := by
  simp only [brackets, Alphabet.over_append]
  refine ⟨⟨Alphabet.over_of_fixed (by decide), ?_⟩, Alphabet.over_of_fixed (by decide)⟩
  apply Alphabet.over_of_fixed
  simp only [String.toList_ofList, List.all_replicate]
  split <;> decide

theorem qualifier_over {full : Bool} {space outer : Option String}
    (spaceOver : ∀ text, space = some text → alphabet.Over text)
    (outerOver : ∀ text, outer = some text → alphabet.Over text) : alphabet.Over (qualifier full space outer) := by
  have dot : alphabet.Over "." := Alphabet.over_of_fixed (by decide)
  unfold qualifier
  split
  · next outer => exact Alphabet.over_append.2 ⟨outerOver outer rfl, dot⟩
  · split
    · next space =>
      split
      · exact Alphabet.over_empty
      · exact Alphabet.over_append.2 ⟨spaceOver space rfl, dot⟩
    · exact Alphabet.over_empty

theorem displayNamed_over {full : Bool} {space outer : Option String} {name : String} {arguments : List String}
    (spaceOver : ∀ text, space = some text → alphabet.Over text) (nameOver : alphabet.Over name)
    (argumentsOver : alphabet.Each arguments) (outerOver : ∀ text, outer = some text → alphabet.Over text) :
    alphabet.Over (displayNamed full space name arguments outer) := by
  unfold displayNamed
  split
  · next keyword found => exact keyword_over found
  · split
    · have first : alphabet.Over (arguments.headD "") := by
        cases arguments with
        | nil => exact Alphabet.over_empty
        | cons argument rest => exact argumentsOver argument (by simp)
      exact Alphabet.over_append.2 ⟨first, Alphabet.over_of_fixed (by decide)⟩
    · split
      · simp only [Alphabet.over_append]
        exact ⟨⟨Alphabet.over_of_fixed (by decide),
          (Alphabet.over_intercalate (Alphabet.over_of_fixed (by decide))).2 argumentsOver⟩,
          Alphabet.over_of_fixed (by decide)⟩
      · simp only [Alphabet.over_append]
        refine ⟨⟨qualifier_over spaceOver outerOver, withoutArity_over nameOver⟩, ?_⟩
        cases found : angled? arguments with
        | none => exact Alphabet.over_empty
        | some angled => exact angled_over found argumentsOver

mutual
theorem display_over (full : Bool) : (type : TypeRef) → alphabet.Each type.texts →
    alphabet.Over (type.display full)
  | ⟨space, name, arguments, enclosing, shape⟩, clean => by
    unfold texts at clean
    simp only [Alphabet.each_append, Alphabet.each_toList, Alphabet.each_cons] at clean
    obtain ⟨⟨⟨⟨spaceOver, nameOver, -⟩, argumentsOver⟩, outerOver⟩, shapeOver⟩ := clean
    unfold display
    cases shape with
    | genericParameter => exact withoutArity_over nameOver
    | byRef element => exact display_over full element shapeOver
    | pointer element =>
      exact Alphabet.over_append.2 ⟨display_over full element shapeOver, Alphabet.over_of_fixed (by decide)⟩
    | array element rank => exact Alphabet.over_append.2 ⟨display_over full element shapeOver, brackets_over rank⟩
    | named =>
      exact displayNamed_over spaceOver nameOver (displayEach_over arguments argumentsOver)
        (displayOuter_over full enclosing outerOver)

theorem displayEach_over : (types : List TypeRef) → alphabet.Each (textsOfEach types) →
    alphabet.Each (displayEach types)
  | [], _ => by simp [displayEach]
  | type :: types, clean => by
    simp only [textsOfEach, Alphabet.each_append] at clean
    rw [displayEach, Alphabet.each_cons]
    exact ⟨display_over false type clean.1, displayEach_over types clean.2⟩

theorem displayOuter_over (full : Bool) : (outer : Option TypeRef) →
    alphabet.Each (textsOfOuter outer) → ∀ text, displayOuter full outer = some text → alphabet.Over text
  | none, _ => by simp [displayOuter]
  | some outer, clean => by
    rintro text ⟨⟩
    exact display_over full outer clean
end

end Backtrace.TypeRef
