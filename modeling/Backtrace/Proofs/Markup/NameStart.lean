import Backtrace.Markup.Processor
import Backtrace.Proofs.Markup.MarkerGrammar

/-!
The mark that a line gets in front of its name. Where only the end of the name is marked, the name
starts behind the last dot or plus sign before that end.
-/
namespace Backtrace

inductive NameMarked (body : List Char) : List Char → Prop
  | kept (settled : Marker.nameStart.sentinel ∈ body ∨ Marker.nameEnd.sentinel ∉ body) : NameMarked body body
  | inserted {qualifier name tail : List Char}
      (parts : body = qualifier ++ name ++ Marker.nameEnd.sentinel :: tail)
      (unmarked : Marker.nameStart.sentinel ∉ body)
      (first : Marker.nameEnd.sentinel ∉ qualifier ++ name)
      (simple : '.' ∉ name ∧ '+' ∉ name)
      (edge : qualifier = [] ∨ ∃ front, qualifier = front ++ ['.'] ∨ qualifier = front ++ ['+']) :
      NameMarked body (qualifier ++ Marker.nameStart.sentinel :: name ++ Marker.nameEnd.sentinel :: tail)

theorem atLastName_append {qualifier name : List Char} (simple : '.' ∉ name ∧ '+' ∉ name)
    (edge : qualifier = [] ∨ ∃ front, qualifier = front ++ ['.'] ∨ qualifier = front ++ ['+']) :
    atLastName (qualifier ++ name) = (qualifier, name) := by
  have inside : ∀ c ∈ name.reverse, (!(c = '.' || c = '+' : Bool)) = true := by
    intro c member
    have dot : c ≠ '.' := fun same => simple.1 (by simpa [same] using member)
    have plus : c ≠ '+' := fun same => simple.2 (by simpa [same] using member)
    simp [dot, plus]
  unfold atLastName
  simp only [List.reverse_append]
  rw [List.takeWhile_append_of_pos inside, List.dropWhile_append_of_pos inside]
  rcases edge with rfl | ⟨front, rfl | rfl⟩ <;> simp

theorem atLastName_spec {cs qualifier name : List Char} (split : atLastName cs = (qualifier, name)) :
    cs = qualifier ++ name ∧ ('.' ∉ name ∧ '+' ∉ name) ∧
      (qualifier = [] ∨ ∃ front, qualifier = front ++ ['.'] ∨ qualifier = front ++ ['+']) := by
  obtain ⟨rfl, rfl⟩ := Prod.mk.inj split
  have inside := List.all_eq_true.1 (List.all_takeWhile (p := fun c => !(c = '.' || c = '+' : Bool)) (l := cs.reverse))
  refine ⟨?_, ⟨fun dot => ?_, fun plus => ?_⟩, ?_⟩
  · rw [← List.reverse_append, List.takeWhile_append_dropWhile, List.reverse_reverse]
  · simpa using inside _ (List.mem_reverse.1 dot)
  · simpa using inside _ (List.mem_reverse.1 plus)
  · have stops := List.head?_dropWhile_not (fun c => !(c = '.' || c = '+' : Bool)) cs.reverse
    cases found : cs.reverse.dropWhile fun c => !(c = '.' || c = '+' : Bool) with
    | nil => exact .inl rfl
    | cons c front =>
      rw [found] at stops
      have separator : c = '.' ∨ c = '+' := by simpa [← Decidable.or_iff_not_imp_left] using stops
      exact .inr ⟨front.reverse, by simpa using separator⟩

/-- The one line with a mark in front of its name. -/
theorem nameMarked_iff {body marked : List Char} : NameMarked body marked ↔ marked = withNameStart body := by
  constructor
  · intro relation
    cases relation with
    | kept settled =>
      unfold withNameStart
      rcases settled with present | absent
      · rw [if_pos present]
      · rw [Text.around?_eq_none_iff.2 absent, ite_self]
    | inserted parts unmarked first simple edge =>
      unfold withNameStart
      rw [if_neg unmarked, parts, Text.around?_eq_some_iff.2 ⟨rfl, first⟩]
      simp only [atLastName_append simple edge]
  · rintro rfl
    unfold withNameStart
    split
    · next present => exact .kept (.inl present)
    · next unmarked =>
      cases found : Text.around? Marker.nameEnd.sentinel body with
      | none => exact .kept (.inr (Text.around?_eq_none_iff.1 found))
      | some cut =>
        obtain ⟨head, tail⟩ := cut
        obtain ⟨parts, first⟩ := Text.around?_eq_some_iff.1 found
        cases split : atLastName head with
        | mk qualifier name =>
          obtain ⟨rfl, simple, edge⟩ := atLastName_spec split
          simp only [split]
          exact .inserted parts unmarked first simple edge

namespace PathStyle

theorem normalize_eq_iff {style : PathStyle} {c other : Char} (forward : other ≠ '/') (backward : other ≠ '\\') :
    style.normalize c = other ↔ c = other := by
  cases style with
  | preserve => rfl
  | unix =>
    simp only [normalize]
    split
    · next back => simp [back, forward.symm, backward.symm]
    · rfl
  | windows =>
    simp only [normalize]
    split
    · next slash => simp [slash, forward.symm, backward.symm]
    · rfl

theorem mem_map_normalize {style : PathStyle} {other : Char} {cs : List Char} (forward : other ≠ '/')
    (backward : other ≠ '\\') : other ∈ cs.map style.normalize ↔ other ∈ cs := by
  simp only [List.mem_map, normalize_eq_iff forward backward, exists_eq_right]

end PathStyle

namespace PathStyle

theorem normalize_sentinel (style : PathStyle) (marker : Marker) :
    style.normalize marker.sentinel = marker.sentinel := by
  cases marker <;> cases style <;> rfl

theorem sentinel_mem_map_normalize (style : PathStyle) (marker : Marker) (cs : List Char) :
    marker.sentinel ∈ cs.map style.normalize ↔ marker.sentinel ∈ cs :=
  mem_map_normalize (by cases marker <;> decide) (by cases marker <;> decide)

end PathStyle

theorem NameMarked.normalize {body marked : List Char} (style : PathStyle) (relation : NameMarked body marked) :
    NameMarked (body.map style.normalize) (marked.map style.normalize) := by
  have sentinel := style.sentinel_mem_map_normalize
  cases relation with
  | kept settled => exact .kept (by simpa only [sentinel] using settled)
  | inserted parts unmarked first simple edge =>
    have dot : style.normalize '.' = '.' := by cases style <;> rfl
    have plus : style.normalize '+' = '+' := by cases style <;> rfl
    simp only [List.map_append, List.map_cons, style.normalize_sentinel]
    apply NameMarked.inserted
    · rw [parts]
      simp only [List.map_append, List.map_cons, style.normalize_sentinel]
    · rwa [sentinel]
    · rwa [← List.map_append, sentinel]
    · exact ⟨by rw [PathStyle.mem_map_normalize (by decide) (by decide)]; exact simple.1,
        by rw [PathStyle.mem_map_normalize (by decide) (by decide)]; exact simple.2⟩
    · rcases edge with rfl | ⟨front, rfl | rfl⟩
      · exact .inl rfl
      · exact .inr ⟨front.map style.normalize, .inl (by simp [dot])⟩
      · exact .inr ⟨front.map style.normalize, .inr (by simp [plus])⟩

/-- Making separators alike does not move the mark. -/
theorem withNameStart_normalize (style : PathStyle) (body : List Char) :
    withNameStart (body.map style.normalize) = (withNameStart body).map style.normalize :=
  (nameMarked_iff.1 ((nameMarked_iff.2 rfl).normalize style)).symm

end Backtrace
