import Mathlib.Data.List.Forall2

/-!
Results of computations that may fail: which values a sequence of them, or one for each value of a list, comes to, and
which fault it is that they come to otherwise.
-/
namespace Backtrace

variable {ε α β : Type}

theorem bind_eq_ok_iff {first : Except ε α} {next : α → Except ε β} {result : β} :
    (first >>= next) = .ok result ↔ ∃ value, first = .ok value ∧ next value = .ok result := by
  cases first <;> simp [bind, Except.bind]

theorem bind_eq_error_iff {first : Except ε α} {next : α → Except ε β} {fault : ε} :
    (first >>= next) = .error fault ↔
      first = .error fault ∨ ∃ value, first = .ok value ∧ next value = .error fault := by
  cases first <;> simp [bind, Except.bind]

theorem map_eq_ok_iff {outcome : Except ε α} {f : α → β} {result : β} :
    outcome.map f = .ok result ↔ ∃ value, outcome = .ok value ∧ f value = result := by
  cases outcome <;> simp [Except.map]

theorem map_eq_error_iff {outcome : Except ε α} {f : α → β} {fault : ε} :
    outcome.map f = .error fault ↔ outcome = .error fault := by
  cases outcome <;> simp [Except.map]

theorem mapM_eq_ok_iff {f : α → Except ε β} {values : List α} {results : List β} :
    values.mapM f = .ok results ↔ List.Forall₂ (fun value result => f value = .ok result) values results := by
  induction values generalizing results with
  | nil => cases results <;> simp [pure, Except.pure]
  | cons value values ih =>
    rw [List.mapM_cons, bind_eq_ok_iff]
    constructor
    · rintro ⟨first, taken, rest⟩
      obtain ⟨others, also, same⟩ := bind_eq_ok_iff.1 rest
      cases same
      exact .cons taken (ih.1 also)
    · intro taken
      cases taken with
      | cons first rest => exact ⟨_, first, bind_eq_ok_iff.2 ⟨_, ih.2 rest, rfl⟩⟩

theorem not_exists_first_nil {good bad : α → Prop} : ¬∃ before first behind, [] = before ++ first :: behind ∧
    (∀ earlier ∈ before, good earlier) ∧ bad first := by
  simp

theorem exists_first_cons_iff {good bad : α → Prop} {value : α} {values : List α} :
    (∃ before first behind, value :: values = before ++ first :: behind ∧
      (∀ earlier ∈ before, good earlier) ∧ bad first) ↔
    bad value ∨ good value ∧ ∃ before first behind, values = before ++ first :: behind ∧
      (∀ earlier ∈ before, good earlier) ∧ bad first := by
  constructor
  · intro ⟨before, first, behind, parts, all, failed⟩
    cases before with
    | nil =>
      obtain ⟨rfl, rfl⟩ := List.cons.inj parts
      exact .inl failed
    | cons other before =>
      obtain ⟨rfl, rfl⟩ := List.cons.inj parts
      obtain ⟨taken, others⟩ := List.forall_mem_cons.1 all
      exact .inr ⟨taken, before, first, behind, rfl, others, failed⟩
  · intro found
    cases found with
    | inl failed => exact ⟨[], value, values, rfl, List.forall_mem_nil _, failed⟩
    | inr later =>
      obtain ⟨taken, before, first, behind, rfl, all, failed⟩ := later
      exact ⟨value :: before, first, behind, rfl, List.forall_mem_cons.2 ⟨taken, all⟩, failed⟩

end Backtrace
