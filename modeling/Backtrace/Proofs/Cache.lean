import Backtrace.Cache

/-!
What a cache gives back. A value that is found was put in for the key that it is found under, so whatever
holds of each key and its value when they are put in holds of them when they are found.
-/
namespace Backtrace

namespace Cache

variable {κ α ε : Type} {R : κ → α → Prop} {cache : Cache κ α}

/-- Each value that has been put in, and not been dropped, is right for its key. -/
def Keeps (R : κ → α → Prop) (cache : Cache κ α) : Prop := ∀ entry ∈ cache.entries, R entry.1 entry.2.value

theorem keeps_ofCapacity (capacity : Nat) : (ofCapacity capacity : Cache κ α).Keeps R := by
  intro entry member
  cases member

theorem keeps_clear (cache : Cache κ α) : cache.clear.Keeps R := by
  intro entry member
  cases member

theorem mem_prune {held : List Nat} {added : Nat} {entries : List (κ × Cell α)} {entry : κ × Cell α}
    (member : entry ∈ cache.prune held added entries) : entry ∈ entries := by
  unfold prune at member
  split at member
  · exact (List.mem_filter.1 member).1
  · exact member

variable [DecidableEq κ] {held : List Nat} {key : κ} {compute : Unit → Except ε α}

def put (cache : Cache κ α) (held : List Nat) (key : κ) (value : α) : Cache κ α :=
  { cache with
    entries := cache.prune held cache.next ((key, ⟨cache.next, value⟩) :: cache.entries.filter (·.1 ≠ key))
    recent := latest cache.capacity (cache.recent ++ [⟨cache.next, value⟩])
    next := cache.next + 1 }

theorem insert_of_absent {value : α} (absent : cache.get? held key = none) :
    cache.insert held key value = (⟨cache.next, value⟩, cache.put held key value) := by
  rw [insert, absent]
  rfl

/-- What a fetch does: it finds a live value, or fails where computing one does, or puts one in. -/
theorem fetch_cases (cache : Cache κ α) (held : List Nat) (key : κ) (compute : Unit → Except ε α) :
    (∃ cell, cache.get? held key = some cell ∧
      cache.fetch held key compute = (.ok cell, { cache with hits := cache.hits + 1 })) ∨
    (cache.get? held key = none ∧ ∃ failure, compute () = .error failure ∧
      cache.fetch held key compute = (.error failure, { cache with misses := cache.misses + 1 })) ∨
    (cache.get? held key = none ∧ ∃ value, compute () = .ok value ∧ cache.fetch held key compute =
      (.ok ⟨cache.next, value⟩, { cache with misses := cache.misses + 1 }.put held key value)) := by
  unfold fetch lookUp
  cases found : cache.get? held key with
  | some cell => exact .inl ⟨cell, rfl, rfl⟩
  | none =>
    cases computed : compute () with
    | error failure => exact .inr (.inl ⟨rfl, failure, rfl, rfl⟩)
    | ok value =>
      have absent : { cache with misses := cache.misses + 1 }.get? held key = none := found
      refine .inr (.inr ⟨rfl, value, rfl, ?_⟩)
      simp only [insert_of_absent absent]

theorem Keeps.get {cell : Cell α} (keeps : cache.Keeps R) (found : cache.get? held key = some cell) :
    R key cell.value := by
  obtain ⟨entry, looked, rfl⟩ := Option.map_eq_some_iff.1 (Option.eq_some_of_filter_eq_some found)
  have same : entry.1 = key := by simpa using List.find?_some looked
  exact same ▸ keeps entry (List.mem_of_find?_eq_some looked)

theorem Keeps.put {value : α} (keeps : cache.Keeps R) (right : R key value) :
    (cache.put held key value).Keeps R := by
  intro entry member
  rcases List.mem_cons.1 (mem_prune member) with rfl | old
  · exact right
  · exact keeps entry (List.mem_filter.1 old).1

/-- A value that is fetched is right for its key, whether it was kept or is computed now. -/
theorem Keeps.fetch (keeps : cache.Keeps R) (held : List Nat) (key : κ)
    (right : ∀ value, compute () = .ok value → R key value) :
    (∀ cell, (cache.fetch held key compute).1 = .ok cell → R key cell.value) ∧
      (cache.fetch held key compute).2.Keeps R := by
  rcases cache.fetch_cases held key compute with ⟨cell, found, fetched⟩ | ⟨-, failure, -, fetched⟩ |
    ⟨-, value, computed, fetched⟩ <;> rw [fetched]
  · exact ⟨fun _ same => Except.ok.inj same ▸ keeps.get found, keeps⟩
  · exact ⟨fun _ same => (by cases same), keeps⟩
  · exact ⟨fun _ same => Except.ok.inj same ▸ right value computed, Keeps.put keeps (right value computed)⟩

theorem Keeps.fetch_eq (keeps : cache.Keeps R) (held : List Nat) (key : κ)
    (computes : ∀ value, R key value → compute () = .ok value) :
    (cache.fetch held key compute).1.map Cell.value = compute () := by
  rcases cache.fetch_cases held key compute with ⟨cell, found, fetched⟩ | ⟨-, failure, computed, fetched⟩ |
    ⟨-, value, computed, fetched⟩ <;> rw [fetched]
  · exact (computes cell.value (keeps.get found)).symm
  · exact computed.symm
  · exact computed.symm

end Cache

end Backtrace
