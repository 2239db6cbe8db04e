import Backtrace.Proofs.Cache.Runs

/-!
A cache whose values nobody else keeps is a first-in first-out list. What it finds are the latest values that were
computed for it, as many as it may keep, and it has a value computed exactly for a key that is not among theirs.
-/
namespace Backtrace

namespace Fifo

variable {κ α : Type} [DecidableEq κ]

/-- A call with the value that it would have computed. One is computed, in front of the others, unless the key is
that of one of the latest `capacity`. -/
def step (capacity : Nat) (computed : List (κ × Cell α)) (call : κ × α) : List (κ × Cell α) :=
  if call.1 ∈ (computed.take capacity).map (·.1) then computed
  else (call.1, ⟨computed.length, call.2⟩) :: computed

def computed (capacity : Nat) (calls : List (κ × α)) : List (κ × Cell α) := calls.foldl (step capacity) []

end Fifo

namespace TracedCache
open Cache

variable {κ α ε : Type} {capacity count : Nat} {traced : TracedCache κ α}

/-- A cache keeps the latest of what has been computed for it, and has counted `count` calls. -/
structure Follows (capacity count : Nat) (traced : TracedCache κ α) : Prop where
  sound : traced.Sound capacity
  next : traced.cache.next = traced.computed.length
  recent : traced.cache.recent = ((traced.computed.take capacity).map (·.2)).reverse
  misses : traced.cache.misses = traced.computed.length
  calls : traced.cache.hits + traced.cache.misses = count

namespace Follows

theorem ofCapacity (capacity : Nat) : Follows (max capacity 1) 0 (ofCapacity capacity : TracedCache κ α) where
  sound := .ofCapacity capacity
  next := rfl
  recent := by simp [TracedCache.ofCapacity, Cache.ofCapacity]
  misses := rfl
  calls := rfl

variable [DecidableEq κ]

/-- What is found for a key is what has been computed for it, as long as that is among the latest. -/
theorem get?_eq_some_iff (follows : Follows capacity count traced) {key : κ} {cell : Cell α} :
    traced.cache.get? [] key = some cell ↔ (key, cell) ∈ traced.computed.take capacity := by
  have sound := follows.sound.cache
  rw [sound.get?_eq_some_iff]
  constructor
  · rintro ⟨stored, live⟩
    have member := sound.entries stored
    have recent : cell ∈ traced.cache.recent :=
      ((sound.isLive_iff member).1 live).resolve_right List.not_mem_nil
    rw [follows.recent, List.mem_reverse] at recent
    obtain ⟨entry, latest, same⟩ := List.mem_map.1 recent
    have token : entry.2.token = cell.token := congrArg Cell.token same
    rw [← sound.entry_unique (List.mem_of_mem_take latest) member token]
    exact latest
  · intro latest
    have member := List.mem_of_mem_take latest
    have recent : cell ∈ traced.cache.recent := by
      rw [follows.recent, List.mem_reverse]
      exact List.mem_map_of_mem latest
    obtain ⟨other, stored⟩ := sound.kept cell recent
    obtain rfl : other = key := congrArg Prod.fst (sound.entry_unique (sound.entries stored) member rfl)
    exact ⟨stored, (sound.isLive_iff member).2 (.inl recent)⟩

theorem keys (follows : Follows capacity count traced) : ((traced.computed.take capacity).map (·.1)).Nodup := by
  refine List.Nodup.map_on ?_ ((List.take_sublist _ _).nodup follows.sound.cache.apart.of_map)
  rintro ⟨key, first⟩ member ⟨_, second⟩ also rfl
  have found := follows.get?_eq_some_iff.2 member
  rw [follows.get?_eq_some_iff.2 also] at found
  exact congrArg (Prod.mk key) (Option.some.inj found).symm

theorem get?_eq_none_iff (follows : Follows capacity count traced) {key : κ} :
    traced.cache.get? [] key = none ↔ key ∉ (traced.computed.take capacity).map (·.1) := by
  rw [Option.eq_none_iff_forall_ne_some]
  constructor
  · intro absent member
    obtain ⟨⟨_, cell⟩, latest, rfl⟩ := List.mem_map.1 member
    exact absent cell (follows.get?_eq_some_iff.2 latest)
  · intro absent cell found
    exact absent (List.mem_map_of_mem (follows.get?_eq_some_iff.1 found))

theorem get?_eq (follows : Follows capacity count traced) (key : κ) :
    traced.cache.get? [] key = if key ∈ (traced.computed.take capacity).map (·.1) then
      (traced.computed.find? (·.1 = key)).map (·.2) else none := by
  split
  · next member =>
    obtain ⟨⟨_, cell⟩, latest, rfl⟩ := List.mem_map.1 member
    have found := (valueOf_eq_some_iff follows.keys).2 latest
    rw [follows.get?_eq_some_iff.2 latest, ← List.take_append_drop capacity traced.computed, List.find?_append]
    obtain ⟨entry, first, same⟩ := Option.map_eq_some_iff.1 found
    rw [first, Option.some_or, Option.map_some, same]
  · next absent => exact follows.get?_eq_none_iff.2 absent

theorem serve_of_mem (follows : Follows capacity count traced) {key : κ} (value : α)
    (member : key ∈ (traced.computed.take capacity).map (·.1)) :
    let after := traced.serve [] (.fetch key fun _ => (.ok value : Except ε α))
    Follows capacity (count + 1) after ∧ after.computed = traced.computed := by
  intro after
  have sound : after.Sound capacity := follows.sound.serve [] (.fetch key fun _ => (.ok value : Except ε α))
  obtain ⟨⟨_, cell⟩, latest, rfl⟩ := List.mem_map.1 member
  have found := follows.get?_eq_some_iff.2 latest
  have computed : after.computed = traced.computed := by
    simp [after, TracedCache.serve, computed?, lookUp, found]
  have cache : after.cache = { traced.cache with hits := traced.cache.hits + 1 } := by
    simp [after, TracedCache.serve, Cache.serve, fetch, lookUp, found]
  refine ⟨⟨sound, ?_, ?_, ?_, ?_⟩, computed⟩
  · rw [cache, computed]
    exact follows.next
  · rw [cache, computed]
    exact follows.recent
  · rw [cache, computed]
    exact follows.misses
  · rw [cache, ← follows.calls]
    exact Nat.add_right_comm _ _ _

theorem serve_of_not_mem (follows : Follows capacity count traced) {key : κ} (value : α)
    (absent : key ∉ (traced.computed.take capacity).map (·.1)) :
    let after := traced.serve [] (.fetch key fun _ => (.ok value : Except ε α))
    Follows capacity (count + 1) after ∧
      after.computed = (key, ⟨traced.computed.length, value⟩) :: traced.computed := by
  intro after
  have sound : after.Sound capacity := follows.sound.serve [] (.fetch key fun _ => (.ok value : Except ε α))
  have missing := follows.get?_eq_none_iff.2 absent
  have computed : after.computed = (key, ⟨traced.cache.next, value⟩) :: traced.computed := by
    simp [after, TracedCache.serve, computed?, lookUp, missing]
  have cache : after.cache = { traced.cache with misses := traced.cache.misses + 1 }.put [] key value := by
    rcases traced.cache.fetch_cases [] key fun _ => (.ok value : Except ε α) with ⟨cell, found, -⟩ |
      ⟨-, failure, failed, -⟩ | ⟨-, same, made, fetched⟩
    · rw [missing] at found
      cases found
    · cases failed
    · cases made
      exact congrArg Prod.snd fetched
  refine ⟨⟨sound, ?_, ?_, ?_, ?_⟩, follows.next ▸ computed⟩
  · rw [cache, computed, List.length_cons, ← follows.next]
    rfl
  · have recent : after.cache.recent =
        latest traced.cache.capacity (traced.cache.recent ++ [⟨traced.cache.next, value⟩]) := by
      rw [cache]
      rfl
    rw [recent, computed, follows.sound.capacity, follows.recent, latest_eq_reverse_take]
    cases capacity with
    | zero => rfl
    | succ less => simp [List.take_take]
  · rw [cache, computed, List.length_cons, ← follows.misses]
    rfl
  · rw [cache, ← follows.calls]
    rfl

theorem serve (follows : Follows capacity count traced) (call : κ × α) :
    let after := traced.serve [] (.fetch call.1 fun _ => (.ok call.2 : Except ε α))
    Follows capacity (count + 1) after ∧ after.computed = Fifo.step capacity traced.computed call := by
  unfold Fifo.step
  split
  · next member => exact follows.serve_of_mem call.2 member
  · next absent => exact follows.serve_of_not_mem call.2 absent

/-- Calls whose values are dropped at once. -/
theorem run (follows : Follows capacity count traced) (calls : List (κ × α)) :
    let after := traced.run (calls.map fun call => ([], .fetch call.1 fun _ => (.ok call.2 : Except ε α)))
    Follows capacity (count + calls.length) after ∧
      after.computed = calls.foldl (Fifo.step capacity) traced.computed := by
  induction calls generalizing count traced with
  | nil => exact ⟨follows, rfl⟩
  | cons call calls ih =>
    obtain ⟨next, computed⟩ := follows.serve (ε := ε) call
    obtain ⟨last, all⟩ := ih next
    rw [computed] at all
    rw [List.length_cons, Nat.add_comm calls.length, ← Nat.add_assoc]
    exact ⟨last, all⟩

end Follows

end TracedCache

open Cache

/-- A cache whose values are dropped at once finds those that were computed last, as many as it may keep, and has
one computed exactly where the key is not among theirs: where a computation that fails would be told. What is
found for a key is the latest that was computed for it, and each call is counted as a hit or as a computation. -/
theorem cache_is_fifo {κ α ε : Type} [DecidableEq κ] (capacity : Nat) (calls : List (κ × α)) :
    let traced : TracedCache κ α := (TracedCache.ofCapacity capacity).run
      (calls.map fun call => ([], .fetch call.1 fun _ => (.ok call.2 : Except ε α)))
    let cache : Cache κ α := traced.cache
    let latest := traced.computed.take (max capacity 1)
    traced.computed = Fifo.computed (max capacity 1) calls ∧
    (latest.map (·.1)).Nodup ∧
    (∀ (key : κ) (δ : Type) (failure : δ),
      (cache.fetch [] key fun _ => .error failure).1 = .error failure ↔ key ∉ latest.map (·.1)) ∧
    (∀ key : κ, cache.get? [] key =
      if key ∈ latest.map (·.1) then (traced.computed.find? (·.1 = key)).map (·.2) else none) ∧
    cache.retained = min (max capacity 1) traced.computed.length ∧
    cache.misses = traced.computed.length ∧
    cache.hits + cache.misses = calls.length := by
  intro traced cache latest
  obtain ⟨follows, computed⟩ := (TracedCache.Follows.ofCapacity (κ := κ) (α := α) capacity).run (ε := ε) calls
  rw [Nat.zero_add] at follows
  refine ⟨computed, follows.keys, fun key δ failure => ?_, follows.get?_eq, ?_, follows.misses, follows.calls⟩
  · rw [← follows.get?_eq_none_iff]
    rcases cache.fetch_cases [] key fun _ => .error failure with ⟨cell, found, fetched⟩ |
      ⟨absent, other, failed, fetched⟩ | ⟨-, value, made, -⟩
    · rw [fetched]
      exact iff_of_false nofun (by rw [found]; exact nofun)
    · rw [fetched]
      cases failed
      exact iff_of_true rfl absent
    · cases made
  · rw [retained, follows.recent, List.length_reverse, List.length_map, List.length_take]

end Backtrace
