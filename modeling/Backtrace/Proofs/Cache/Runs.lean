import Backtrace.Proofs.Cache
import Mathlib.Data.List.Nodup
import Mathlib.Data.List.Perm.Subperm

/-!
What a cache keeps over whole runs of requests. Each value that is computed for it has a token of its own, so the
cells among the latest are told from all others, and each is found under the key that it was computed for. Dead
entries are only dropped now and then, but there are never more of them than of values that may be kept, as long
as nobody else keeps values alive.
-/
namespace Backtrace

namespace Cache

variable {κ α ε : Type}

inductive Request (κ ε α : Type)
  | fetch (key : κ) (compute : Unit → Except ε α)
  | get (key : κ)
  | clear

theorem latest_eq_reverse_take (count : Nat) (cells : List (Cell α)) :
    latest count cells = (cells.reverse.take count).reverse := by
  rw [latest, List.take_reverse, List.reverse_reverse]

theorem latest_subset (count : Nat) (cells : List (Cell α)) : latest count cells ⊆ cells := List.drop_subset _ _

theorem mem_latest_append_self {count : Nat} (positive : 0 < count) (cells : List (Cell α)) (cell : Cell α) :
    cell ∈ latest count (cells ++ [cell]) := by
  obtain ⟨less, rfl⟩ := Nat.exists_eq_succ_of_ne_zero (Nat.pos_iff_ne_zero.1 positive)
  rw [latest_eq_reverse_take, List.reverse_append]
  simp

theorem head_of_not_mem_latest {count : Nat} {cells : List (Cell α)} {old : Cell α} (member : old ∈ cells)
    (short : cells.length ≤ count) (cell : Cell α) (gone : old ∉ latest count (cells ++ [cell])) :
    cells.head? = some old := by
  obtain ⟨first, rest, rfl⟩ := List.exists_cons_of_ne_nil (List.ne_nil_of_mem member)
  rcases List.mem_cons.1 member with rfl | later
  · rfl
  · have dropped : (first :: rest ++ [cell]).length - count ≤ 1 := by
      simp only [List.length_append, List.length_cons, List.length_nil] at short ⊢
      omega
    have stays : old ∈ (first :: rest ++ [cell]).drop 1 := List.mem_append_left _ later
    exact absurd (List.drop_subset_drop_left _ dropped stays) gone

theorem valueOf_eq_some_iff [DecidableEq κ] {entries : List (κ × Cell α)} (keys : (entries.map (·.1)).Nodup) {key : κ}
    {cell : Cell α} : (entries.find? (·.1 = key)).map (·.2) = some cell ↔ (key, cell) ∈ entries := by
  rw [Option.map_eq_some_iff]
  refine ⟨?_, fun member => ⟨(key, cell), ?_, rfl⟩⟩
  · rintro ⟨entry, found, rfl⟩
    have same : entry.1 = key := by simpa using List.find?_some found
    exact same ▸ List.mem_of_find?_eq_some found
  · cases found : entries.find? (·.1 = key) with
    | none => exact absurd (decide_eq_true rfl) (List.find?_eq_none.1 found _ member)
    | some entry =>
      have same : entry.1 = key := by simpa using List.find?_some found
      rw [List.inj_on_of_nodup_map keys (List.mem_of_find?_eq_some found) member same]

theorem isLive_eq_true_iff {cache : Cache κ α} {held : List Nat} {cell : Cell α} :
    cache.isLive held cell = true ↔ (∃ kept ∈ cache.recent, kept.token = cell.token) ∨ cell.token ∈ held := by
  simp [isLive]

/-- What a cache keeps of all that has been computed for it: some of the values, each under the key that it was
computed for, and the latest among them. -/
structure Sound (computed : List (κ × Cell α)) (cache : Cache κ α) : Prop where
  fresh : ∀ entry ∈ computed, entry.2.token < cache.next
  apart : (computed.map (·.2.token)).Nodup
  entries : cache.entries ⊆ computed
  keys : (cache.entries.map (·.1)).Nodup
  kept : ∀ cell ∈ cache.recent, ∃ key, (key, cell) ∈ cache.entries
  retained : cache.recent.length ≤ cache.capacity

namespace Sound

variable {computed : List (κ × Cell α)} {cache : Cache κ α}

theorem ofCapacity (capacity : Nat) : Sound [] (ofCapacity capacity : Cache κ α) where
  fresh := by simp
  apart := List.nodup_nil
  entries := List.Subset.refl _
  keys := List.nodup_nil
  kept := by simp [Cache.ofCapacity]
  retained := Nat.zero_le _

theorem counted (sound : Sound computed cache) (hits misses : Nat) :
    Sound computed { cache with hits := hits, misses := misses } :=
  ⟨sound.fresh, sound.apart, sound.entries, sound.keys, sound.kept, sound.retained⟩

theorem clear (sound : Sound computed cache) : Sound computed cache.clear where
  fresh := sound.fresh
  apart := sound.apart
  entries := List.nil_subset _
  keys := List.nodup_nil
  kept := by simp [Cache.clear]
  retained := Nat.zero_le _

theorem entry_unique (sound : Sound computed cache) {first second : κ × Cell α} (member : first ∈ computed)
    (also : second ∈ computed) (same : first.2.token = second.2.token) : first = second :=
  List.inj_on_of_nodup_map sound.apart member also same

theorem tokens (sound : Sound computed cache) : (cache.entries.map (·.2.token)).Nodup := by
  refine List.Nodup.map_on ?_ sound.keys.of_map
  intro first member second also same
  exact sound.entry_unique (sound.entries member) (sound.entries also) same

/-- An entry is alive by its own cell among the latest, or because someone else holds the value. -/
theorem isLive_iff (sound : Sound computed cache) {held : List Nat} {entry : κ × Cell α}
    (member : entry ∈ computed) : cache.isLive held entry.2 = true ↔ entry.2 ∈ cache.recent ∨ entry.2.token ∈ held := by
  rw [isLive_eq_true_iff]
  refine or_congr_left ⟨fun ⟨cell, recent, same⟩ => ?_, fun recent => ⟨entry.2, recent, rfl⟩⟩
  obtain ⟨key, stored⟩ := sound.kept cell recent
  rw [← sound.entry_unique (sound.entries stored) member same]
  exact recent

/-- Entries that are alive are no more than the values that the cache keeps and those that are held. -/
theorem length_le_of_live (sound : Sound computed cache) {entries : List (κ × Cell α)} {held : List Nat}
    (tokens : (entries.map (·.2.token)).Nodup) (live : ∀ entry ∈ entries, cache.isLive held entry.2 = true) :
    entries.length ≤ cache.capacity + held.length := by
  have among : entries.map (·.2.token) ⊆ cache.recent.map (·.token) ++ held := by
    intro token member
    obtain ⟨entry, found, rfl⟩ := List.mem_map.1 member
    rcases isLive_eq_true_iff.1 (live entry found) with ⟨cell, recent, same⟩ | elsewhere
    · exact List.mem_append_left _ (List.mem_map.2 ⟨cell, recent, same⟩)
    · exact List.mem_append_right _ elsewhere
  have bound := (List.Nodup.subperm tokens among).length_le
  have retained := sound.retained
  rw [List.length_map, List.length_append, List.length_map] at bound
  omega

variable [DecidableEq κ]

theorem get?_eq_some_iff (sound : Sound computed cache) {held : List Nat} {key : κ} {cell : Cell α} :
    cache.get? held key = some cell ↔ (key, cell) ∈ cache.entries ∧ cache.isLive held cell = true := by
  rw [get?, Option.filter_eq_some_iff, entry?, valueOf_eq_some_iff sound.keys]

theorem get?_of_mem_recent (sound : Sound computed cache) {cell : Cell α} (recent : cell ∈ cache.recent) :
    ∃ key, (key, cell) ∈ computed ∧ ∀ held, cache.get? held key = some cell := by
  obtain ⟨key, stored⟩ := sound.kept cell recent
  have member := sound.entries stored
  exact ⟨key, member, fun held => sound.get?_eq_some_iff.2 ⟨stored, (sound.isLive_iff member).2 (.inl recent)⟩⟩

theorem not_recent_of_absent (sound : Sound computed cache) {held : List Nat} {key : κ}
    (absent : cache.get? held key = none) {cell : Cell α} (stored : (key, cell) ∈ cache.entries) :
    cell ∉ cache.recent := by
  intro recent
  have live : cache.isLive held cell = true := (sound.isLive_iff (sound.entries stored)).2 (.inl recent)
  rw [sound.get?_eq_some_iff.2 ⟨stored, live⟩] at absent
  cases absent

end Sound

theorem mem_prune_iff {cache : Cache κ α} {held : List Nat} {added : Nat} {entries : List (κ × Cell α)}
    {entry : κ × Cell α} : entry ∈ cache.prune held added entries ↔ entry ∈ entries ∧
      (2 * cache.capacity < entries.length → cache.isLive (added :: held) entry.2 = true) := by
  unfold prune
  split
  · next crowded => rw [List.mem_filter, forall_prop_of_true crowded]
  · next roomy => exact ⟨fun member => ⟨member, fun crowded => absurd crowded roomy⟩, And.left⟩

theorem prune_sublist (cache : Cache κ α) (held : List Nat) (added : Nat) (entries : List (κ × Cell α)) :
    (cache.prune held added entries).Sublist entries := by
  unfold prune
  split
  · exact List.filter_sublist
  · exact List.Sublist.refl _

variable [DecidableEq κ]

/-- Putting in a new value for a key that has no live one. -/
theorem Sound.put {computed : List (κ × Cell α)} {cache : Cache κ α} (sound : Sound computed cache)
    {held : List Nat} {key : κ} (absent : cache.get? held key = none) (value : α) :
    Sound ((key, ⟨cache.next, value⟩) :: computed) (cache.put held key value) where
  fresh := by
    rw [List.forall_mem_cons]
    exact ⟨Nat.lt_succ_self _, fun entry member => Nat.lt_succ_of_lt (sound.fresh entry member)⟩
  apart := by
    rw [List.map_cons, List.nodup_cons]
    refine ⟨fun again => ?_, sound.apart⟩
    obtain ⟨entry, member, same⟩ := List.mem_map.1 again
    exact Nat.ne_of_lt (sound.fresh entry member) same
  entries := by
    intro entry member
    rcases List.mem_cons.1 (mem_prune member) with rfl | old
    · exact List.mem_cons_self
    · exact List.mem_cons_of_mem _ (sound.entries (List.mem_filter.1 old).1)
  keys := by
    refine ((cache.prune_sublist held cache.next _).map Prod.fst).nodup ?_
    rw [List.map_cons, List.nodup_cons]
    refine ⟨fun again => ?_, (List.filter_sublist.map Prod.fst).nodup sound.keys⟩
    obtain ⟨entry, member, same⟩ := List.mem_map.1 again
    simpa [same] using (List.mem_filter.1 member).2
  kept := by
    intro cell recent
    -- what stays among the latest is alive when dead entries are dropped, and no entry of the key was among them
    rcases List.mem_append.1 (latest_subset _ _ recent) with old | new
    · obtain ⟨other, stored⟩ := sound.kept cell old
      refine ⟨other, mem_prune_iff.2 ⟨List.mem_cons_of_mem _ (List.mem_filter.2 ⟨stored, ?_⟩), fun _ => ?_⟩⟩
      · refine decide_eq_true ?_
        rintro rfl
        exact sound.not_recent_of_absent absent stored old
      · exact (sound.isLive_iff (sound.entries stored)).2 (.inl old)
    · obtain rfl := List.mem_singleton.1 new
      refine ⟨key, mem_prune_iff.2 ⟨List.mem_cons_self, fun _ => ?_⟩⟩
      exact isLive_eq_true_iff.2 (.inr List.mem_cons_self)
  retained := latest_length_le _ _

/-- Right after a value is put in, there are few entries, or all of them are alive but the one, at most, whose
value the new one drove out. -/
theorem Sound.put_size {computed : List (κ × Cell α)} {cache : Cache κ α} (sound : Sound computed cache)
    (positive : 0 < cache.capacity) (held : List Nat) (key : κ) (value : α) :
    (cache.put held key value).size ≤ 2 * cache.capacity ∨ ∀ entry ∈ (cache.put held key value).entries,
      (cache.put held key value).isLive held entry.2 = true ∨
        cache.recent.head? = some entry.2 ∧ entry.2 ∉ (cache.put held key value).recent := by
  by_cases roomy : (cache.put held key value).size ≤ 2 * cache.capacity
  · exact .inl roomy
  refine .inr fun entry member => ?_
  have crowded : 2 * cache.capacity < ((key, ⟨cache.next, value⟩) :: cache.entries.filter (·.1 ≠ key)).length :=
    Nat.lt_of_lt_of_le (Nat.lt_of_not_le roomy) (cache.prune_sublist held cache.next _).length_le
  obtain ⟨among, live⟩ := mem_prune_iff.1 member
  have alive : cache.isLive (cache.next :: held) entry.2 = true := live crowded
  by_cases recent : entry.2 ∈ (cache.put held key value).recent
  · exact .inl (isLive_eq_true_iff.2 (.inl ⟨entry.2, recent, rfl⟩))
  rcases List.mem_cons.1 among with rfl | old
  · exact absurd (mem_latest_append_self positive cache.recent ⟨cache.next, value⟩) recent
  have stored : entry ∈ computed := sound.entries (List.mem_filter.1 old).1
  rcases (sound.isLive_iff stored).1 alive with kept | elsewhere
  · exact .inr ⟨head_of_not_mem_latest kept sound.retained _ recent, recent⟩
  · have older : entry.2.token ≠ cache.next := Nat.ne_of_lt (sound.fresh entry stored)
    exact .inl (isLive_eq_true_iff.2 (.inr ((List.mem_cons.1 elsewhere).resolve_left older)))

theorem Sound.put_size_unheld {computed : List (κ × Cell α)} {cache : Cache κ α} (sound : Sound computed cache)
    (positive : 0 < cache.capacity) {key : κ} (absent : cache.get? [] key = none) (value : α) :
    (cache.put [] key value).size ≤ 2 * cache.capacity := by
  by_contra large
  have crowded : 2 * cache.capacity < ((key, ⟨cache.next, value⟩) :: cache.entries.filter (·.1 ≠ key)).length :=
    Nat.lt_of_lt_of_le (Nat.lt_of_not_le large) (cache.prune_sublist [] cache.next _).length_le
  have live : ∀ entry ∈ (cache.put [] key value).entries, cache.isLive [cache.next] entry.2 = true :=
    fun entry member => (mem_prune_iff.1 member).2 crowded
  have bound := sound.length_le_of_live (sound.put absent value).tokens live
  rw [size] at large
  rw [List.length_singleton] at bound
  omega

def serve (cache : Cache κ α) (held : List Nat) : Request κ ε α → Cache κ α
  | .fetch key compute => (cache.fetch held key compute).2
  | .get _ => cache
  | .clear => cache.clear

def computed? (cache : Cache κ α) (held : List Nat) : Request κ ε α → Option (κ × Cell α)
  | .fetch key compute =>
    match cache.lookUp held key, compute () with
    | (none, _), .ok value => some (key, ⟨cache.next, value⟩)
    | _, _ => none
  | .get _ | .clear => none

/-- A request finds a value or is none to compute one, has a computation fail, or has a value put in. -/
theorem serve_cases (cache : Cache κ α) (held : List Nat) (request : Request κ ε α) :
    (cache.computed? held request = none ∧ (cache.serve held request = cache.clear ∨
      ∃ hits misses, cache.serve held request = { cache with hits := hits, misses := misses })) ∨
    ∃ key value misses, cache.get? held key = none ∧ cache.computed? held request = some (key, ⟨cache.next, value⟩) ∧
      cache.serve held request = { cache with misses := misses }.put held key value := by
  cases request with
  | clear => exact .inl ⟨rfl, .inl rfl⟩
  | get key => exact .inl ⟨rfl, .inr ⟨cache.hits, cache.misses, rfl⟩⟩
  | fetch key compute =>
    rcases cache.fetch_cases held key compute with ⟨cell, found, fetched⟩ | ⟨absent, failure, failed, fetched⟩ |
      ⟨absent, value, computes, fetched⟩
    · exact .inl ⟨by simp [computed?, lookUp, found], .inr ⟨_, _, congrArg Prod.snd fetched⟩⟩
    · exact .inl ⟨by simp [computed?, lookUp, absent, failed], .inr ⟨_, _, congrArg Prod.snd fetched⟩⟩
    · exact .inr ⟨key, value, _, absent, by simp [computed?, lookUp, absent, computes], congrArg Prod.snd fetched⟩

end Cache

structure TracedCache (κ α : Type) where
  cache : Cache κ α
  computed : List (κ × Cell α) := []

namespace TracedCache
open Cache

variable {κ α ε : Type}

def ofCapacity (capacity : Nat) : TracedCache κ α := { cache := .ofCapacity capacity }

/-- A cache of some capacity keeps what has been computed for it as it should. -/
structure Sound (capacity : Nat) (traced : TracedCache κ α) : Prop where
  capacity : traced.cache.capacity = capacity
  cache : traced.cache.Sound traced.computed

theorem Sound.ofCapacity (capacity : Nat) : Sound (max capacity 1) (ofCapacity capacity : TracedCache κ α) :=
  ⟨rfl, .ofCapacity capacity⟩

variable [DecidableEq κ]

def serve (traced : TracedCache κ α) (held : List Nat) (request : Request κ ε α) : TracedCache κ α where
  cache := traced.cache.serve held request
  computed := (traced.cache.computed? held request).toList ++ traced.computed

def run (traced : TracedCache κ α) (requests : List (List Nat × Request κ ε α)) : TracedCache κ α :=
  requests.foldl (fun traced request => traced.serve request.1 request.2) traced

namespace Sound

variable {capacity : Nat} {traced : TracedCache κ α}

theorem serve (sound : Sound capacity traced) (held : List Nat) (request : Request κ ε α) :
    Sound capacity (traced.serve held request) := by
  unfold TracedCache.serve
  rcases traced.cache.serve_cases held request with ⟨none_, cleared | ⟨hits, misses, counted⟩⟩ |
    ⟨key, value, misses, absent, computes, put⟩
  · rw [none_, cleared]
    exact ⟨sound.capacity, sound.cache.clear⟩
  · rw [none_, counted]
    exact ⟨sound.capacity, sound.cache.counted hits misses⟩
  · rw [computes, put]
    exact ⟨sound.capacity, (sound.cache.counted traced.cache.hits misses).put absent value⟩

theorem run (sound : Sound capacity traced) (requests : List (List Nat × Request κ ε α)) :
    Sound capacity (traced.run requests) := by
  induction requests generalizing traced with
  | nil => exact sound
  | cons request requests ih => exact ih (sound.serve request.1 request.2)

theorem serve_size (sound : Sound capacity traced) (positive : 0 < capacity)
    (small : traced.cache.size ≤ 2 * capacity) (request : Request κ ε α) :
    (traced.serve [] request).cache.size ≤ 2 * capacity := by
  unfold TracedCache.serve
  rcases traced.cache.serve_cases [] request with ⟨-, cleared | ⟨hits, misses, counted⟩⟩ |
    ⟨key, value, misses, absent, -, put⟩
  · rw [cleared]
    exact Nat.zero_le _
  · rw [counted]
    exact small
  · obtain rfl := sound.capacity
    rw [put]
    exact (sound.cache.counted traced.cache.hits misses).put_size_unheld positive absent value

theorem run_size (sound : Sound capacity traced) (positive : 0 < capacity)
    (small : traced.cache.size ≤ 2 * capacity) {requests : List (List Nat × Request κ ε α)}
    (unheld : ∀ request ∈ requests, request.1 = []) : (traced.run requests).cache.size ≤ 2 * capacity := by
  induction requests generalizing traced with
  | nil => exact small
  | cons request requests ih =>
    obtain ⟨held, request⟩ := request
    obtain ⟨first, others⟩ := List.forall_mem_cons.1 unheld
    obtain rfl : held = [] := first
    exact ih (sound.serve [] request) (sound.serve_size positive small request) others

/-- Right after a value has been put in there are few entries, or only the value that it drove out is dead. -/
theorem serve_added (sound : Sound capacity traced) (positive : 0 < capacity) {held : List Nat}
    {request : Request κ ε α} {added : κ × Cell α} (computes : traced.cache.computed? held request = some added) :
    let after := traced.cache.serve held request
    after.size ≤ 2 * capacity ∨ ∀ entry ∈ after.entries, after.isLive held entry.2 = true ∨
      traced.cache.recent.head? = some entry.2 ∧ entry.2 ∉ after.recent := by
  rcases traced.cache.serve_cases held request with ⟨none_, -⟩ | ⟨key, value, misses, -, -, put⟩
  · rw [none_] at computes
    cases computes
  · obtain rfl := sound.capacity
    rw [put]
    exact (sound.cache.counted traced.cache.hits misses).put_size positive held key value

end Sound

end TracedCache

open Cache

/-- The bounds of a cache over every run of requests, whatever callers hold meanwhile. No more values are kept than
the capacity allows, and each of them is found under the key that it was computed for. A failure is counted and
changes nothing else. Whenever a value is put in, there are no more than twice as many entries as values may be
kept, or all entries are alive but that of the value that was driven out; and there are never more where callers
hold nothing. -/
theorem cache_bounds_of_run {κ α ε : Type} [DecidableEq κ] (capacity : Nat)
    (requests : List (List Nat × Request κ ε α)) :
    let traced := (TracedCache.ofCapacity capacity).run requests
    let cache := traced.cache
    cache.retained ≤ max capacity 1 ∧
    (traced.computed.map (·.2.token)).Nodup ∧
    (∀ cell ∈ cache.recent, ∃ key, (key, cell) ∈ traced.computed ∧ ∀ held, cache.get? held key = some cell) ∧
    (∀ (held : List Nat) (key : κ) (compute : Unit → Except ε α) (failure : ε),
      (cache.fetch held key compute).1 = .error failure → compute () = .error failure ∧
        (cache.fetch held key compute).2 = { cache with misses := cache.misses + 1 }) ∧
    (∀ (held : List Nat) (request : Request κ ε α) (added : κ × Cell α),
      cache.computed? held request = some added →
        let after := cache.serve held request
        after.size ≤ 2 * max capacity 1 ∨ ∀ entry ∈ after.entries, after.isLive held entry.2 = true ∨
          cache.recent.head? = some entry.2 ∧ entry.2 ∉ after.recent) ∧
    ((∀ request ∈ requests, request.1 = []) → cache.size ≤ 2 * max capacity 1) := by
  intro traced cache
  have start := TracedCache.Sound.ofCapacity (κ := κ) (α := α) capacity
  have positive : 0 < max capacity 1 := Nat.lt_of_lt_of_le Nat.zero_lt_one (Nat.le_max_right _ _)
  have sound : TracedCache.Sound (max capacity 1) traced := start.run requests
  refine ⟨?_, sound.cache.apart, fun cell recent => sound.cache.get?_of_mem_recent recent, ?_, ?_, ?_⟩
  · exact sound.capacity ▸ sound.cache.retained
  · intro held key compute failure failed
    rcases cache.fetch_cases held key compute with ⟨cell, -, fetched⟩ | ⟨-, other, refused, fetched⟩ |
      ⟨-, value, -, fetched⟩
    · rw [fetched] at failed
      cases failed
    · rw [fetched] at failed ⊢
      cases failed
      exact ⟨refused, rfl⟩
    · rw [fetched] at failed
      cases failed
  · intro held request added computes
    exact sound.serve_added positive computes
  · intro unheld
    exact start.run_size positive (Nat.zero_le _) unheld

/-- A cache of one value has three entries while the values of two are held elsewhere, and no more than two where
nobody holds any. A failure leaves either as it is. -/
theorem cache_bounds_of_held :
    let fetch (held : List Nat) (key : Nat) : List Nat × Request Nat String Nat := (held, .fetch key fun _ => .ok key)
    let held := ((TracedCache.ofCapacity 0).run [fetch [] 1, fetch [0] 2, fetch [0, 1] 3]).cache
    let unheld := ((TracedCache.ofCapacity 0).run [fetch [] 1, fetch [] 2, fetch [] 3]).cache
    held.size = 3 ∧ held.retained ≤ 1 ∧ unheld.size ≤ 2 ∧
      (held.fetch [] 4 fun _ => .error "stripped").2 = { held with misses := held.misses + 1 } := by
  intro fetch held unheld
  obtain ⟨retained, -, -, failed, -⟩ := cache_bounds_of_run 0 [fetch [] 1, fetch [0] 2, fetch [0, 1] 3]
  obtain ⟨-, -, -, -, -, few⟩ := cache_bounds_of_run 0 [fetch [] 1, fetch [] 2, fetch [] 3]
  exact ⟨rfl, retained, few (by decide), (failed [] 4 (fun _ => .error "stripped") "stripped" rfl).2⟩

end Backtrace
