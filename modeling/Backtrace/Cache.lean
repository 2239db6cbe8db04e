/-!
A cache that keeps its latest values and finds older ones as long as someone else holds them. Each
value put into it gets a token of its own; who holds values is told by their tokens.
-/
namespace Backtrace

structure Cell (α : Type) where
  token : Nat
  value : α

/-- The latest values, the oldest first, and an entry for each key that has been given a value. An
entry whose value nobody holds any more is dead. -/
structure Cache (κ α : Type) where
  capacity : Nat
  entries : List (κ × Cell α) := []
  recent : List (Cell α) := []
  hits : Nat := 0
  misses : Nat := 0
  /-- The next token. -/
  next : Nat := 0

namespace Cache

variable {κ α ε : Type} [DecidableEq κ]

def ofCapacity (capacity : Nat) : Cache κ α := { capacity := max capacity 1 }

def isLive (cache : Cache κ α) (held : List Nat) (cell : Cell α) : Bool :=
  cache.recent.any (·.token = cell.token) || held.contains cell.token

def entry? (cache : Cache κ α) (key : κ) : Option (Cell α) := (cache.entries.find? (·.1 = key)).map (·.2)

def get? (cache : Cache κ α) (held : List Nat) (key : κ) : Option (Cell α) :=
  (cache.entry? key).filter (cache.isLive held)

def lookUp (cache : Cache κ α) (held : List Nat) (key : κ) : Option (Cell α) × Cache κ α :=
  match cache.get? held key with
  | some cell => (some cell, { cache with hits := cache.hits + 1 })
  | none => (none, { cache with misses := cache.misses + 1 })

def latest (count : Nat) (cells : List (Cell α)) : List (Cell α) := cells.drop (cells.length - count)

/-- Drops dead entries when there are more than twice as many as values may be kept. The value that is
being put in counts as live. -/
def prune (cache : Cache κ α) (held : List Nat) (added : Nat) (entries : List (κ × Cell α)) :
    List (κ × Cell α) :=
  if 2 * cache.capacity < entries.length then entries.filter fun entry => cache.isLive (added :: held) entry.2
  else entries

/-- Puts a value in, unless the key has a live one by now, and gives the one that the key has. -/
def insert (cache : Cache κ α) (held : List Nat) (key : κ) (value : α) : Cell α × Cache κ α :=
  match cache.get? held key with
  | some cell => (cell, cache)
  | none =>
    let cell : Cell α := ⟨cache.next, value⟩
    let entries := (key, cell) :: cache.entries.filter (·.1 ≠ key)
    (cell, { cache with
      entries := cache.prune held cell.token entries
      recent := latest cache.capacity (cache.recent ++ [cell])
      next := cache.next + 1 })

/-- The value of a key, computed and put in where there is none. A failure is not kept. -/
def fetch (cache : Cache κ α) (held : List Nat) (key : κ) (compute : Unit → Except ε α) :
    Except ε (Cell α) × Cache κ α :=
  match cache.lookUp held key with
  | (some cell, cache) => (.ok cell, cache)
  | (none, cache) =>
    match compute () with
    | .error e => (.error e, cache)
    | .ok value =>
      let (cell, cache) := cache.insert held key value
      (.ok cell, cache)

def clear (cache : Cache κ α) : Cache κ α := { cache with entries := [], recent := [] }

def size (cache : Cache κ α) : Nat := cache.entries.length

def retained (cache : Cache κ α) : Nat := cache.recent.length

theorem latest_length_le (count : Nat) (cells : List (Cell α)) : (latest count cells).length ≤ count := by
  unfold latest
  rw [List.length_drop]
  omega

end Cache

end Backtrace
