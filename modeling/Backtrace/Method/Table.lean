import Backtrace.Failure

/-! Methods linked with each other. -/
namespace Backtrace

def firstRepeated? : (seen ids : List MethodId) → Option MethodId
  | _, [] => none
  | seen, id :: ids => if id ∈ seen then some id else firstRepeated? (id :: seen) ids

def without (id : MethodId) (methods : List Method) : List Method := methods.filter (·.id ≠ id)

theorem without_length_lt {id : MethodId} {methods : List Method} {method : Method}
    (h : methods.find? (·.id = id) = some method) : (without id methods).length < methods.length :=
  List.length_filter_lt_length_iff_exists.2
    ⟨method, List.mem_of_find?_eq_some h, by simpa using List.find?_some h⟩

/-- Methods that are being linked: those that are done, the latest first, and those that no walk has
passed. -/
structure Linking where
  done : List Method := []
  pending : List Method

namespace Linking

def take (state : Linking) (id : MethodId) : Linking := { state with pending := without id state.pending }

def finish (state : Linking) (method : Method) : Linking := { state with done := method :: state.done }

/-- The linked method of an id. The methods that the walk has passed on its way wait for this one. A
method whose record does not point at another keeps the link that it came with. -/
def method (passed : List MethodId) (state : Linking) (id : MethodId) : Except Failure (Method × Linking) :=
  match state.done.find? (·.id = id) with
  | some method => .ok (method, state)
  | none =>
    if id ∈ passed then .error (.linkCycle id)
    else
      match _ : state.pending.find? (·.id = id) with
      | none => .error (.unknownMethod id)
      | some method =>
        match method.synthesis.link? with
        | none => .ok (method, (state.take id).finish method)
        | some target =>
          match (state.take id).method (id :: passed) target with
          | .error failure => .error failure
          | .ok (linked, state) =>
            let method := { method with link := some linked }
            .ok (method, state.finish method)
termination_by state.pending.length
decreasing_by exact without_length_lt ‹_›

def methods (state : Linking) : List MethodId → Except Failure Linking
  | [] => .ok state
  | id :: ids => do
    let (_, state) ← state.method [] id
    state.methods ids

end Linking

structure MethodTable where
  methods : List Method := []

namespace MethodTable

/-- Links methods with each other: their ids are distinct, and each chain of links ends inside. -/
def ofMethods (methods : List Method) : Except Failure MethodTable :=
  match firstRepeated? [] (methods.map (·.id)) with
  | some id => .error (.repeatedMethod id)
  | none => do
    let state ← Linking.methods { pending := methods } (methods.map (·.id))
    return ⟨state.done⟩

def build (records : List MethodRecord) : Except Failure MethodTable :=
  ofMethods (records.map fun record => { record with })

def get? (table : MethodTable) (id : MethodId) : Option Method := table.methods.find? (·.id = id)

def size (table : MethodTable) : Nat := table.methods.length

end MethodTable

end Backtrace
