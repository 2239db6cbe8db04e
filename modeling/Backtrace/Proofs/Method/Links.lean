import Backtrace.Method.Table
import Mathlib.Data.List.Nodup

/-!
Walks along the links of methods. Where ids are distinct there is one way to go on; a walk ends at a method
that does not point at another, leaves the methods, or comes back to one that it has passed.
-/
namespace Backtrace

namespace Linking

structure MethodOf (methods : List Method) (id : MethodId) (method : Method) : Prop where
  member : method ∈ methods
  same : method.id = id

/-- Links lead from an id to the id `last`. The methods of `path` are passed on the way, in this order. -/
inductive Walk (methods : List Method) : MethodId → List MethodId → MethodId → Prop
  | here (id : MethodId) : Walk methods id [] id
  | on {id target last : MethodId} {path : List MethodId} {method : Method} (found : MethodOf methods id method)
      (link : method.synthesis.link? = some target) (rest : Walk methods target path last) :
      Walk methods id (id :: path) last

structure Trail (methods : List Method) (id : MethodId) (path : List MethodId) (last : MethodId) : Prop where
  walk : Walk methods id path last
  once : path.Nodup

inductive EndsAfter (methods : List Method) : Nat → MethodId → Prop
  | here {id : MethodId} {method : Method} (found : MethodOf methods id method)
      (single : method.synthesis.link? = none) : EndsAfter methods 0 id
  | on {steps : Nat} {id target : MethodId} {method : Method} (found : MethodOf methods id method)
      (link : method.synthesis.link? = some target) (rest : EndsAfter methods steps target) :
      EndsAfter methods (steps + 1) id

/-- Links lead from an id out of the methods, or back to the first method that is met again. -/
inductive Strays (methods : List Method) (id : MethodId) : Failure → Prop
  | leaves {path : List MethodId} {missing : MethodId} (trail : Trail methods id path missing)
      (unknown : missing ∉ methods.map (·.id)) : Strays methods id (.unknownMethod missing)
  | returns {path : List MethodId} {again : MethodId} (trail : Trail methods id path again)
      (back : again ∈ path) : Strays methods id (.linkCycle again)

variable {methods : List Method} {id last : MethodId} {path : List MethodId}

theorem MethodOf.mem_ids {method : Method} (found : MethodOf methods id method) : id ∈ methods.map (·.id) :=
  List.mem_map.2 ⟨method, found.member, found.same⟩

theorem MethodOf.unique {first second : Method} (distinct : (methods.map (·.id)).Nodup)
    (found : MethodOf methods id first) (alsoFound : MethodOf methods id second) : first = second :=
  List.inj_on_of_nodup_map distinct found.member alsoFound.member (found.same.trans alsoFound.same.symm)

theorem Walk.snoc {method : Method} {target : MethodId} (walk : Walk methods id path last)
    (found : MethodOf methods last method) (link : method.synthesis.link? = some target) :
    Walk methods id (path ++ [last]) target := by
  induction walk with
  | here id => exact .on found link (.here target)
  | on first step _ ih => exact .on first step (ih found)

theorem Walk.mem_ids {x : MethodId} (walk : Walk methods id path last) (member : x ∈ path) :
    x ∈ methods.map (·.id) := by
  induction walk with
  | here id => cases member
  | on found _ _ ih =>
    rcases List.mem_cons.1 member with rfl | later
    · exact found.mem_ids
    · exact ih later

theorem Walk.before_mem {x : MethodId} (walk : Walk methods id path last) (member : x ∈ path) :
    ∃ front, Walk methods id front x ∧ front.length < path.length := by
  induction walk with
  | here id => cases member
  | @on id target last path method found link rest ih =>
    rcases List.mem_cons.1 member with rfl | later
    · exact ⟨[], .here _, Nat.zero_lt_succ _⟩
    · obtain ⟨front, walk, shorter⟩ := ih later
      exact ⟨id :: front, .on found link walk, Nat.succ_lt_succ shorter⟩

/-- There is one way to follow links: the longer walk goes on where the shorter one ends. -/
theorem Walk.goes_on {other : MethodId} {longer : List MethodId} (distinct : (methods.map (·.id)).Nodup)
    (walk : Walk methods id path last) (far : Walk methods id longer other) (shorter : path.length ≤ longer.length) :
    ∃ more, longer = path ++ more ∧ Walk methods last more other := by
  induction walk generalizing longer with
  | here id => exact ⟨longer, rfl, far⟩
  | on found link rest ih =>
    cases far with
    | here => cases shorter
    | on alsoFound alsoLink alsoRest =>
      obtain rfl := found.unique distinct alsoFound
      obtain rfl := Option.some.inj (link.symm.trans alsoLink)
      obtain ⟨more, rfl, further⟩ := ih alsoRest (Nat.le_of_succ_le_succ shorter)
      exact ⟨more, rfl, further⟩

theorem Trail.eq_of_stuck {other : MethodId} {longer : List MethodId} (distinct : (methods.map (·.id)).Nodup)
    (trail : Trail methods id path last) (far : Trail methods id longer other)
    (shorter : path.length ≤ longer.length) (stuck : last ∉ methods.map (·.id) ∨ last ∈ path) :
    longer = path ∧ other = last := by
  obtain ⟨more, rfl, further⟩ := trail.walk.goes_on distinct far.walk shorter
  cases further with
  | here => exact ⟨List.append_nil path, rfl⟩
  | on found _ _ =>
    rcases stuck with unknown | back
    · exact absurd found.mem_ids unknown
    · exact absurd far.once fun once => (List.nodup_append.1 once).2.2 last back last List.mem_cons_self rfl

namespace EndsAfter

variable {steps : Nat}

theorem mem_ids (ends : EndsAfter methods steps id) : id ∈ methods.map (·.id) := by
  cases ends with
  | here found _ => exact found.mem_ids
  | on found _ _ => exact found.mem_ids

theorem unique {others : Nat} (distinct : (methods.map (·.id)).Nodup) (ends : EndsAfter methods steps id)
    (also : EndsAfter methods others id) : steps = others := by
  induction ends generalizing others with
  | here found single =>
    cases also with
    | here _ _ => rfl
    | on alsoFound link _ =>
      obtain rfl := found.unique distinct alsoFound
      cases single.symm.trans link
  | on found link rest ih =>
    cases also with
    | here alsoFound single =>
      obtain rfl := found.unique distinct alsoFound
      cases single.symm.trans link
    | on alsoFound alsoLink alsoRest =>
      obtain rfl := found.unique distinct alsoFound
      obtain rfl := Option.some.inj (link.symm.trans alsoLink)
      exact congrArg (· + 1) (ih alsoRest)

theorem of_walk (distinct : (methods.map (·.id)).Nodup) (walk : Walk methods id path last)
    (ends : EndsAfter methods steps id) : ∃ rest, EndsAfter methods rest last ∧ steps = path.length + rest := by
  induction walk generalizing steps with
  | here id => exact ⟨steps, ends, (Nat.zero_add steps).symm⟩
  | on found link _ ih =>
    cases ends with
    | here alsoFound single =>
      obtain rfl := found.unique distinct alsoFound
      cases single.symm.trans link
    | on alsoFound alsoLink alsoRest =>
      obtain rfl := found.unique distinct alsoFound
      obtain rfl := Option.some.inj (link.symm.trans alsoLink)
      obtain ⟨rest, further, rfl⟩ := ih alsoRest
      exact ⟨rest, further, by rw [List.length_cons, Nat.succ_add]⟩

theorem mono {others : List Method} (subset : ∀ method ∈ methods, method ∈ others)
    (ends : EndsAfter methods steps id) : EndsAfter others steps id := by
  induction ends with
  | here found single => exact .here ⟨subset _ found.member, found.same⟩ single
  | on found link _ ih => exact .on ⟨subset _ found.member, found.same⟩ link ih

end EndsAfter

namespace Strays

variable {failure : Failure}

theorem not_endsAfter (distinct : (methods.map (·.id)).Nodup) (strays : Strays methods id failure) (steps : Nat) :
    ¬EndsAfter methods steps id := by
  intro ends
  cases strays with
  | leaves trail unknown =>
    obtain ⟨rest, further, -⟩ := EndsAfter.of_walk distinct trail.walk ends
    exact unknown further.mem_ids
  | @returns path again trail back =>
    obtain ⟨front, walk, shorter⟩ := trail.walk.before_mem back
    obtain ⟨rest, further, all⟩ := EndsAfter.of_walk distinct trail.walk ends
    obtain ⟨more, alsoFurther, alsoAll⟩ := EndsAfter.of_walk distinct walk ends
    have same := further.unique distinct alsoFurther
    omega

theorem trail (strays : Strays methods id failure) : ∃ path last, Trail methods id path last ∧
    (last ∉ methods.map (·.id) ∧ failure = .unknownMethod last ∨ last ∈ path ∧ failure = .linkCycle last) := by
  cases strays with
  | leaves trail unknown => exact ⟨_, _, trail, .inl ⟨unknown, rfl⟩⟩
  | returns trail back => exact ⟨_, _, trail, .inr ⟨back, rfl⟩⟩

theorem unique {other : Failure} (distinct : (methods.map (·.id)).Nodup) (strays : Strays methods id failure)
    (also : Strays methods id other) : failure = other := by
  obtain ⟨path, last, trail, told⟩ := strays.trail
  obtain ⟨longer, far, alsoTrail, alsoTold⟩ := also.trail
  have same : longer = path ∧ far = last := by
    rcases Nat.le_total path.length longer.length with shorter | longer_
    · exact trail.eq_of_stuck distinct alsoTrail shorter (told.imp And.left And.left)
    · obtain ⟨rfl, rfl⟩ := alsoTrail.eq_of_stuck distinct trail longer_ (alsoTold.imp And.left And.left)
      exact ⟨rfl, rfl⟩
  obtain ⟨rfl, rfl⟩ := same
  rcases told with ⟨unknown, rfl⟩ | ⟨back, rfl⟩ <;> rcases alsoTold with ⟨alsoUnknown, rfl⟩ | ⟨alsoBack, rfl⟩
  · rfl
  · exact absurd (trail.walk.mem_ids alsoBack) unknown
  · exact absurd (trail.walk.mem_ids back) alsoUnknown
  · rfl

end Strays

/-- A method that is linked: as it was given, if it does not point at another, or to a linked one. -/
inductive Linked (methods : List Method) : Method → Prop
  | single {method : Method} (member : method ∈ methods) (single : method.synthesis.link? = none) :
      Linked methods method
  | on {method linked : Method} (member : method ∈ methods) (link : method.synthesis.link? = some linked.id)
      (rest : Linked methods linked) : Linked methods { method with link := some linked }

namespace Linked

variable {method : Method}

theorem unique {first second : Method} (distinct : (methods.map (·.id)).Nodup) (linked : Linked methods first)
    (also : Linked methods second) (same : first.id = second.id) : first = second := by
  induction linked generalizing second with
  | @single method member single =>
    cases also with
    | single alsoMember _ => exact MethodOf.unique distinct ⟨member, same⟩ ⟨alsoMember, rfl⟩
    | on alsoMember link _ =>
      obtain rfl := MethodOf.unique distinct ⟨member, same⟩ ⟨alsoMember, rfl⟩
      cases single.symm.trans link
  | @on method linked member link _ ih =>
    cases also with
    | single alsoMember single =>
      obtain rfl := MethodOf.unique distinct ⟨member, same⟩ ⟨alsoMember, rfl⟩
      cases single.symm.trans link
    | on alsoMember alsoLink alsoRest =>
      obtain rfl := MethodOf.unique distinct ⟨member, same⟩ ⟨alsoMember, rfl⟩
      obtain rfl := ih alsoRest (Option.some.inj (link.symm.trans alsoLink))
      rfl

theorem endsAfter (linked : Linked methods method) : ∃ steps, EndsAfter methods steps method.id := by
  induction linked with
  | single member single => exact ⟨0, .here ⟨member, rfl⟩ single⟩
  | on member link _ ih =>
    obtain ⟨steps, ends⟩ := ih
    exact ⟨steps + 1, .on ⟨member, rfl⟩ link ends⟩

theorem mono {others : List Method} (subset : ∀ method ∈ methods, method ∈ others) (linked : Linked methods method) :
    Linked others method := by
  induction linked with
  | single member single => exact .single (subset _ member) single
  | on member link _ ih => exact .on (subset _ member) link ih

end Linked

end Linking

end Backtrace
