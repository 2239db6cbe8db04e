import Backtrace.Proofs.Method.Links
import Mathlib.Data.List.Perm.Basic
import Mathlib.Tactic.Tauto

/-!
Which methods can be linked with each other, and what their table holds. Linking succeeds where every walk
along links ends, and then gives each id one method, whatever the order; otherwise it tells what is wrong
with the first walk that does not end.
-/
namespace Backtrace

namespace Linking

variable {methods : List Method} {id last : MethodId} {path : List MethodId}

/-- What is so while a walk waits in the methods that it has passed: what is done is linked, and pending are
those that are neither done nor passed. -/
structure Sound (methods : List Method) (passed : List MethodId) (state : Linking) : Prop where
  linked : ∀ method ∈ state.done, Linked methods method
  distinct : (state.done.map (·.id)).Nodup
  waiting : ∀ id ∈ passed, id ∉ state.done.map (·.id)
  pending : ∀ method, method ∈ state.pending ↔
    method ∈ methods ∧ method.id ∉ passed ∧ method.id ∉ state.done.map (·.id)

namespace Sound

variable {passed : List MethodId} {state : Linking}

theorem start (methods : List Method) : Sound methods [] { pending := methods } :=
  ⟨by simp, List.nodup_nil, by simp, by simp⟩

theorem take (sound : Sound methods passed state) (undone : id ∉ state.done.map (·.id)) :
    Sound methods (id :: passed) (state.take id) where
  linked := sound.linked
  distinct := sound.distinct
  waiting := List.forall_mem_cons.2 ⟨undone, sound.waiting⟩
  pending method := by
    simp only [Linking.take, without, List.mem_filter, sound.pending, decide_eq_true_eq, List.mem_cons, not_or]
    tauto

theorem finish {method : Method} (sound : Sound methods (method.id :: passed) state) (new : method.id ∉ passed)
    (linked : Linked methods method) : Sound methods passed (state.finish method) where
  linked := List.forall_mem_cons.2 ⟨linked, sound.linked⟩
  distinct := List.nodup_cons.2 ⟨sound.waiting method.id List.mem_cons_self, sound.distinct⟩
  waiting id member := by
    rw [Linking.finish, List.map_cons, List.mem_cons, not_or]
    exact ⟨fun same => new (same ▸ member), sound.waiting id (List.mem_cons_of_mem _ member)⟩
  pending other := by
    simp only [Linking.finish, sound.pending, List.map_cons, List.mem_cons, not_or]
    tauto

end Sound

theorem methodOf_find? {methods : List Method} {method : Method} (found : methods.find? (·.id = id) = some method) :
    MethodOf methods id method := ⟨List.mem_of_find?_eq_some found, by simpa using List.find?_some found⟩

theorem not_mem_ids_of_find? (absent : methods.find? (·.id = id) = none) : id ∉ methods.map (·.id) := by
  intro member
  obtain ⟨method, found, same⟩ := List.mem_map.1 member
  simpa [same] using List.find?_eq_none.1 absent method found

variable {passed : List MethodId} {state : Linking} {method : Method}

theorem Sound.methodOf_pending (sound : Sound methods passed state)
    (found : state.pending.find? (·.id = id) = some method) : MethodOf methods id method :=
  ⟨((sound.pending method).1 (methodOf_find? found).member).1, (methodOf_find? found).same⟩

theorem Sound.unknown (sound : Sound methods passed state) (undone : id ∉ state.done.map (·.id)) (new : id ∉ passed)
    (absent : state.pending.find? (·.id = id) = none) : id ∉ methods.map (·.id) := by
  intro member
  obtain ⟨method, found, rfl⟩ := List.mem_map.1 member
  exact not_mem_ids_of_find? absent (List.mem_map_of_mem ((sound.pending method).2 ⟨found, new, undone⟩))

theorem Trail.snoc {target : MethodId} (trail : Trail methods id path last) (found : MethodOf methods last method)
    (link : method.synthesis.link? = some target) (new : last ∉ path) : Trail methods id (path ++ [last]) target :=
  ⟨trail.walk.snoc found link, List.nodup_append.2 ⟨trail.once, List.nodup_singleton last, by
    intro x member y same
    rw [List.mem_singleton.1 same]
    exact fun equal => new (equal ▸ member)⟩⟩

/-- A walk that has come from `start` to `id`: either what it leads on to is linked, and stays so, or what
is wrong with the walk is told. -/
theorem method_sound {start : MethodId} (sound : Sound methods passed state)
    (came : Trail methods start passed.reverse id) :
    (∀ method after, state.method passed id = .ok (method, after) →
      MethodOf after.done id method ∧ (∀ other ∈ state.done, other ∈ after.done) ∧ Sound methods passed after) ∧
    (∀ failure, state.method passed id = .error failure → Strays methods start failure) := by
  -- by the recursion of the walk; the methods that it has passed wait for the one that it is at
  fun_induction Linking.method passed state id with
  | case1 passed state id method found =>
    refine ⟨fun _ _ same => ?_, fun _ same => (by cases same)⟩
    cases same
    exact ⟨methodOf_find? found, fun _ member => member, sound⟩
  | case2 passed state id undone waits =>
    -- the walk is back at a method that it has passed
    refine ⟨fun _ _ same => (by cases same), fun _ same => ?_⟩
    cases same
    exact .returns came (List.mem_reverse.2 waits)
  | case3 passed state id undone new absent =>
    -- neither done nor passed nor pending, so that no method has the id
    refine ⟨fun _ _ same => (by cases same), fun _ same => ?_⟩
    cases same
    exact .leaves came (sound.unknown (not_mem_ids_of_find? undone) new absent)
  | case4 passed state id undone new method found single =>
    refine ⟨fun _ _ same => ?_, fun _ same => (by cases same)⟩
    cases same
    obtain ⟨member, rfl⟩ := sound.methodOf_pending found
    exact ⟨⟨List.mem_cons_self, rfl⟩, fun _ => List.mem_cons_of_mem _,
      (sound.take (not_mem_ids_of_find? undone)).finish new (.single member single)⟩
  | case5 passed state id undone new method found target link failure failed ih =>
    refine ⟨fun _ _ same => (by cases same), fun _ same => ?_⟩
    cases same
    have onward := came.snoc (sound.methodOf_pending found) link (mt List.mem_reverse.1 new)
    exact (ih (sound.take (not_mem_ids_of_find? undone)) (List.reverse_cons ▸ onward)).2 _ failed
  | case6 passed state id undone new method found target link linked after made pointed ih =>
    refine ⟨fun _ _ same => ?_, fun _ same => (by cases same)⟩
    cases same
    have of_ := sound.methodOf_pending found
    have onward := came.snoc of_ link (mt List.mem_reverse.1 new)
    obtain ⟨reached, kept, waiting⟩ :=
      (ih (sound.take (not_mem_ids_of_find? undone)) (List.reverse_cons ▸ onward)).1 _ _ made
    obtain ⟨member, rfl⟩ := of_
    refine ⟨⟨List.mem_cons_self, rfl⟩, fun other old => List.mem_cons_of_mem _ (kept other old), ?_⟩
    have points : Linked methods { method with link := some linked } :=
      .on member (reached.same ▸ link) (waiting.linked linked reached.member)
    exact @Sound.finish _ _ _ { method with link := some linked } waiting new points

/-- Either all ids are linked, or what is wrong with the first one whose links do not end is told. -/
theorem methods_sound {ids : List MethodId} (sound : Sound methods [] state) :
    (∀ after, state.methods ids = .ok after → (∀ id ∈ ids, id ∈ after.done.map (·.id)) ∧
      (∀ other ∈ state.done, other ∈ after.done) ∧ Sound methods [] after) ∧
    (∀ failure, state.methods ids = .error failure → ∃ before id behind, ids = before ++ id :: behind ∧
      (∀ earlier ∈ before, ∃ steps, EndsAfter methods steps earlier) ∧ Strays methods id failure) := by
  induction ids generalizing state with
  | nil =>
    refine ⟨fun _ same => ?_, fun _ same => (by cases same)⟩
    cases same
    exact ⟨by simp, fun _ member => member, sound⟩
  | cons id ids ih =>
    have came : Trail methods id [] id := ⟨.here id, List.nodup_nil⟩
    obtain ⟨linked, refused⟩ := method_sound sound came
    rw [Linking.methods]
    cases made : state.method [] id with
    | error failure =>
      refine ⟨fun _ same => (by cases same), fun _ same => ?_⟩
      cases same
      exact ⟨[], id, ids, rfl, by simp, refused failure made⟩
    | ok result =>
      obtain ⟨method, next⟩ := result
      obtain ⟨reached, kept, onward⟩ := linked method next made
      obtain ⟨allLinked, firstRefused⟩ := ih onward
      refine ⟨fun after same => ?_, fun failure same => ?_⟩
      · obtain ⟨others, alsoKept, last⟩ := allLinked after same
        refine ⟨List.forall_mem_cons.2 ⟨?_, others⟩, fun other old => alsoKept other (kept other old), last⟩
        exact List.mem_map.2 ⟨method, alsoKept method reached.member, reached.same⟩
      · obtain ⟨before, bad, behind, rfl, good, strays⟩ := firstRefused failure same
        have ends := (onward.linked method reached.member).endsAfter
        rw [reached.same] at ends
        exact ⟨id :: before, bad, behind, rfl, List.forall_mem_cons.2 ⟨ends, good⟩, strays⟩

end Linking

open Linking

def Fresh (seen ids : List MethodId) : Prop := ids.Nodup ∧ ∀ id ∈ ids, id ∉ seen

theorem fresh_nil_iff {ids : List MethodId} : Fresh [] ids ↔ ids.Nodup := by simp [Fresh]

theorem fresh_cons_iff {seen ids : List MethodId} {id : MethodId} :
    Fresh seen (id :: ids) ↔ id ∉ seen ∧ Fresh (id :: seen) ids := by
  rw [Fresh, Fresh, List.nodup_cons, List.forall_mem_cons]
  simp only [List.mem_cons, not_or]
  constructor
  · rintro ⟨⟨once, distinct⟩, new, others⟩
    exact ⟨new, distinct, fun other member => ⟨fun same => once (same ▸ member), others other member⟩⟩
  · rintro ⟨new, distinct, others⟩
    exact ⟨⟨fun member => (others id member).1 rfl, distinct⟩, new, fun other member => (others other member).2⟩

theorem firstRepeated?_eq_none_iff {seen ids : List MethodId} :
    firstRepeated? seen ids = none ↔ Fresh seen ids := by
  induction ids generalizing seen with
  | nil => simp [firstRepeated?, Fresh]
  | cons id ids ih =>
    rw [firstRepeated?, fresh_cons_iff, ← ih]
    split
    · next old => simp [old]
    · next new => simp [new]

theorem firstRepeated?_eq_some_iff {seen ids : List MethodId} {id : MethodId} :
    firstRepeated? seen ids = some id ↔
      ∃ before behind, ids = before ++ id :: behind ∧ Fresh seen before ∧ (id ∈ before ∨ id ∈ seen) := by
  induction ids generalizing seen with
  | nil => simp [firstRepeated?]
  | cons head ids ih =>
    have seenOr (before : List MethodId) : id ∈ before ∨ id ∈ head :: seen ↔ id ∈ head :: before ∨ id ∈ seen := by
      simp only [List.mem_cons]
      tauto
    rw [firstRepeated?]
    split
    · next old =>
      rw [Option.some_inj]
      constructor
      · rintro rfl
        exact ⟨[], ids, rfl, ⟨List.nodup_nil, by simp⟩, .inr old⟩
      · rintro ⟨before, behind, parts, fresh, -⟩
        cases before with
        | nil => exact (List.cons.inj parts).1
        | cons first before =>
          obtain rfl := (List.cons.inj parts).1
          exact absurd old (fresh_cons_iff.1 fresh).1
    · next new =>
      rw [ih]
      constructor
      · rintro ⟨before, behind, rfl, fresh, again⟩
        exact ⟨head :: before, behind, rfl, fresh_cons_iff.2 ⟨new, fresh⟩, (seenOr before).1 again⟩
      · rintro ⟨before, behind, parts, fresh, again⟩
        cases before with
        | nil =>
          obtain rfl := (List.cons.inj parts).1
          exact absurd (again.resolve_left List.not_mem_nil) new
        | cons first before =>
          obtain ⟨rfl, rfl⟩ := List.cons.inj parts
          exact ⟨before, behind, rfl, (fresh_cons_iff.1 fresh).2, (seenOr before).2 again⟩

namespace MethodTable

variable {methods : List Method} {table : MethodTable} {id : MethodId}

structure Holds (methods : List Method) (table : MethodTable) : Prop where
  linked : ∀ method ∈ table.methods, Linked methods method
  distinct : (table.methods.map (·.id)).Nodup
  ids : ∀ id, id ∈ table.methods.map (·.id) ↔ id ∈ methods.map (·.id)

namespace Holds

theorem size_eq (holds : Holds methods table) (distinct : (methods.map (·.id)).Nodup) :
    table.size = methods.length := by
  have same := (List.perm_ext_iff_of_nodup holds.distinct distinct).2 holds.ids
  simpa [size] using same.length_eq

theorem get?_eq_some_iff (holds : Holds methods table) {method : Method} :
    table.get? id = some method ↔ MethodOf table.methods id method := by
  refine ⟨methodOf_find?, fun found => ?_⟩
  cases looked : table.get? id with
  | some other => rw [found.unique holds.distinct (methodOf_find? looked)]
  | none => exact absurd found.mem_ids (not_mem_ids_of_find? looked)

theorem exists_get? (holds : Holds methods table) :
    (∃ method, table.get? id = some method) ↔ id ∈ methods.map (·.id) := by
  rw [← holds.ids]
  constructor
  · rintro ⟨method, found⟩
    exact (methodOf_find? found).mem_ids
  · intro member
    obtain ⟨method, found, same⟩ := List.mem_map.1 member
    exact ⟨method, holds.get?_eq_some_iff.2 ⟨found, same⟩⟩

theorem get?_of_linked (holds : Holds methods table) (distinct : (methods.map (·.id)).Nodup) {method : Method}
    (linked : Linked methods method) : table.get? method.id = some method := by
  obtain ⟨steps, ends⟩ := linked.endsAfter
  obtain ⟨other, found⟩ := holds.exists_get?.2 ends.mem_ids
  have of_ := holds.get?_eq_some_iff.1 found
  rw [found, (holds.linked other of_.member).unique distinct linked of_.same]

end Holds

theorem ofMethods_of_distinct (distinct : (methods.map (·.id)).Nodup) : ofMethods methods =
    (fun state => ⟨state.done⟩) <$> Linking.methods { pending := methods } (methods.map (·.id)) := by
  rw [ofMethods, firstRepeated?_eq_none_iff.2 (fresh_nil_iff.2 distinct)]
  rfl

theorem distinct_of_ofMethods (made : ofMethods methods = .ok table) : (methods.map (·.id)).Nodup := by
  rw [ofMethods] at made
  split at made
  · cases made
  · next none_ => exact fresh_nil_iff.1 (firstRepeated?_eq_none_iff.1 none_)

theorem holds_of_ofMethods (made : ofMethods methods = .ok table) : Holds methods table := by
  rw [ofMethods_of_distinct (distinct_of_ofMethods made)] at made
  cases walked : Linking.methods { pending := methods } (methods.map (·.id)) with
  | error failure => rw [walked] at made; cases made
  | ok after =>
    rw [walked] at made
    cases made
    obtain ⟨all, -, sound⟩ := (methods_sound (Sound.start methods)).1 after walked
    refine ⟨sound.linked, sound.distinct, fun id => ⟨fun member => ?_, all id⟩⟩
    obtain ⟨method, found, rfl⟩ := List.mem_map.1 member
    exact (sound.linked method found).endsAfter.choose_spec.mem_ids

/-- Why methods cannot be linked: the first id that is given again or, where there is none, what is wrong
with the links of the first method whose links do not end. -/
inductive Refused (methods : List Method) : Failure → Prop
  | again {before behind : List MethodId} {id : MethodId} (ids : methods.map (·.id) = before ++ id :: behind)
      (new : before.Nodup) (old : id ∈ before) : Refused methods (.repeatedMethod id)
  | strays {before behind : List MethodId} {id : MethodId} {failure : Failure}
      (distinct : (methods.map (·.id)).Nodup) (ids : methods.map (·.id) = before ++ id :: behind)
      (good : ∀ earlier ∈ before, ∃ steps, EndsAfter methods steps earlier) (bad : Strays methods id failure) :
      Refused methods failure

theorem refused_of_ofMethods {failure : Failure} (failed : ofMethods methods = .error failure) :
    Refused methods failure := by
  cases repeated : firstRepeated? [] (methods.map (·.id)) with
  | some id =>
    rw [ofMethods, repeated] at failed
    cases failed
    obtain ⟨before, behind, ids, new, old⟩ := firstRepeated?_eq_some_iff.1 repeated
    exact .again ids (fresh_nil_iff.1 new) (old.resolve_right List.not_mem_nil)
  | none =>
    have distinct := fresh_nil_iff.1 (firstRepeated?_eq_none_iff.1 repeated)
    rw [ofMethods_of_distinct distinct] at failed
    cases walked : Linking.methods { pending := methods } (methods.map (·.id)) with
    | ok after => rw [walked] at failed; cases failed
    | error other =>
      rw [walked] at failed
      cases failed
      obtain ⟨before, id, behind, ids, good, bad⟩ := (methods_sound (Sound.start methods)).2 failure walked
      exact .strays distinct ids good bad

theorem ofMethods_eq_ok_iff : (∃ table, ofMethods methods = .ok table) ↔
    (methods.map (·.id)).Nodup ∧ ∀ method ∈ methods, ∃ steps, EndsAfter methods steps method.id := by
  constructor
  · rintro ⟨table, made⟩
    have holds := holds_of_ofMethods made
    refine ⟨distinct_of_ofMethods made, fun method member => ?_⟩
    obtain ⟨linked, found, same⟩ := List.mem_map.1 ((holds.ids method.id).2 (List.mem_map_of_mem member))
    exact same ▸ (holds.linked linked found).endsAfter
  · rintro ⟨distinct, ends⟩
    cases made : ofMethods methods with
    | ok table => exact ⟨table, rfl⟩
    | error failure =>
      exfalso
      cases refused_of_ofMethods made with
      | again ids new old =>
        rw [ids] at distinct
        exact (List.nodup_append.1 distinct).2.2 _ old _ List.mem_cons_self rfl
      | strays _ ids good bad =>
        obtain ⟨method, member, rfl⟩ := List.mem_map.1 (ids ▸ List.mem_append_right _ List.mem_cons_self)
        obtain ⟨steps, ends⟩ := ends method member
        exact bad.not_endsAfter distinct steps ends

theorem first_bad_unique {before behind others rest : List MethodId} {id other : MethodId} {good : MethodId → Prop}
    (parts : before ++ id :: behind = others ++ other :: rest) (allGood : ∀ earlier ∈ before, good earlier)
    (bad : ¬good id) (alsoGood : ∀ earlier ∈ others, good earlier) (alsoBad : ¬good other) : id = other := by
  induction before generalizing others with
  | nil =>
    cases others with
    | nil => exact (List.cons.inj parts).1
    | cons head others => exact absurd ((List.cons.inj parts).1 ▸ alsoGood head List.mem_cons_self) bad
  | cons first before ih =>
    cases others with
    | nil => exact absurd ((List.cons.inj parts).1 ▸ allGood first List.mem_cons_self) alsoBad
    | cons head others =>
      exact ih (List.cons.inj parts).2 (List.forall_mem_cons.1 allGood).2 (List.forall_mem_cons.1 alsoGood).2

theorem ofMethods_eq_error_iff {failure : Failure} :
    ofMethods methods = .error failure ↔ Refused methods failure := by
  refine ⟨refused_of_ofMethods, fun refused => ?_⟩
  cases refused with
  | again ids new old =>
    rw [ofMethods, firstRepeated?_eq_some_iff.2 ⟨_, _, ids, fresh_nil_iff.2 new, .inl old⟩]
  | @strays before behind id failure distinct ids good bad =>
    have notEnds : ¬∃ steps, EndsAfter methods steps id := fun ⟨steps, ends⟩ => bad.not_endsAfter distinct steps ends
    cases made : ofMethods methods with
    | ok table =>
      obtain ⟨method, member, rfl⟩ := List.mem_map.1 (ids ▸ List.mem_append_right before List.mem_cons_self)
      exact absurd ((ofMethods_eq_ok_iff.1 ⟨table, made⟩).2 method member) notEnds
    | error other =>
      cases refused_of_ofMethods made with
      | again alsoIds _ old =>
        rw [alsoIds] at distinct
        exact absurd rfl ((List.nodup_append.1 distinct).2.2 _ old _ List.mem_cons_self)
      | @strays _ _ id' _ _ alsoIds alsoGood alsoBad =>
        have alsoNotEnds : ¬∃ steps, EndsAfter methods steps id' :=
          fun ⟨steps, ends⟩ => alsoBad.not_endsAfter distinct steps ends
        obtain rfl := first_bad_unique (ids.symm.trans alsoIds) good notEnds alsoGood alsoNotEnds
        rw [bad.unique distinct alsoBad]

theorem Holds.get?_of_mem (holds : Holds methods table) (distinct : (methods.map (·.id)).Nodup) {method : Method}
    (member : method ∈ methods) : ∃ linked, table.get? method.id = some linked ∧ linked.record = method.record ∧
      (method.synthesis.link? = none → linked.link = method.link) ∧
      ∀ target, method.synthesis.link? = some target →
        ∃ handle, table.get? target = some handle ∧ linked.link = some handle := by
  obtain ⟨found, looked⟩ := holds.exists_get?.2 (List.mem_map_of_mem member)
  have of_ := holds.get?_eq_some_iff.1 looked
  refine ⟨found, looked, ?_⟩
  cases holds.linked found of_.member with
  | single alsoMember single =>
    obtain rfl := MethodOf.unique distinct ⟨member, rfl⟩ ⟨alsoMember, of_.same⟩
    exact ⟨rfl, fun _ => rfl, fun target link => (by cases single.symm.trans link)⟩
  | @on other linked alsoMember link rest =>
    obtain rfl := MethodOf.unique distinct ⟨member, rfl⟩ ⟨alsoMember, of_.same⟩
    refine ⟨rfl, fun none_ => (by cases none_.symm.trans link), fun target toTarget => ?_⟩
    obtain rfl := Option.some.inj (link.symm.trans toTarget)
    exact ⟨linked, holds.get?_of_linked distinct rest, rfl⟩

/-- The order in which methods are given does not matter. -/
theorem ofMethods_perm {others : List Method} (made : ofMethods methods = .ok table) (perm : others.Perm methods) :
    ∃ other, ofMethods others = .ok other ∧ ∀ id, other.get? id = table.get? id := by
  obtain ⟨distinct, ends⟩ := ofMethods_eq_ok_iff.1 ⟨table, made⟩
  have alsoDistinct : (others.map (·.id)).Nodup := (perm.map _).nodup_iff.2 distinct
  obtain ⟨other, alsoMade⟩ := ofMethods_eq_ok_iff.2 ⟨alsoDistinct, fun method member => by
    obtain ⟨steps, ends⟩ := ends method (perm.mem_iff.1 member)
    exact ⟨steps, ends.mono fun _ => perm.mem_iff.2⟩⟩
  have holds := holds_of_ofMethods made
  have alsoHolds := holds_of_ofMethods alsoMade
  refine ⟨other, alsoMade, fun id => Option.ext fun method => ?_⟩
  constructor
  · intro found
    have of_ := alsoHolds.get?_eq_some_iff.1 found
    obtain rfl := of_.same
    exact holds.get?_of_linked distinct ((alsoHolds.linked method of_.member).mono fun _ => perm.mem_iff.1)
  · intro found
    have of_ := holds.get?_eq_some_iff.1 found
    obtain rfl := of_.same
    exact alsoHolds.get?_of_linked alsoDistinct ((holds.linked method of_.member).mono fun _ => perm.mem_iff.2)

theorem Refused.stage_eq {failure : Failure} (refused : Refused methods failure) : failure.stage = .argument := by
  cases refused with
  | again => rfl
  | strays _ _ _ bad => cases bad <;> rfl

end MethodTable

/-- Linking methods. It succeeds exactly where their ids are distinct and the links of each of them end.
The table then holds one method for each id: what was given of it, linked with the table's own method of the
id that it points at, in whatever order the methods were given. Otherwise it is refused for the first id
that is given again or, where there is none, for the id that the links of the first method whose links do
not end lead to: one that is not there, or the first that is met again. A table of records is that of methods
that come without links. -/
theorem linked_table_iff (methods : List Method) :
    (∀ records : List MethodRecord, methods = records.map (fun record => { record with }) →
      MethodTable.build records = MethodTable.ofMethods methods) ∧
    ((∃ table, MethodTable.ofMethods methods = .ok table) ↔
      (methods.map (·.id)).Nodup ∧ ∀ method ∈ methods, ∃ steps, EndsAfter methods steps method.id) ∧
    (∀ table, MethodTable.ofMethods methods = .ok table →
      table.size = methods.length ∧
      (∀ id, (∃ method, table.get? id = some method) ↔ id ∈ methods.map (·.id)) ∧
      (∀ method ∈ methods, ∃ linked, table.get? method.id = some linked ∧ linked.record = method.record ∧
        (method.synthesis.link? = none → linked.link = method.link) ∧
        ∀ target, method.synthesis.link? = some target →
          ∃ handle, table.get? target = some handle ∧ linked.link = some handle) ∧
      (∀ others : List Method, others.Perm methods →
        ∃ other, MethodTable.ofMethods others = .ok other ∧ ∀ id, other.get? id = table.get? id)) ∧
    (∀ failure, MethodTable.ofMethods methods = .error failure ↔ MethodTable.Refused methods failure) ∧
    (∀ failure, MethodTable.Refused methods failure → failure.stage = .argument) := by
  refine ⟨fun _ same => same ▸ rfl, MethodTable.ofMethods_eq_ok_iff, fun table made => ?_,
    fun _ => MethodTable.ofMethods_eq_error_iff, fun _ refused => refused.stage_eq⟩
  have holds := MethodTable.holds_of_ofMethods made
  have distinct := MethodTable.distinct_of_ofMethods made
  exact ⟨holds.size_eq distinct, fun _ => holds.exists_get?, fun _ member => holds.get?_of_mem distinct member,
    fun _ perm => MethodTable.ofMethods_perm made perm⟩

/-- A state machine of a lambda stands in front of both methods that it was made for. Where the lambda and
its host point at each other, the walk from the state machine comes back to the lambda. -/
theorem linked_table_of_async_lambda :
    let machine : Method := { id := ⟨3⟩, name := "MoveNext", synthesis := .asyncMachine (some ⟨2⟩) }
    let host : Method := { id := ⟨1⟩, name := "Run" }
    let lambda : Method := { id := ⟨2⟩, name := "<Run>b__0", synthesis := .closure (some ⟨1⟩) }
    let looping : Method := { id := ⟨1⟩, name := "Run", synthesis := .closure (some ⟨2⟩) }
    (∃ table linked handle, MethodTable.ofMethods [machine, host, lambda] = .ok table ∧
      table.get? ⟨3⟩ = some linked ∧ table.get? ⟨2⟩ = some handle ∧ linked.link = some handle) ∧
    MethodTable.ofMethods [machine, looping, lambda] = .error (.linkCycle ⟨2⟩) := by
  intro machine host lambda looping
  constructor
  · obtain ⟨-, made, held, -⟩ := linked_table_iff [machine, host, lambda]
    have ofMachine : MethodOf [machine, host, lambda] ⟨3⟩ machine := ⟨by simp, rfl⟩
    have ofHost : MethodOf [machine, host, lambda] ⟨1⟩ host := ⟨by simp, rfl⟩
    have ofLambda : MethodOf [machine, host, lambda] ⟨2⟩ lambda := ⟨by simp, rfl⟩
    have hostEnds : EndsAfter [machine, host, lambda] 0 ⟨1⟩ := .here ofHost rfl
    have lambdaEnds : EndsAfter [machine, host, lambda] 1 ⟨2⟩ := .on ofLambda rfl hostEnds
    have machineEnds : EndsAfter [machine, host, lambda] 2 ⟨3⟩ := .on ofMachine rfl lambdaEnds
    obtain ⟨table, built⟩ := made.2 ⟨by decide, by
      simpa using ⟨⟨2, machineEnds⟩, ⟨0, hostEnds⟩, ⟨1, lambdaEnds⟩⟩⟩
    obtain ⟨linked, found, -, -, points⟩ := (held table built).2.2.1 machine ofMachine.member
    obtain ⟨handle, looked, same⟩ := points ⟨2⟩ rfl
    exact ⟨table, linked, handle, built, found, looked, same⟩
  · obtain ⟨-, -, -, refused, -⟩ := linked_table_iff [machine, looping, lambda]
    have ofMachine : MethodOf [machine, looping, lambda] ⟨3⟩ machine := ⟨by simp, rfl⟩
    have ofLooping : MethodOf [machine, looping, lambda] ⟨1⟩ looping := ⟨by simp, rfl⟩
    have ofLambda : MethodOf [machine, looping, lambda] ⟨2⟩ lambda := ⟨by simp, rfl⟩
    have walk : Walk [machine, looping, lambda] ⟨3⟩ [⟨3⟩, ⟨2⟩, ⟨1⟩] ⟨2⟩ :=
      .on ofMachine rfl (.on ofLambda rfl (.on ofLooping rfl (.here ⟨2⟩)))
    exact (refused _).2 (@MethodTable.Refused.strays _ [] [⟨1⟩, ⟨2⟩] ⟨3⟩ _ (by decide) rfl (by simp)
      (.returns ⟨walk, by decide⟩ (by decide)))

end Backtrace
