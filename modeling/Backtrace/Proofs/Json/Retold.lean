import Mathlib.Data.List.Nodup
import Backtrace.Json.Decode
import Backtrace.Proofs.Json.Written

/-!
Values that tell the same record. Members may stand in any order, those that hold null or the default of a field may
be missing, and others may stand between them whose names are no fields. What a decoder of fields needs of such
members is that each tells what was written under its name, that none is told twice, and that what is missing is
spare.
-/
namespace Backtrace.Json

mutual
def Node.depth : Node → Nat
  | .array items _ => depthOfItems items + 1
  | .object members _ => depthOfMembers members + 1
  | _ => 0

def depthOfItems : List Node → Nat
  | [] => 0
  | item :: items => max item.depth (depthOfItems items)

def depthOfMembers : List (Option String × Node) → Nat
  | [] => 0
  | (_, value) :: members => max value.depth (depthOfMembers members)
end

namespace Node

theorem depth_le_of_mem_items {items : List Node} {item : Node} (member : item ∈ items) :
    item.depth ≤ depthOfItems items := by
  induction items with
  | nil => cases member
  | cons first items ih =>
    rw [depthOfItems]
    rcases List.mem_cons.1 member with rfl | later
    · exact Nat.le_max_left _ _
    · exact Nat.le_trans (ih later) (Nat.le_max_right _ _)

theorem depth_le_of_mem_list {items : List Node} {depth : Nat} (shallow : (list items).depth ≤ depth + 1) :
    ∀ item ∈ items, item.depth ≤ depth :=
  fun _ member => Nat.le_trans (depth_le_of_mem_items member) (Nat.le_of_succ_le_succ shallow)

theorem depth_le_of_mem_members {members : List (String × Node)} {member : String × Node} (inside : member ∈ members) :
    member.2.depth ≤ depthOfMembers (keyed members) := by
  induction members with
  | nil => cases inside
  | cons first members ih =>
    rw [keyed, List.map_cons, depthOfMembers]
    rcases List.mem_cons.1 inside with rfl | later
    · exact Nat.le_max_left _ _
    · exact Nat.le_trans (ih later) (Nat.le_max_right _ _)

theorem depth_le_of_mem_record {members : List (String × Node)} {depth : Nat}
    (shallow : (record members).depth ≤ depth + 1) : ∀ member ∈ members, member.2.depth ≤ depth :=
  fun _ inside => Nat.le_trans (depth_le_of_mem_members inside) (Nat.le_of_succ_le_succ shallow)

theorem Whole.fault?_eq_none {node : Node} (whole : node.Whole) : node.fault? = none := by
  cases whole <;> rfl

theorem forM_eq_ok {α : Type} {f : α → Decoded Unit} {items : List α} (each : ∀ item ∈ items, f item = .ok ()) :
    items.forM f = .ok () := by
  induction items with
  | nil => rfl
  | cons item items ih =>
    obtain ⟨first, others⟩ := List.forall_mem_cons.1 each
    change (f item >>= fun _ => items.forM f) = .ok ()
    rw [first]
    exact ih others

theorem Whole.check {node : Node} (whole : node.Whole) {depth : Nat} (shallow : node.depth ≤ depth) :
    node.check depth = .ok () := by
  induction whole generalizing depth with
  | null | bool | natural | text => rw [Node.check] <;> nofun
  | @list items _ ih =>
    cases depth with
    | zero => exact absurd shallow (Nat.not_succ_le_zero _)
    | succ depth =>
      have each : items.forM (Node.check depth) = .ok () :=
        forM_eq_ok fun item member => ih item member (depth_le_of_mem_list shallow item member)
      rw [Node.list, Node.check, each]
      rfl
  | @record members _ ih =>
    cases depth with
    | zero => exact absurd shallow (Nat.not_succ_le_zero _)
    | succ depth =>
      rw [Node.record, Node.check, forM_eq_ok]
      · rfl
      · rintro _ inside
        obtain ⟨entry, member, rfl⟩ := List.mem_map.1 inside
        exact ih entry member (depth_le_of_mem_record shallow entry member)

theorem whole_list_iff {items : List Node} : (list items).Whole ↔ ∀ item ∈ items, item.Whole :=
  ⟨fun | .list each => each, .list⟩

theorem whole_list_map {α : Type} {write : α → Node} (each : ∀ value, (write value).Whole) (values : List α) :
    (list (values.map write)).Whole :=
  whole_list_iff.2 (List.forall_mem_map.2 fun value _ => each value)

theorem record_injective {first second : List (String × Node)} (same : record first = record second) :
    first = second := by
  have members := (Node.object.injEq _ _ _ _ ▸ same).1
  exact (List.map_injective_iff.2 fun _ _ equal => by simpa [Prod.ext_iff] using equal) members

theorem whole_record_iff {members : List (String × Node)} :
    (record members).Whole ↔ ∀ member ∈ members, member.2.Whole := by
  refine ⟨fun whole => ?_, .record⟩
  generalize same : record members = node at whole
  cases whole with
  | null | bool | natural | text | list => cases same
  | record each =>
    obtain rfl := record_injective same
    exact each

end Node

/-- The members that hold the default of a field, apart from null. -/
def defaults : List (String × Node) := [
  ("generic_arguments", .list []), ("shape", .record [("kind", .text "named")]), ("modifier", .text "none"),
  ("parameters", .list []), ("synthesis", .record [("kind", .text "unknown")]), ("stripped", .bool false),
  ("message", .text ""), ("frames", .list []), ("methods", .list []), ("call_site", .list [])]

theorem nodup_defaults : (defaults.map Prod.fst).Nodup := by decide

/-- A member that is the same as none. -/
def Spare (member : String × Node) : Prop := member.2 = .null ∨ member ∈ defaults

/-- Two values of which the second tells what the first does. The members of an object are permuted; some of them
that are spare are dropped, and some of unknown names are added. -/
inductive Retold : Node → Node → Prop
  | null : Retold .null .null
  | bool (value : Bool) : Retold (.bool value) (.bool value)
  | natural (value : Nat) : Retold (.natural value) (.natural value)
  | text (text : String) : Retold (.text text) (.text text)
  | list {items : List (Node × Node)} (each : ∀ item ∈ items, Retold item.1 item.2) :
    Retold (.list (items.map Prod.fst)) (.list (items.map Prod.snd))
  | record {written told dropped added : List (String × Node)} {kept : List (String × Node × Node)}
    (each : ∀ member ∈ kept, Retold member.2.1 member.2.2)
    (spare : ∀ member ∈ dropped, Spare member)
    (unknown : ∀ member ∈ added, member.1 ∉ written.map Prod.fst ∧ member.2.Whole)
    (parts : written.Perm ((kept.map fun (key, first, _) => (key, first)) ++ dropped))
    (others : told.Perm ((kept.map fun (key, _, second) => (key, second)) ++ added)) :
    Retold (.record written) (.record told)

namespace Retold

variable {node told : Node}

theorem refl (sound : node.Whole) : Retold node node := by
  induction sound with
  | null => exact .null
  | bool value => exact .bool value
  | natural => exact .natural _
  | text text => exact .text text
  | @list items _ ih =>
    have twice := @Retold.list (items.map fun item => (item, item)) (List.forall_mem_map.2 ih)
    simpa only [List.map_map, Function.comp_def, List.map_id'] using twice
  | @record members _ ih =>
    refine @Retold.record members members [] [] (members.map fun member => (member.1, member.2, member.2))
      (List.forall_mem_map.2 ih) (List.forall_mem_nil _) (List.forall_mem_nil _) ?_ ?_
    · simp [Function.comp_def]
    · simp [Function.comp_def]

theorem of_text {text : String} (retold : Retold (.text text) told) : told = .text text := by
  cases retold
  rfl

theorem of_null (retold : Retold .null told) : told = .null := by
  cases retold
  rfl

theorem eq_null (retold : Retold node .null) : node = .null := by
  cases retold
  rfl

theorem of_list {items : List Node} (retold : Retold (.list items) told) :
    ∃ others, told = .list others ∧ List.Forall₂ Retold items others := by
  cases retold with
  | @list pairs each =>
    refine ⟨pairs.map Prod.snd, rfl, ?_⟩
    rw [List.forall₂_map_left_iff, List.forall₂_map_right_iff, List.forall₂_same]
    exact each

theorem depth_pos_of_list {items : List Node} (retold : Retold (.list items) told) : 0 < told.depth := by
  obtain ⟨others, rfl, -⟩ := retold.of_list
  exact Nat.succ_pos _

theorem depth_pos_of_record {written : List (String × Node)} (retold : Retold (.record written) told) :
    0 < told.depth := by
  generalize same : Node.record written = first at retold
  cases retold with
  | null | bool | natural | text | list => cases same
  | record => exact Nat.succ_pos _

theorem whole (retold : Retold node told) (sound : node.Whole) : told.Whole := by
  induction retold with
  | null | bool | natural | text => exact sound
  | @list items _ ih =>
    rw [Node.whole_list_iff, List.forall_mem_map] at sound ⊢
    exact fun item member => ih item member (sound item member)
  | @record written told dropped added kept _ _ unknown parts others ih =>
    rw [Node.whole_record_iff] at sound ⊢
    intro member inside
    rcases List.mem_append.1 (others.mem_iff.1 inside) with again | more
    · obtain ⟨entry, same, rfl⟩ := List.mem_map.1 again
      refine ih entry same (sound (entry.1, entry.2.1) (parts.mem_iff.2 (List.mem_append_left _ ?_)))
      exact List.mem_map_of_mem same
    · exact (unknown member more).2

end Retold

structure Tells (written told : List (String × Node)) : Prop where
  known : ∀ member ∈ told, member.1 ∈ written.map Prod.fst →
    ∃ original, (member.1, original) ∈ written ∧ Retold original member.2
  unknown : ∀ member ∈ told, member.1 ∉ written.map Prod.fst → member.2.Whole
  once : told.Pairwise fun first second => first.1 ∈ written.map Prod.fst → first.1 ≠ second.1
  missing : ∀ member ∈ written, member.1 ∈ told.map Prod.fst ∨ Spare member

theorem Retold.of_record {written : List (String × Node)} {node : Node} (retold : Retold (.record written) node)
    (distinct : (written.map Prod.fst).Nodup) : ∃ told, node = .record told ∧ Tells written told := by
  generalize same : Node.record written = first at retold
  cases retold with
  | null | bool | natural | text | list => cases same
  | @record other told dropped added kept each spare unknown parts others =>
    obtain rfl := Node.record_injective same
    have before (entry : String × Node × Node) (stays : entry ∈ kept) : (entry.1, entry.2.1) ∈ written :=
      parts.mem_iff.2 (List.mem_append_left _ (List.mem_map_of_mem stays))
    have after (entry : String × Node × Node) (stays : entry ∈ kept) : (entry.1, entry.2.2) ∈ told :=
      others.mem_iff.2 (List.mem_append_left _ (List.mem_map_of_mem stays))
    have told_cases (member : String × Node) (inside : member ∈ told) :
        (∃ entry ∈ kept, (entry.1, entry.2.2) = member) ∨ member ∈ added := by
      rcases List.mem_append.1 (others.mem_iff.1 inside) with again | more
      · obtain ⟨entry, stays, rfl⟩ := List.mem_map.1 again
        exact .inl ⟨entry, stays, rfl⟩
      · exact .inr more
    refine ⟨told, rfl, ⟨fun member inside known => ?_, fun member inside other => ?_, ?_, fun member inside => ?_⟩⟩
    · rcases told_cases member inside with ⟨entry, stays, rfl⟩ | more
      · exact ⟨entry.2.1, before entry stays, each entry stays⟩
      · exact absurd known (unknown member more).1
    · rcases told_cases member inside with ⟨entry, stays, rfl⟩ | more
      · exact absurd (List.mem_map.2 ⟨_, before entry stays, rfl⟩) other
      · exact (unknown member more).2
    · -- of the names that were written each is kept once, and none is among the added ones
      have keys : (kept.map Prod.fst).Nodup := by
        have all := (parts.map Prod.fst).nodup_iff.1 distinct
        rw [List.map_append, List.map_map] at all
        exact (List.nodup_append.1 all).1
      have symmetric {first second : String × Node}
          (differ : first.1 ∈ written.map Prod.fst → first.1 ≠ second.1) :
          second.1 ∈ written.map Prod.fst → second.1 ≠ first.1 :=
        fun known same => differ (same ▸ known) same.symm
      refine (List.Perm.pairwise_iff symmetric others).2 (List.pairwise_append.2 ⟨?_, ?_, ?_⟩)
      · refine List.pairwise_map.2 ((List.pairwise_map.1 keys).imp ?_)
        exact fun differ _ => differ
      · exact List.pairwise_of_forall_mem_list fun first more _ _ known => absurd known (unknown first more).1
      · intro first again second more known same
        exact (unknown second more).1 (same ▸ known)
    · rcases List.mem_append.1 (parts.mem_iff.1 inside) with again | gone
      · obtain ⟨entry, stays, rfl⟩ := List.mem_map.1 again
        exact .inl (List.mem_map.2 ⟨_, after entry stays, rfl⟩)
      · exact .inr (spare member gone)

end Backtrace.Json
