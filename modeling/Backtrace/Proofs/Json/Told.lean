import Backtrace.Proofs.Json.Retold

/-!
Decoding what is told of a record. The draft of a record depends only on which fields have been given, so the order in
which they come makes no difference, and what was not given is spare.
-/
namespace Backtrace.Json

/-! ### Slots -/

section Slots

variable {α : Type} {given : List String} {key other : String} {value initial : α}

def slot (given : List String) (key : String) (value : α) : Option α := if key ∈ given then some value else none

@[simp] theorem slot_nil : slot [] key value = none := if_neg (List.not_mem_nil)

@[simp] theorem slot_cons_of_ne (differ : key ≠ other) : slot (other :: given) key value = slot given key value := by
  simp [slot, differ]

theorem once_slot (fresh : key ∉ given) {decoded : Decoded α} (found : decoded = .ok value) :
    once (slot given key value) decoded = .ok (slot (key :: given) key value) := by
  rw [found, slot, if_neg fresh, slot, if_pos List.mem_cons_self]
  rfl

theorem required_slot (present : key ∈ given) : required (slot given key value) = .ok value := by
  rw [slot, if_pos present]
  rfl

theorem getD_slot (known : key ∈ given ∨ value = initial) : (slot given key value).getD initial = value := by
  unfold slot
  split
  · rfl
  · next absent => exact (known.resolve_left absent).symm

theorem join_slot {value : Option α} (known : key ∈ given ∨ value = none) : (slot given key value).join = value := by
  unfold slot
  split
  · rfl
  · next absent => exact (known.resolve_left absent).symm

end Slots

/-! ### Values -/

/-- A decoder gets a value back from all that tells what was written for it, at a depth. -/
def Recovers {α : Type} (depth : Nat) (original : Node) (decode : Node → Decoded α) (value : α) : Prop :=
  ∀ node, Retold original node → node.depth ≤ depth → decode node = .ok value

/-! ### Nothing but null is null -/

theorem Node.text_ne_null (content : String) : Node.text content ≠ .null := by simp [Node.text]

theorem Node.bool_ne_null (value : Bool) : Node.bool value ≠ .null := by simp

theorem Node.natural_ne_null (value : Nat) : Node.natural value ≠ .null := by simp [Node.natural]

theorem Node.list_ne_null (items : List Node) : Node.list items ≠ .null := by simp [Node.list]

theorem Node.record_ne_null (members : List (String × Node)) : Node.record members ≠ .null := by simp [Node.record]

section Values

variable {α : Type} {depth : Nat}

theorem recovers_text (text : String) : Recovers depth (.text text) Node.asText text := by
  intro node retold _
  rw [retold.of_text]
  rfl

theorem recovers_bool (value : Bool) : Recovers depth (.bool value) Node.asBool value := by
  intro node retold _
  cases retold
  rfl

theorem recovers_natural {bound value : Nat} (small : value < bound) :
    Recovers depth (.natural value) (Node.asNatural bound) value := by
  intro node retold _
  cases retold
  exact if_pos small

theorem recovers_option (write : α → Node) {item : Node → Decoded α} {option : Option α}
    (filled : ∀ value, write value ≠ .null)
    (each : ∀ value, option = some value → Recovers depth (write value) item value) :
    Recovers depth ((option.map write).getD .null) (Node.asOption item) option := by
  intro node retold shallow
  cases option with
  | none =>
    rw [retold.of_null]
    rfl
  | some value =>
    have told : node ≠ .null := fun null => filled value (null ▸ retold : Retold (write value) .null).eq_null
    have decoded := each value rfl node retold shallow
    unfold Node.asOption
    split
    · contradiction
    · rw [decoded]
      rfl

theorem mapM_eq_ok {write : α → Node} {item : Node → Decoded α} {values : List α} {nodes : List Node}
    (told : List.Forall₂ (fun value node => Retold (write value) node) values nodes)
    (each : ∀ value ∈ values, Recovers depth (write value) item value) (shallow : ∀ node ∈ nodes, node.depth ≤ depth) :
    nodes.mapM item = .ok values := by
  induction told with
  | nil => rfl
  | cons first _ ih =>
    rw [List.forall_mem_cons] at each shallow
    rw [List.mapM_cons, each.1 _ first shallow.1, ih each.2 shallow.2]
    rfl

theorem recovers_list {write : α → Node} {item : Node → Decoded α} {values : List α}
    (each : ∀ value ∈ values, Recovers depth (write value) item value) :
    Recovers (depth + 1) (.list (values.map write)) (Node.asList (some item)) values := by
  intro node retold shallow
  obtain ⟨nodes, rfl, told⟩ := retold.of_list
  have decoded : nodes.mapM item = .ok values :=
    mapM_eq_ok (List.forall₂_map_left_iff.1 told) each (Node.depth_le_of_mem_list shallow)
  change (nodes.mapM item >>= fun values => Node.close none >>= fun _ => pure values) = _
  rw [decoded]
  rfl

theorem recovers_listAt {write : α → Node} {item : Nat → Node → Decoded α} {values : List α}
    (each : ∀ below, ∀ value ∈ values, Recovers below (write value) (item below) value) :
    Recovers depth (.list (values.map write)) (Node.asListAt depth item) values := by
  intro node retold shallow
  cases depth with
  | zero =>
    obtain ⟨nodes, rfl, -⟩ := retold.of_list
    exact absurd shallow (Nat.not_succ_le_zero _)
  | succ below => exact recovers_list (each below) node retold shallow

end Values

/-! ### Fields -/

/-- The names that were given are enough for a record: what is missing is spare. -/
def Enough (written : List (String × Node)) (given : List String) : Prop :=
  ∀ member ∈ written, member.1 ∈ given ∨ Spare member

namespace Enough

variable {α : Type} {written : List (String × Node)} {given : List String} {key : String}

theorem mem_given (enough : Enough written given) {value : Node} (inside : (key, value) ∈ written)
    (plain : key ∉ defaults.map Prod.fst) (filled : value ≠ .null) : key ∈ given := by
  refine (enough _ inside).resolve_right fun spare => ?_
  rcases spare with null | initial
  · exact filled null
  · exact plain (List.mem_map_of_mem initial)

theorem default (enough : Enough written given) {value initial : Node} (inside : (key, value) ∈ written)
    (filled : value ≠ .null) (known : (key, initial) ∈ defaults) : key ∈ given ∨ value = initial := by
  refine (enough _ inside).imp_right fun spare => ?_
  have found : (key, value) ∈ defaults := spare.resolve_left filled
  exact congrArg Prod.snd (List.inj_on_of_nodup_map nodup_defaults found known rfl)

theorem option (enough : Enough written given) (write : α → Node) {option : Option α}
    (inside : (key, (option.map write).getD .null) ∈ written) (plain : key ∉ defaults.map Prod.fst)
    (filled : ∀ value, write value ≠ .null) : key ∈ given ∨ option = none := by
  cases option with
  | none => exact .inr rfl
  | some value => exact .inl (enough.mem_given inside plain (filled value))

theorem list (enough : Enough written given) (write : α → Node) {values : List α}
    (inside : (key, .list (values.map write)) ∈ written) (known : (key, .list []) ∈ defaults) :
    key ∈ given ∨ values = [] := by
  refine (enough.default inside (Node.list_ne_null _) known).imp_right fun empty => ?_
  exact List.map_eq_nil_iff.1 (Node.array.inj empty).1

end Enough

/-- How a draft takes what is told of written members, if it is known by the names that were given. -/
structure Takes {δ : Type} (fields : Fields δ) (draft : List String → δ) (written : List (String × Node))
    (depth : Nat) : Prop where
  blank : fields.blank = draft []
  known : ∀ given key original value, (key, original) ∈ written → Retold original value → value.depth ≤ depth →
    key ∉ given → fields.take (draft given) key value = .ok (draft (key :: given))
  unknown : ∀ given key value, key ∉ written.map Prod.fst → value.fault? = none →
    fields.take (draft given) key value = .ok (draft (key :: given))

namespace Takes

variable {δ : Type} {fields : Fields δ} {draft : List String → δ} {written told : List (String × Node)} {depth : Nat}

/-- One member after the other, none of them given before. -/
theorem ofMembers_from (takes : Takes fields draft written depth)
    (known : ∀ member ∈ told, member.1 ∈ written.map Prod.fst →
      ∃ original, (member.1, original) ∈ written ∧ Retold original member.2)
    (unknown : ∀ member ∈ told, member.1 ∉ written.map Prod.fst → member.2.Whole)
    (once : told.Pairwise fun first second => first.1 ∈ written.map Prod.fst → first.1 ≠ second.1)
    (shallow : ∀ member ∈ told, member.2.depth ≤ depth) {given : List String}
    (fresh : ∀ member ∈ told, member.1 ∈ written.map Prod.fst → member.1 ∉ given) :
    fields.ofMembers (draft given) (keyed told) = .ok (draft ((told.map Prod.fst).reverse ++ given)) := by
  induction told generalizing given with
  | nil => rfl
  | cons member told ih =>
    obtain ⟨key, value⟩ := member
    rw [List.forall_mem_cons] at known unknown shallow fresh
    obtain ⟨differ, rest⟩ := List.pairwise_cons.1 once
    have taken : fields.take (draft given) key value = .ok (draft (key :: given)) := by
      by_cases field : key ∈ written.map Prod.fst
      · obtain ⟨original, inside, retold⟩ := known.1 field
        exact takes.known given key original value inside retold shallow.1 (fresh.1 field)
      · exact takes.unknown given key value field (unknown.1 field).fault?_eq_none
    have later : ∀ member ∈ told, member.1 ∈ written.map Prod.fst → member.1 ∉ key :: given := by
      intro member inside field again
      rcases List.mem_cons.1 again with same | before
      · exact differ member inside (same ▸ field) same.symm
      · exact fresh.2 member inside field before
    calc fields.ofMembers (draft given) (keyed ((key, value) :: told))
      _ = fields.ofMembers (draft (key :: given)) (keyed told) := by
        rw [keyed, List.map_cons, Fields.ofMembers, taken]
        rfl
      _ = .ok (draft ((((key, value) :: told).map Prod.fst).reverse ++ given)) := by
        rw [ih known.2 unknown.2 rest shallow.2 later]
        simp

theorem ofMembers (takes : Takes fields draft written depth) (tells : Tells written told)
    (shallow : ∀ member ∈ told, member.2.depth ≤ depth) :
    ∃ given, fields.ofMembers fields.blank (keyed told) = .ok (draft given) ∧ Enough written given := by
  refine ⟨(told.map Prod.fst).reverse ++ [], ?_, fun member inside => ?_⟩
  · rw [takes.blank]
    exact takes.ofMembers_from tells.known tells.unknown tells.once shallow fun _ _ _ => List.not_mem_nil
  · rw [List.append_nil, List.mem_reverse]
    exact tells.missing member inside

/-- Decoding what is told of a record, and making the record of it. -/
theorem decode (takes : Takes fields draft written depth) (distinct : (written.map Prod.fst).Nodup) {α : Type}
    {finish : δ → Decoded α} {value : α}
    (finished : ∀ given, Enough written given → finish (draft given) = .ok value)
    (source : Source) :
    Recovers (depth + 1) (.record written) (fun node => fields.decode source node >>= finish) value := by
  intro node retold shallow
  obtain ⟨told, rfl, tells⟩ := retold.of_record distinct
  obtain ⟨given, taken, enough⟩ := takes.ofMembers tells (Node.depth_le_of_mem_record shallow)
  have decoded : fields.decode source (.record told) = .ok (draft given) := by
    change (fields.ofMembers fields.blank (keyed told) >>= fun draft => Node.close none >>= fun _ => pure draft) = _
    rw [taken]
    rfl
  change (fields.decode source (.record told) >>= finish) = .ok value
  rw [decoded]
  exact finished given enough

theorem recordAt {fields : Nat → Fields δ} (takes : ∀ depth, Takes (fields depth) draft written depth)
    (distinct : (written.map Prod.fst).Nodup) {α : Type} {finish : δ → Decoded α} {value : α}
    (finished : ∀ given, Enough written given → finish (draft given) = .ok value)
    (depth : Nat) : Recovers depth (.record written) (recordAt depth fields finish) value := by
  intro node retold shallow
  cases depth with
  | zero => exact absurd shallow (Nat.not_le_of_lt retold.depth_pos_of_record)
  | succ depth => exact (takes depth).decode distinct finished .direct node retold shallow

theorem parts (takes : Takes fields draft written depth) (tells : Tells written told)
    (shallow : ∀ member ∈ told, member.2.depth ≤ depth) :
    ∃ given, (Parts.named (keyed told)).decode fields = .ok (draft given) ∧ Enough written given :=
  takes.ofMembers tells shallow

end Takes

/-! ### Variants -/

section Variants

variable {kinds : List String} {kind : String} {depth : Nat} {written told : List (String × Node)}

theorem Tells.whole (tells : Tells written told) (whole : ∀ member ∈ written, member.2.Whole) :
    ∀ member ∈ told, member.2.Whole := by
  intro member inside
  by_cases field : member.1 ∈ written.map Prod.fst
  · obtain ⟨original, among, retold⟩ := tells.known member inside field
    exact retold.whole (whole _ among)
  · exact tells.unknown member inside field

theorem Tells.without_kind (tells : Tells (("kind", .text kind) :: written) told)
    (other : "kind" ∉ written.map Prod.fst) : Tells written (told.filter (·.1 ≠ "kind")) where
  known member inside field := by
    obtain ⟨original, first, retold⟩ :=
      tells.known member (List.mem_of_mem_filter inside) (List.mem_cons_of_mem _ field)
    rcases List.mem_cons.1 first with same | later
    · have called : member.1 = "kind" := congrArg Prod.fst same
      exact absurd (called ▸ field) other
    · exact ⟨original, later, retold⟩
  unknown member inside field := by
    obtain ⟨present, differ⟩ := List.mem_filter.1 inside
    refine tells.unknown member present fun known => ?_
    rcases List.mem_cons.1 known with same | later
    · exact of_decide_eq_true differ same
    · exact field later
  once := (tells.once.filter _).imp fun differ field => differ (List.mem_cons_of_mem _ field)
  missing member inside := by
    refine (tells.missing member (List.mem_cons_of_mem _ inside)).imp_left fun present => ?_
    obtain ⟨entry, among, same⟩ := List.mem_map.1 present
    refine List.mem_map.2 ⟨entry, List.mem_filter.2 ⟨among, decide_eq_true fun called => other ?_⟩, same⟩
    exact called ▸ same ▸ List.mem_map_of_mem inside

/-- The kind is found wherever it stands, and the other members are set aside in order. -/
theorem kindAndMembers_told (source : Source) (offered : kind ∈ kinds)
    (tagged : ∀ member ∈ told, member.1 = "kind" → member.2 = .text kind)
    (checked : ∀ member ∈ told, member.1 ≠ "kind" → member.2.check depth = .ok ())
    (once : told.Pairwise fun first second => first.1 = "kind" → first.1 ≠ second.1) {given : List String}
    (fresh : ∀ member ∈ told, member.1 = "kind" → member.1 ∉ given) (aside : List (Option String × Node)) :
    kindAndMembers kinds source depth (slot given "kind" kind) aside (keyed told) =
      .ok (slot ((told.map Prod.fst).reverse ++ given) "kind" kind,
        aside.reverse ++ keyed (told.filter (·.1 ≠ "kind"))) := by
  -- over the members: the one of the kind fills its slot, wherever it is met, and each other is set aside
  induction told generalizing given aside with
  | nil => simp [keyed, kindAndMembers]
  | cons member told ih =>
    obtain ⟨key, value⟩ := member
    rw [List.forall_mem_cons] at tagged checked fresh
    obtain ⟨differ, rest⟩ := List.pairwise_cons.1 once
    have later : ∀ member ∈ told, member.1 = "kind" → member.1 ∉ key :: given := by
      intro member inside called again
      rcases List.mem_cons.1 again with same | before
      · exact differ member inside (same ▸ called) same.symm
      · exact fresh.2 member inside called before
    have rest {aside : List (Option String × Node)} := ih tagged.2 checked.2 rest later aside
    by_cases called : key = "kind"
    · obtain rfl := called
      obtain rfl : value = .text kind := tagged.1 rfl
      have tag : kindName kinds source (.text kind) = .ok kind := if_pos (List.contains_iff_mem.2 offered)
      calc kindAndMembers kinds source depth (slot given "kind" kind) aside (keyed (("kind", .text kind) :: told))
        _ = kindAndMembers kinds source depth (slot ("kind" :: given) "kind" kind) aside (keyed told) := by
          rw [keyed, List.map_cons, kindAndMembers, once_slot (fresh.1 rfl) tag]
          rfl
        _ = _ := by
          rw [rest]
          simp
    · have apart : "kind" ≠ key := fun same => called same.symm
      calc kindAndMembers kinds source depth (slot given "kind" kind) aside (keyed ((key, value) :: told))
        _ = kindAndMembers kinds source depth (slot (key :: given) "kind" kind) ((some key, value) :: aside)
            (keyed told) := by
          rw [slot_cons_of_ne apart, keyed, List.map_cons, kindAndMembers]
          · split
            · rw [checked.1 called]
              rfl
            · rfl
          · exact Option.some_ne_none key
          · exact fun same => called (Option.some.inj same)
        _ = _ := by
          rw [rest]
          simp [called, keyed]

theorem kindAndParts_told (source : Source) (offered : kind ∈ kinds) (distinct : ("kind" :: written.map Prod.fst).Nodup)
    (whole : ∀ member ∈ written, member.2.Whole) {node : Node}
    (retold : Retold (.record (("kind", .text kind) :: written)) node) (shallow : node.depth ≤ depth + 1) :
    ∃ told, kindAndParts kinds source depth node = .ok (kind, .named (keyed told)) ∧ Tells written told ∧
      ∀ member ∈ told, member.2.depth ≤ depth := by
  obtain ⟨told, rfl, tells⟩ := retold.of_record distinct
  have below := Node.depth_le_of_mem_record shallow
  have tagged (member : String × Node) (inside : member ∈ told) (called : member.1 = "kind") :
      member.2 = .text kind := by
    obtain ⟨original, first, again⟩ := tells.known member inside (called ▸ List.mem_cons_self)
    rcases List.mem_cons.1 first with same | later
    · obtain rfl : original = .text kind := congrArg Prod.snd same
      exact again.of_text
    · exact absurd (List.mem_map.2 ⟨_, later, called⟩) (List.nodup_cons.1 distinct).1
  have checked (member : String × Node) (inside : member ∈ told) : member.2.check depth = .ok () :=
    (tells.whole (List.forall_mem_cons.2 ⟨.text kind, whole⟩) member inside).check (below member inside)
  have once : told.Pairwise fun first second => first.1 = "kind" → first.1 ≠ second.1 :=
    tells.once.imp fun {first second} differ (called : first.1 = "kind") => differ (called ▸ List.mem_cons_self)
  have present : "kind" ∈ told.map Prod.fst := by
    refine (tells.missing ("kind", .text kind) List.mem_cons_self).resolve_right ?_
    simp [Spare, defaults, Node.text]
  have split : kindAndMembers kinds source depth none [] (keyed told) =
      .ok (some kind, keyed (told.filter (·.1 ≠ "kind"))) := by
    rw [← slot_nil, kindAndMembers_told source offered tagged (fun member inside _ => checked member inside) once
      (fun _ _ _ => List.not_mem_nil) [], List.append_nil, slot, if_pos (List.mem_reverse.2 present)]
    rfl
  refine ⟨told.filter (·.1 ≠ "kind"), ?_, tells.without_kind (List.nodup_cons.1 distinct).1,
    fun member inside => below member (List.mem_of_mem_filter inside)⟩
  change (kindAndMembers kinds source depth none [] (keyed told) >>= _) = _
  rw [split]
  rfl

/-- A variant is made of what is told of its members. -/
theorem variant_told {α : Type} (ofParts : Parts → String → Decoded α) (source : Source) (offered : kind ∈ kinds)
    (distinct : ("kind" :: written.map Prod.fst).Nodup) (whole : ∀ member ∈ written, member.2.Whole) {node : Node}
    (retold : Retold (.record (("kind", .text kind) :: written)) node) (shallow : node.depth ≤ depth + 1) :
    ∃ told, (kindAndParts kinds source depth node >>= fun (kind, parts) => ofParts parts kind) =
        ofParts (.named (keyed told)) kind ∧
      Tells written told ∧ ∀ member ∈ told, member.2.depth ≤ depth := by
  obtain ⟨told, split, rest⟩ := kindAndParts_told source offered distinct whole retold shallow
  refine ⟨told, ?_, rest⟩
  rw [split]
  rfl

end Variants

end Backtrace.Json
