import Backtrace.Json.Reader
import Backtrace.Proofs.Json.Tokens

/-!
A value that is written is read back. The reader keeps the containers around a value on a stack, so what is read of a
value is told for any stack: the value is put where it belongs, and reading goes on behind it.
-/
namespace Backtrace.Json

def keyed (members : List (String × Node)) : List (Option String × Node) :=
  members.map fun (key, value) => (some key, value)

namespace Node

/-- A value without a fault whose names are all there and whose numbers are natural. -/
inductive Whole : Node → Prop
  | null : Whole .null
  | bool (value : Bool) : Whole (.bool value)
  | natural {value : Nat} (small : value < UInt64.size) : Whole (.natural value)
  | text (text : String) : Whole (.text text)
  | list {items : List Node} (each : ∀ item ∈ items, Whole item) : Whole (.list items)
  | record {members : List (String × Node)} (each : ∀ member ∈ members, Whole member.2) : Whole (.record members)

end Node

namespace Reading

def resume (reading : Reading) (rest : List Char) : Tree :=
  match reading with
  | .finished tree => ⟨tree.root, tree.clean && (token? rest).isNone⟩
  | reading => run reading rest

theorem run_of_token {reading : Reading} {token : Token} {cs rest : List Char}
    (first : token? cs = some (token, rest)) : run reading cs = resume (reading.step token) rest := by
  rw [run]
  split
  · next none =>
    rw [none] at first
    cases first
  · next found =>
    rw [found] at first
    cases first
    cases reading.step token <;> rfl

/-- Where a value may stand: it is read, put where it belongs, and reading goes on behind it. -/
def Reads (node : Node) : Prop :=
  ∀ (outer : List Open) (first : Bool) (rest : List Char), Ends rest →
    run (.value outer first) (node.writeTo rest) = resume (place node outer) rest

variable {outer : List Open} {rest : List Char}

theorem reads_of_token {node : Node} {token : Token}
    (plain : ∀ outer first, (value outer first).step token = place node outer)
    (written : ∀ rest, Ends rest → token? (node.writeTo rest) = some (token, rest)) : Reads node := by
  intro outer first rest ends
  rw [run_of_token (written rest ends), plain]

theorem ends_writeItems (items : List Node) (rest : List Char) : Ends (writeItems items false (']' :: rest)) := by
  cases items with
  | nil => exact ends_cons (.inr (.inl rfl)) rest
  | cons item items => exact ends_cons (.inl rfl) _

theorem ends_writeMembers (members : List (Option String × Node)) (rest : List Char) :
    Ends (writeMembers members false ('\x7d' :: rest)) := by
  cases members with
  | nil => exact ends_cons (.inr (.inr rfl)) rest
  | cons member members => exact ends_cons (.inl rfl) _

theorem run_items {items : List Node} (each : ∀ item ∈ items, Reads item) (before : List Node) :
    run (.afterItem outer before) (writeItems items false (']' :: rest)) =
      resume (place (.list (before.reverse ++ items)) outer) rest := by
  induction items generalizing before with
  | nil =>
    rw [List.append_nil]
    exact run_of_token (token?_of_mark .closeArray rest)
  | cons item items ih =>
    obtain ⟨first, others⟩ := List.forall_mem_cons.1 each
    calc run (.afterItem outer before) (',' :: item.writeTo (writeItems items false (']' :: rest)))
      _ = run (.value (.array before :: outer) false) (item.writeTo (writeItems items false (']' :: rest))) :=
        run_of_token (token?_of_mark .comma _)
      _ = run (.afterItem outer (item :: before)) (writeItems items false (']' :: rest)) :=
        first _ _ _ (ends_writeItems items rest)
      _ = resume (place (.list (before.reverse ++ item :: items)) outer) rest := by
        rw [ih others, List.reverse_cons, List.append_assoc]
        rfl

theorem reads_list {items : List Node} (each : ∀ item ∈ items, Reads item) : Reads (.list items) := by
  intro outer first rest ends
  cases items with
  | nil =>
    calc run (.value outer first) ('[' :: ']' :: rest)
      _ = run (.value (.array [] :: outer) true) (']' :: rest) := run_of_token (token?_of_mark .openArray _)
      _ = resume (place (.list []) outer) rest := run_of_token (token?_of_mark .closeArray rest)
  | cons item items =>
    obtain ⟨head, others⟩ := List.forall_mem_cons.1 each
    calc run (.value outer first) ('[' :: item.writeTo (writeItems items false (']' :: rest)))
      _ = run (.value (.array [] :: outer) true) (item.writeTo (writeItems items false (']' :: rest))) :=
        run_of_token (token?_of_mark .openArray _)
      _ = run (.afterItem outer [item]) (writeItems items false (']' :: rest)) :=
        head _ _ _ (ends_writeItems items rest)
      _ = resume (place (.list (item :: items)) outer) rest := run_items others [item]

theorem run_member {node : Node} (reads : Reads node) (name : String) (before : List (Option String × Node))
    (first : Bool) (ends : Ends rest) :
    run (.key outer before first) (writeString name (':' :: node.writeTo rest)) =
      run (.afterMember outer ((some name, node) :: before)) rest := by
  calc run (.key outer before first) (writeString name (':' :: node.writeTo rest))
    _ = run (.colon outer before (some name)) (':' :: node.writeTo rest) := by
      rw [run_of_token (token?_writeString name _)]
      cases first <;> rfl
    _ = run (.value (.object before (some name) :: outer) false) (node.writeTo rest) :=
      run_of_token (token?_of_mark .colon _)
    _ = run (.afterMember outer ((some name, node) :: before)) rest := reads _ _ _ ends

theorem run_members {members : List (String × Node)} (each : ∀ member ∈ members, Reads member.2)
    (before : List (Option String × Node)) :
    run (.afterMember outer before)
        (writeMembers (keyed members) false ('\x7d' :: rest)) =
      resume (place (.object (before.reverse ++ keyed members) none) outer) rest := by
  induction members generalizing before with
  | nil =>
    rw [keyed, List.map_nil, List.append_nil]
    exact run_of_token (token?_of_mark .closeObject rest)
  | cons member members ih =>
    obtain ⟨name, node⟩ := member
    obtain ⟨first, others⟩ := List.forall_mem_cons.1 each
    let behind := writeMembers (keyed members) false ('\x7d' :: rest)
    calc run (.afterMember outer before) (',' :: writeString name (':' :: node.writeTo behind))
      _ = run (.key outer before false) (writeString name (':' :: node.writeTo behind)) :=
        run_of_token (token?_of_mark .comma _)
      _ = run (.afterMember outer ((some name, node) :: before)) behind :=
        run_member first name before false (ends_writeMembers _ rest)
      _ = resume (place (.object (before.reverse ++ keyed ((name, node) :: members)) none) outer) rest := by
        rw [ih others, List.reverse_cons, List.append_assoc]
        rfl

theorem reads_record {members : List (String × Node)} (each : ∀ member ∈ members, Reads member.2) :
    Reads (.record members) := by
  intro outer first rest ends
  cases members with
  | nil =>
    calc run (.value outer first) ('\x7b' :: '\x7d' :: rest)
      _ = run (.key outer [] true) ('\x7d' :: rest) := run_of_token (token?_of_mark .openObject _)
      _ = resume (place (.record []) outer) rest := run_of_token (token?_of_mark .closeObject rest)
  | cons member members =>
    obtain ⟨name, node⟩ := member
    obtain ⟨head, others⟩ := List.forall_mem_cons.1 each
    let behind := writeMembers (keyed members) false ('\x7d' :: rest)
    calc run (.value outer first) ('\x7b' :: writeString name (':' :: node.writeTo behind))
      _ = run (.key outer [] true) (writeString name (':' :: node.writeTo behind)) :=
        run_of_token (token?_of_mark .openObject _)
      _ = run (.afterMember outer [(some name, node)]) behind :=
        run_member head name [] true (ends_writeMembers _ rest)
      _ = resume (place (.record ((name, node) :: members)) outer) rest := run_members others [(some name, node)]

theorem reads_of_whole {node : Node} (whole : node.Whole) : Reads node := by
  induction whole with
  | null => exact reads_of_token (fun _ _ => rfl) fun _ _ => rfl
  | bool value => cases value <;> exact reads_of_token (fun _ _ => rfl) fun _ _ => rfl
  | natural small => exact reads_of_token (fun _ _ => rfl) fun _ ends => token?_writeNumber small ends
  | text text => exact reads_of_token (fun _ _ => rfl) fun rest _ => token?_writeString text rest
  | list _ each => exact reads_list each
  | record _ each => exact reads_record each

end Reading

/-- A whole value is read back from its text. -/
theorem Tree.ofText_write {node : Node} (whole : node.Whole) : Tree.ofText node.write = ⟨node, true⟩ := by
  rw [ofText, Node.write, String.toList_ofList, Reading.reads_of_whole whole [] false [] ends_nil]
  rfl

end Backtrace.Json
