import Backtrace.Json.Reader

/-!
Decoding trees into records. A record is written as an object of its fields or as an array of them in
order of declaration; a choice between variants as a container that names its kind. Decoding goes
from left to right and stops at the first problem.
-/
namespace Backtrace.Json

abbrev Decoded := Except Problem

/-- How a value reaches its decoder: straight from the text, or set aside while the kind of the
variant that holds it was not yet known. -/
inductive Source
  | direct
  | setAside
deriving DecidableEq

def maxDepth : Nat := 127

namespace Node

def asText : Node → Decoded String
  | .string (some text) => .ok text
  | node => .error node.refusal

def asBool : Node → Decoded Bool
  | .bool value => .ok value
  | node => .error node.refusal

def asNatural (bound : Nat) : Node → Decoded Nat
  | .number (.natural n) => if n < bound then .ok n else .error .mismatch
  | node => .error node.refusal

def asOption (item : Node → Decoded α) : Node → Decoded (Option α)
  | .null => .ok none
  | node => some <$> item node

def pass (node : Node) : Decoded Unit :=
  match node.fault? with
  | some fault => .error fault.skipped
  | none => .ok ()

def close : Option Fault → Decoded Unit
  | some fault => .error fault.wanted
  | none => .ok ()

/-- What is wrong with a value where no more containers may be opened. -/
def refusalAtLimit : Node → Problem
  | .array _ _ => .malformed
  | .object _ _ => .malformed
  | node => node.refusal

def asList (item : Option (Node → Decoded α)) : Node → Decoded (List α)
  | .array items fault =>
    match item with
    | none => .error .malformed
    | some item => do
      let values ← items.mapM item
      close fault
      return values
  | node => .error node.refusal

def asListAt (depth : Nat) (item : Nat → Node → Decoded α) : Node → Decoded (List α) :=
  asList (match depth with
    | 0 => none
    | depth + 1 => some (item depth))

def check : (depth : Nat) → Node → Decoded Unit
  | depth, .array items fault =>
    match depth with
    | 0 => .error .malformed
    | depth + 1 => do
      items.forM (check depth)
      close fault
  | depth, .object members fault =>
    match depth with
    | 0 => .error .malformed
    | depth + 1 => do
      members.forM fun (key, value) => if key.isNone then .error .malformed else check depth value
      close fault
  | _, .bad fault => .error fault.wanted
  | _, .number (.huge _) => .error .malformed
  | _, .string none => .error .malformed
  | _, _ => .ok ()

end Node

def once (slot : Option α) (value : Decoded α) : Decoded (Option α) :=
  match slot with
  | some _ => .error .mismatch
  | none => some <$> value

def required : Option α → Decoded α
  | some value => .ok value
  | none => .error .mismatch

/-- How a record is decoded: the names of its fields in order, a draft without any of them, and how
the draft takes a named value. `take` passes over values of other names. -/
structure Fields (δ : Type) where
  names : List String
  blank : δ
  take : δ → String → Node → Decoded δ

namespace Fields

def ofMembers (fields : Fields δ) : δ → List (Option String × Node) → Decoded δ
  | draft, [] => .ok draft
  | _, (none, _) :: _ => .error .malformed
  | draft, (some key, value) :: members => do ofMembers fields (← fields.take draft key value) members

def ofItems (fields : Fields δ) (surplus : Problem) : List String → δ → List Node → Decoded δ
  | _, draft, [] => .ok draft
  | [], _, _ :: _ => .error surplus
  | name :: names, draft, item :: items => do ofItems fields surplus names (← fields.take draft name item) items

def decode (fields : Fields δ) (source : Source) : Node → Decoded δ
  | .object members fault => do
    let draft ← fields.ofMembers fields.blank members
    Node.close fault
    return draft
  | .array items fault => do
    let surplus := if source = .direct then .malformed else .mismatch
    let draft ← fields.ofItems surplus fields.names fields.blank items
    Node.close fault
    return draft
  | node => .error node.refusal

end Fields

def recordAt (depth : Nat) (fields : Nat → Fields δ) (finish : δ → Decoded α) (node : Node) : Decoded α :=
  match depth with
  | 0 => .error node.refusalAtLimit
  | depth + 1 => do finish (← (fields depth).decode .direct node)

inductive Parts
  | named (members : List (Option String × Node))
  | ordered (items : List Node)

namespace Parts

def decode (fields : Fields δ) : Parts → Decoded δ
  | .named members => fields.ofMembers fields.blank members
  | .ordered items => fields.ofItems .mismatch fields.names fields.blank items

def decodeUnit : Parts → Decoded Unit
  | .named _ => .ok ()
  | .ordered [] => .ok ()
  | .ordered (_ :: _) => .error .mismatch

end Parts

/-- The name of a variant among `kinds`. Where values were set aside, its index will do as well. -/
def kindName (kinds : List String) (source : Source) : Node → Decoded String
  | .string (some name) => if kinds.contains name then .ok name else .error .mismatch
  | .number (.natural n) =>
    match source, kinds[n]? with
    | .setAside, some name => .ok name
    | _, _ => .error .mismatch
  | node => .error node.refusal

/-- Splits the members of a variant into its kind and the others, each of which is checked as it is
set aside. -/
def kindAndMembers (kinds : List String) (source : Source) (depth : Nat) :
    Option String → List (Option String × Node) → List (Option String × Node) →
      Decoded (Option String × List (Option String × Node))
  | kind, aside, [] => .ok (kind, aside.reverse)
  | _, _, (none, _) :: _ => .error .malformed
  | kind, aside, (some "kind", value) :: members => do
    kindAndMembers kinds source depth (← once kind (kindName kinds source value)) aside members
  | kind, aside, (key, value) :: members => do
    if source = .direct then value.check depth
    kindAndMembers kinds source depth kind ((key, value) :: aside) members

def kindAndParts (kinds : List String) (source : Source) (depth : Nat) : Node → Decoded (String × Parts)
  | .object members fault => do
    let (kind, others) ← kindAndMembers kinds source depth none [] members
    Node.close fault
    return (← required kind, .named others)
  | .array (tag :: items) fault => do
    let kind ← kindName kinds source tag
    if source = .direct then items.forM (Node.check depth)
    Node.close fault
    return (kind, .ordered items)
  | .array [] fault => do
    Node.close fault
    .error .mismatch
  | node => .error node.refusal

/-- The one member of an object that stands for a word: the word, with null for its value. -/
def wordMember (words : List (String × α)) : List (Option String × Node) → Option Fault → Decoded α
  | [], some fault => .error fault.variant
  | [], none => .error .malformed
  | (none, _) :: _, _ => .error .malformed
  | (some name, value) :: others, fault => do
    let word ← required (words.lookup name)
    match value with
    | .null => pure ()
    | value => .error value.refusal
    unless others.isEmpty do .error .malformed
    match fault with
    | some fault => .error fault.variant
    | none => return word

def word? (words : List (String × α)) (depth : Nat) : Node → Decoded α
  | .string (some name) => required (words.lookup name)
  | .object members fault => if depth = 0 then .error .malformed else wordMember words members fault
  | .bad fault => .error fault.variant
  | _ => .error .malformed

end Backtrace.Json
