/-!
Reading the newer scheme of symbols: its numbers, identifiers and references back. An identifier outside ASCII is in
two parts, of which the second tells each further character by how far to go on in the order of all pairs of a code
point and a place.
-/
namespace Backtrace.Symbol.V0

structure Cursor where
  rest : List Char
  depth : Nat := 0

inductive Flaw
  | invalid
  | tooDeep

abbrev Reader := StateT Cursor (Except Flaw)

def maxDepth : Nat := 500

def bound : Nat := UInt64.size

namespace Reader

def invalid : Reader α := throw .invalid

def enter : Reader Unit := do
  let cursor ← get
  if cursor.depth + 1 > maxDepth then throw .tooDeep
  set { cursor with depth := cursor.depth + 1 }

def next : Reader Char := do
  let cursor ← get
  match cursor.rest with
  | [] => invalid
  | c :: rest => do
    set { cursor with rest }
    return c

def take (c : Char) : Reader Bool := do
  let cursor ← get
  match cursor.rest with
  | [] => return false
  | d :: rest =>
    if c = d then do
      set { cursor with rest }
      return true
    else return false

def longest (kind : Char → Bool) : Reader (List Char) :=
  modifyGet fun cursor => (cursor.rest.takeWhile kind, { cursor with rest := cursor.rest.dropWhile kind })

def slice (length : Nat) : Reader (List Char) := do
  let cursor ← get
  if cursor.rest.length < length then invalid
  set { cursor with rest := cursor.rest.drop length }
  return cursor.rest.take length

def digit62 (c : Char) : Nat :=
  if c.isDigit then c.toNat - '0'.toNat
  else if c.isLower then c.toNat - 'a'.toNat + 10
  else c.toNat - 'A'.toNat + 36

/-- A number of base 62 and an underscore; nothing but the underscore is zero, and every other number
is one more than its digits say. -/
def number62 : Reader Nat := do
  let digits ← longest Char.isAlphanum
  unless ← take '_' do invalid
  if digits.isEmpty then return 0
  let n := digits.foldl (fun n c => 62 * n + digit62 c) 0 + 1
  if n < bound then return n else invalid

def tagged62 (tag : Char) : Reader Nat := do
  if ← take tag then
    let n ← number62
    if n + 1 < bound then return n + 1 else invalid
  else return 0

def disambiguator : Reader Nat := tagged62 's'

def space : Reader (Option Char) := do
  let c ← next
  if c.isUpper then return some c
  else if c.isLower then return none
  else invalid

def nibbles : Reader (List Char) := do
  let digits ← longest fun c => c.isDigit || ('a' ≤ c && c ≤ 'f')
  unless ← take '_' do invalid
  return digits

end Reader

structure Ident where
  ascii : List Char
  puny : List Char

namespace Ident

def isEmpty (ident : Ident) : Bool := ident.ascii.isEmpty && ident.puny.isEmpty

def ofPuny (cs : List Char) : Ident :=
  match cs.reverse.span (· ≠ '_') with
  | (puny, _ :: ascii) => ⟨ascii.reverse, puny.reverse⟩
  | (puny, []) => ⟨[], puny.reverse⟩

end Ident

namespace Reader

def ident : Reader Ident := do
  let isPuny ← take 'u'
  let first ← next
  unless first.isDigit do invalid
  let more ← if first = '0' then pure [] else longest Char.isDigit
  let length := (first :: more).foldl (fun n c => 10 * n + (c.toNat - '0'.toNat)) 0
  discard <| take '_'
  let cs ← slice length
  if isPuny then
    let ident := Ident.ofPuny cs
    if ident.puny.isEmpty then invalid
    return ident
  else return ⟨cs, []⟩

/-- The place that a reference goes back to, in a symbol of the given characters. The letter of the
reference has been taken. -/
def back (symbol : List Char) : Reader Cursor := do
  let cursor ← get
  let start := symbol.length - cursor.rest.length - 1
  let place ← number62
  if start ≤ place then invalid
  if cursor.depth + 1 > maxDepth then throw .tooDeep
  return ⟨symbol.drop place, cursor.depth + 1⟩

end Reader

/-! ### Names outside ASCII -/

namespace Punycode

def maxLength : Nat := 128

def digit? (c : Char) : Option Nat :=
  if c.isLower then some (c.toNat - 'a'.toNat)
  else if c.isDigit then some (26 + (c.toNat - '0'.toNat))
  else none

def threshold (k bias : Nat) : Nat := min (max (k - bias) 1) 26

/-- A number in digits of varying weight, ended by a digit below its threshold; and the rest. -/
def delta? (bias : Nat) : (k weight value : Nat) → List Char → Option (Nat × List Char)
  | _, _, _, [] => none
  | k, weight, value, c :: cs => do
    let digit ← digit? c
    let value := value + digit * weight
    if bound ≤ value then none
    let t := threshold k bias
    if digit < t then return (value, cs)
    let weight := weight * (36 - t)
    if bound ≤ weight then none
    delta? bias (k + 36) weight value cs

def settle : (fuel delta k : Nat) → Nat × Nat
  | 0, delta, k => (delta, k)
  | fuel + 1, delta, k => if 35 * 26 / 2 < delta then settle fuel (delta / 35) (k + 36) else (delta, k)

def adapt (delta length : Nat) (first : Bool) : Nat :=
  let delta := delta / (if first then 700 else 2)
  let (delta, k) := settle 64 (delta + delta / length) 0
  k + 36 * delta / (delta + 38)

def insertAll : (fuel : Nat) → (name : List Char) → (place code bias : Nat) → (first : Bool) → List Char →
    Option (List Char)
  | 0, _, _, _, _, _, _ => none
  | fuel + 1, name, place, code, bias, first, digits => do
    let (delta, digits) ← delta? bias 36 1 0 digits
    let length := name.length + 1
    let place := place + delta
    if bound ≤ place then none
    let code := code + place / length
    let place := place % length
    if !code.isValidChar ∨ maxLength < length then none
    let name := name.take place ++ Char.ofNat code :: name.drop place
    if digits.isEmpty then return name
    insertAll fuel name (place + 1) code (adapt delta length first) false digits

def decode? (ident : Ident) : Option (List Char) :=
  if maxLength < ident.ascii.length then none
  else insertAll ident.puny.length ident.ascii 0 0x80 72 true ident.puny

end Punycode

end Backtrace.Symbol.V0
