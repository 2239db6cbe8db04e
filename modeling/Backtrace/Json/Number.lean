import Backtrace.Text
import Backtrace.Json.Node

/-!
Numbers of a JSON text. A number is read as its significant digits, as many as fit in 64 bits, and a
decimal exponent; it is too large when the product of the two, each rounded to a double, has no
double near it.
-/
namespace Backtrace.Json

/-- A natural number rounded to 53 significant bits, a half to the even neighbour. -/
def roundToDouble (n : Nat) : Nat :=
  let unit := Nat.pow 2 (Nat.log2 n - 52)
  let whole := n / unit
  let rest := n % unit
  let up := if 2 * rest > unit ∨ (2 * rest = unit ∧ whole % 2 = 1) then 1 else 0
  (whole + up) * unit

structure Scaled where
  digits : Nat := 0
  exponent : Int := 0

namespace Scaled

def room : Nat := UInt64.size

def digit (c : Char) : Nat := c.toNat - '0'.toNat

def whole : Scaled → List Char → Scaled
  | s, [] => s
  | s, c :: cs =>
    if s.exponent = 0 ∧ 10 * s.digits + digit c < room then whole { s with digits := 10 * s.digits + digit c } cs
    else whole { s with exponent := s.exponent + 1 } cs

def fraction : Scaled → List Char → Scaled
  | s, [] => s
  | s, c :: cs =>
    if 10 * s.digits + digit c < room then fraction ⟨10 * s.digits + digit c, s.exponent - 1⟩ cs else s

/-- An exponent that no table of powers reaches is as good as this one. -/
def farExponent : Nat := Nat.pow 2 31

def shift (s : Scaled) (negative : Bool) (exponent : List Char) : Scaled :=
  let size := exponent.foldl (fun n c => min farExponent (10 * n + digit c)) 0
  { s with exponent := if negative then s.exponent - size else s.exponent + size }

def ceiling : Nat := Nat.pow 2 1024

def isHuge (s : Scaled) : Bool :=
  s.digits ≠ 0 && 0 ≤ s.exponent &&
    (308 < s.exponent ||
      ceiling ≤ roundToDouble (roundToDouble s.digits * roundToDouble (Nat.pow 10 s.exponent.toNat)))

end Scaled

def digits (cs : List Char) : List Char × List Char := cs.span Char.isDigit

/-- A fault in a number: where the text ends, one that passes over the number calls it malformed. -/
def numberFault : List Char → Fault
  | [] => ⟨.truncated, .malformed, .malformed⟩
  | _ :: _ => .same .malformed

def exponent : List Char → Except Fault (Option (Bool × List Char) × List Char)
  | [] => .ok (none, [])
  | c :: cs =>
    if c = 'e' ∨ c = 'E' then
      let (negative, cs) := match cs with
        | '-' :: cs => (true, cs)
        | '+' :: cs => (false, cs)
        | cs => (false, cs)
      match digits cs with
      | ([], rest) => .error (numberFault rest)
      | (ds, rest) => .ok (some (negative, ds), rest)
    else .ok (none, c :: cs)

def decimals : List Char → Except Fault (Option (List Char) × List Char)
  | '.' :: cs =>
    match digits cs with
    | ([], rest) => .error (numberFault rest)
    | (ds, rest) => .ok (some ds, rest)
  | cs => .ok (none, cs)

def integer (cs : List Char) : Except Fault (List Char × List Char) :=
  match digits cs with
  | ([], rest) => .error (numberFault rest)
  | ('0' :: _ :: _, _) => .error (.same .malformed)
  | (ds, rest) => .ok (ds, rest)

def number (cs : List Char) : Except Fault (Number × List Char) := do
  let (negative, unsigned) := match cs with
    | '-' :: rest => (true, rest)
    | rest => (false, rest)
  let (whole, rest) ← integer unsigned
  let (decimals, rest) ← decimals rest
  let (power, rest) ← exponent rest
  let value := Scaled.whole {} whole
  if !negative && decimals.isNone && power.isNone && value.exponent = 0 then
    return (.natural value.digits, rest)
  let value := value.fraction (decimals.getD [])
  let value := match power with
    | some (negative, ds) => value.shift negative ds
    | none => value
  let text := String.ofList (cs.take (cs.length - rest.length))
  return (if value.isHuge then .huge text else .other text, rest)

end Backtrace.Json
