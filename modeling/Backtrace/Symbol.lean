import Backtrace.Symbol.Legacy
import Backtrace.Symbol.V0.Printer

/-! Symbols of native code: the paths that mangled ones stand for, and frames that have nothing else. -/
namespace Backtrace.Symbol

/-- Drops the ending that the linker gives to a symbol that it has copied. -/
def withoutCopyMark : List Char → List Char
  | [] => []
  | c :: cs =>
    match ['.', 'l', 'l', 'v', 'm', '.'].isPrefixOf? (c :: cs) with
    | some tail => if tail.all fun c => c.isDigit || ('A' ≤ c && c ≤ 'F') || c = '@' then [] else c :: cs
    | none => c :: withoutCopyMark cs

def isSuffix : List Char → Bool
  | [] => true
  | c :: cs => c = '.' && cs.all fun c => 0x21 ≤ c.toNat && c.toNat ≤ 0x7e

def demangle? (symbol : String) : Option String := do
  let symbol := withoutCopyMark symbol.toList
  let (path, suffix) ← (Legacy.demangle? symbol).or (V0.demangle? symbol)
  if isSuffix suffix then some (path ++ String.ofList suffix) else none

inductive Language
  | rust
  | cpp
  | unknown
deriving DecidableEq

namespace Language

def name : Language → String
  | .rust => "rust"
  | .cpp => "c++"
  | .unknown => "unknown"

/-- The language of a symbol. Both mangle into names that begin with `_Z`; only those that can be undone
are of the first. -/
def of (symbol : String) : Language :=
  let cs := symbol.toList
  let isMangled := Text.startsWith ['_', 'Z'] cs
  if (demangle? symbol).isSome || (!isMangled && Text.holds [':', ':'] cs) then .rust
  else if isMangled then .cpp
  else .unknown

end Language

def frameText (symbol : String) (address : Option UInt64) : String :=
  let name := (demangle? symbol).getD symbol
  match address with
  | some address => "at " ++ name ++ " [0x" ++ String.ofList (Text.hex address.toNat) ++ "]"
  | none => "at " ++ name

end Backtrace.Symbol
