import Backtrace.Text
import Backtrace.Json.Node

/-!
Strings of a JSON text. A reader that passes over a string checks its escapes but not whether its
surrogates come in pairs, so it may get further than one that wants the text.
-/
namespace Backtrace.Json

/-- A string as far as it has been read: its characters, newest first, unless a surrogate without
its partner has spoilt it. -/
abbrev Partial := Option (List Char)

namespace Partial

def push (p : Partial) (c : Char) : Partial := p.map (c :: ·)

def text (p : Partial) : Option String := p.map fun cs => String.ofList cs.reverse

def fault (p : Partial) (problem : Problem) : Fault :=
  let wanted := if p.isSome then problem else .malformed
  ⟨wanted, problem, wanted⟩

end Partial

def hexValue? (digits : List Char) : Option Nat :=
  digits.foldlM (fun n c => (Text.hexDigit? c).map (16 * n + ·)) 0

/-- The code unit of a four-digit escape. Fewer than four further bytes are taken for the end of the
text, whatever they are. -/
def codeUnit : List Char → Except Problem (Nat × List Char)
  | a :: b :: c :: d :: rest =>
    match hexValue? [a, b, c, d] with
    | some n => .ok (n, rest)
    | none => .error .malformed
  | short => .error (if (String.ofList short).utf8ByteSize < 4 then .truncated else .malformed)

def escape? : Char → Option Char
  | '"' => some '"'
  | '\\' => some '\\'
  | '/' => some '/'
  | 'b' => some '\x08'
  | 'f' => some '\x0c'
  | 'n' => some '\n'
  | 'r' => some '\r'
  | 't' => some '\t'
  | _ => none

def isLeading (unit : Nat) : Bool := 0xd800 ≤ unit && unit < 0xdc00

def isTrailing (unit : Nat) : Bool := 0xdc00 ≤ unit && unit < 0xe000

def joined (leading trailing : Nat) : Char := Char.ofNat (0x10000 + (leading - 0xd800) * 0x400 + (trailing - 0xdc00))

/-- A leading surrogate takes the escape after it for its partner; where there is none, the string is
spoilt and reading goes on behind the surrogate. -/
def partner (p : Partial) (leading : Nat) : List Char → Except Fault (Partial × List Char)
  | [] => .error (p.fault .truncated)
  | ['\\'] => .error (p.fault .truncated)
  | '\\' :: 'u' :: cs =>
    match codeUnit cs with
    | .error problem => .error (p.fault problem)
    | .ok (unit, rest) =>
      if isTrailing unit then .ok (p.push (joined leading unit), rest) else .ok (none, '\\' :: 'u' :: cs)
  | cs => .ok (none, cs)

def escaped (p : Partial) : List Char → Except Fault (Partial × List Char)
  | [] => .error (p.fault .truncated)
  | 'u' :: cs =>
    match codeUnit cs with
    | .error problem => .error (p.fault problem)
    | .ok (unit, rest) =>
      if isLeading unit then partner p unit rest
      else if isTrailing unit then .ok (none, rest)
      else .ok (p.push (Char.ofNat unit), rest)
  | c :: cs =>
    match escape? c with
    | some c => .ok (p.push c, cs)
    | none => .error (p.fault .malformed)

theorem codeUnit_length {cs rest : List Char} {n : Nat} (h : codeUnit cs = .ok (n, rest)) :
    rest.length < cs.length := by
  unfold codeUnit at h
  split at h
  · split at h
    · cases h; simp only [List.length_cons]; omega
    · cases h
  · cases h

theorem partner_length {p q : Partial} {leading : Nat} {cs rest : List Char}
    (h : partner p leading cs = .ok (q, rest)) : rest.length ≤ cs.length := by
  unfold partner at h
  split at h
  · cases h
  · cases h
  · split at h
    · cases h
    · next heq =>
      have := codeUnit_length heq
      split at h <;> cases h
      · simp only [List.length_cons]; omega
      · exact Nat.le_refl _
  · cases h; exact Nat.le_refl _

theorem escaped_length {p q : Partial} {cs rest : List Char} (h : escaped p cs = .ok (q, rest)) :
    rest.length < cs.length := by
  unfold escaped at h
  split at h
  · cases h
  · split at h
    · cases h
    · next heq =>
      have := codeUnit_length heq
      simp only [List.length_cons]
      split at h
      · have := partner_length h; omega
      · split at h <;> cases h <;> omega
  · split at h <;> cases h
    simp

def quoted (p : Partial) (cs : List Char) : Except Fault (Option String × List Char) :=
  match cs with
  | [] => .error (p.fault .truncated)
  | c :: cs =>
    if c = '"' then .ok (p.text, cs)
    else if c = '\\' then
      match _ : escaped p cs with
      | .error fault => .error fault
      | .ok (q, rest) => quoted q rest
    else if c.toNat < 0x20 then .error (p.fault .malformed)
    else quoted (p.push c) cs
termination_by cs.length
decreasing_by
  · have := escaped_length ‹_›
    simp only [List.length_cons]; omega
  · simp

theorem quoted_length {p : Partial} {cs rest : List Char} {text : Option String}
    (h : quoted p cs = .ok (text, rest)) : rest.length < cs.length := by
  fun_induction quoted p cs with
  | case1 => cases h
  | case2 => cases h; simp
  | case3 => cases h
  | case4 p cs q rest' heq _ ih =>
    have := escaped_length heq
    have := ih h
    simp only [List.length_cons]; omega
  | case5 => cases h
  | case6 p c cs _ _ _ ih =>
    have := ih h
    simp only [List.length_cons]; omega

end Backtrace.Json
