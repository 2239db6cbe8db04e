import Backtrace.Text

/-!
Symbols of the older scheme: a path as elements with their lengths, in which characters that linkers do not take are
escaped. The last element is a hash. What is put out has a limit, in either scheme.
-/
namespace Backtrace.Symbol

/-! ### Output -/

/-- What has been put out and how many bytes may follow. The first piece for which there is no room
ends the output. -/
structure Output where
  text : String := ""
  room : Nat := 1000000
  full : Bool := false

namespace Output

def put (output : Output) (piece : String) : Output :=
  if output.full then output
  else if piece.utf8ByteSize ≤ output.room then
    { output with text := output.text ++ piece, room := output.room - piece.utf8ByteSize }
  else { output with full := true }

def result (output : Output) : String :=
  if output.full then output.text ++ "\x7bsize limit reached\x7d" else output.text

end Output

/-! ### Elements -/

namespace Legacy

def inner? (symbol : List Char) : Option (List Char) :=
  ((['_', 'Z', 'N'].isPrefixOf? symbol).or
    ((['Z', 'N'].isPrefixOf? symbol).or (['_', '_', 'Z', 'N'].isPrefixOf? symbol))).filter
      (·.all fun c => c.toNat < 0x80)

def elements? (cs : List Char) : Option (List (List Char) × List Char) :=
  match cs with
  | [] => none
  | c :: cs =>
    if c = 'E' then some ([], cs)
    else if c.isDigit then
      let length := (Text.decimal? (c :: cs.takeWhile Char.isDigit)).getD 0
      let rest := cs.dropWhile Char.isDigit
      if rest.length ≤ length then none
      else (elements? (rest.drop length)).map fun (elements, tail) => (rest.take length :: elements, tail)
    else none
termination_by cs.length
decreasing_by
  have := (List.dropWhile_sublist (l := cs) Char.isDigit).length_le
  simp only [List.length_drop, List.length_cons]
  omega

def isHash : List Char → Bool
  | 'h' :: digits => digits.all fun c => (Text.hexDigit? c).isSome
  | _ => false

def isControl (n : Nat) : Bool := n < 0x20 || (0x7f ≤ n && n < 0xa0)

def codePoint? (digits : List Char) : Option Char := do
  if digits.isEmpty then none
  let n ← digits.foldlM (fun n c => (Text.lowerHexDigit? c).map (16 * n + ·)) 0
  if n.isValidChar ∧ !isControl n then some (Char.ofNat n) else none

def escape? (code : List Char) : Option String :=
  match ([("SP", "@"), ("BP", "*"), ("RF", "&"), ("LT", "<"), ("GT", ">"), ("LP", "("), ("RP", ")"),
      ("C", ",")] : List (String × String)).lookup (String.ofList code) with
  | some text => some text
  | none =>
    match code with
    | 'u' :: digits => (codePoint? digits).map String.singleton
    | _ => none

theorem length_around? {mark : Char} {cs l r : List Char} (h : Text.around? mark cs = some (l, r)) :
    r.length < cs.length := by
  rw [(Text.around?_eq_some_iff.1 h).1]
  simp only [List.length_append, List.length_cons]
  omega

/-- The pieces of an element: dots and escapes are undone, up to the first escape that is none. -/
def unescape (cs : List Char) : List String :=
  match cs with
  | [] => []
  | '.' :: '.' :: rest => "::" :: unescape rest
  | '.' :: rest => "." :: unescape rest
  | '$' :: rest =>
    match _ : Text.around? '$' rest with
    | none => [String.ofList ('$' :: rest)]
    | some (code, after) =>
      match escape? code with
      | some text => text :: unescape after
      | none => [String.ofList ('$' :: rest)]
  | c :: rest =>
    String.ofList (c :: rest.takeWhile fun c => c ≠ '$' && c ≠ '.') ::
      unescape (rest.dropWhile fun c => c ≠ '$' && c ≠ '.')
termination_by cs.length
decreasing_by
  · simp only [List.length_cons]; omega
  · simp
  · have := length_around? ‹_›
    simp only [List.length_cons]; omega
  · have := (List.dropWhile_sublist (l := rest) fun c => c ≠ '$' && c ≠ '.').length_le
    simp only [List.length_cons]; omega

/-- An underscore is put in front of an element that begins with an escape. -/
def element (cs : List Char) : List String :=
  match cs with
  | '_' :: '$' :: rest => unescape ('$' :: rest)
  | cs => unescape cs

def pieces (first : Bool) : List (List Char) → List String
  | [] => []
  | [last] => if isHash last then [] else (if first then [] else ["::"]) ++ element last
  | head :: rest => (if first then [] else ["::"]) ++ element head ++ pieces false rest

def demangle? (symbol : List Char) : Option (String × List Char) := do
  let (elements, tail) ← elements? (← inner? symbol)
  return (((pieces true elements).foldl Output.put {}).result, tail)

end Legacy

end Backtrace.Symbol
