import Backtrace.Json.Number
import Backtrace.Json.Quoted

/-!
Reading a JSON text into a tree: first into the marks, words, numbers and strings that it is made of. The unfinished
containers are kept on a stack, so that depth costs no more than length; where the text goes wrong, the fault is put in
its place and into every container around it.
-/
namespace Backtrace.Json

/-! ### Tokens -/

inductive Token
  | openArray
  | closeArray
  | openObject
  | closeObject
  | comma
  | colon
  | null
  | bool (value : Bool)
  | number (value : Number)
  | string (text : Option String)
  | badString (fault : Fault)
  | bad (fault : Fault)

def word (letters : List Char) (token : Token) : List Char → Token × List Char :=
  match letters with
  | [] => fun cs => (token, cs)
  | letter :: letters => fun
    | [] => (.bad ⟨.truncated, .truncated, .malformed⟩, [])
    | c :: cs => if c = letter then word letters token cs else (.bad (.same .malformed), cs)

def tokenFrom (c : Char) (cs : List Char) : Token × List Char :=
  match c with
  | '[' => (.openArray, cs)
  | ']' => (.closeArray, cs)
  | '\x7b' => (.openObject, cs)
  | '\x7d' => (.closeObject, cs)
  | ',' => (.comma, cs)
  | ':' => (.colon, cs)
  | 'n' => word ['u', 'l', 'l'] .null cs
  | 't' => word ['r', 'u', 'e'] (.bool true) cs
  | 'f' => word ['a', 'l', 's', 'e'] (.bool false) cs
  | '"' =>
    match quoted (some []) cs with
    | .ok (text, rest) => (.string text, rest)
    | .error fault => (.badString fault, cs)
  | c =>
    if c = '-' ∨ c.isDigit = true then
      match number (c :: cs) with
      | .ok (n, rest) => (.number n, if rest.length ≤ cs.length then rest else cs)
      | .error fault => (.bad fault, cs)
    else (.bad (.same .malformed), cs)

def isSpace (c : Char) : Bool := c = ' ' || c = '\n' || c = '\t' || c = '\r'

def token? (cs : List Char) : Option (Token × List Char) :=
  match cs.dropWhile isSpace with
  | [] => none
  | c :: cs => some (tokenFrom c cs)

theorem word_length (letters : List Char) (token : Token) (cs : List Char) :
    (word letters token cs).2.length ≤ cs.length := by
  induction letters generalizing cs with
  | nil => simp [word]
  | cons letter letters ih =>
    cases cs with
    | nil => simp [word]
    | cons c cs =>
      have := ih cs
      by_cases h : c = letter <;> simp [word, h]
      omega

theorem tokenFrom_length (c : Char) (cs : List Char) : (tokenFrom c cs).2.length ≤ cs.length := by
  unfold tokenFrom
  split <;> try exact Nat.le_refl _
  · exact word_length _ _ _
  · exact word_length _ _ _
  · exact word_length _ _ _
  · split
    · next h => exact Nat.le_of_lt (quoted_length h)
    · exact Nat.le_refl _
  · split
    · split
      · dsimp only
        split
        · assumption
        · exact Nat.le_refl _
      · exact Nat.le_refl _
    · exact Nat.le_refl _

theorem token?_length {cs rest : List Char} {token : Token} (h : token? cs = some (token, rest)) :
    rest.length < cs.length := by
  unfold token? at h
  split at h
  · cases h
  · next c tail heq =>
    have whole : (cs.dropWhile isSpace).length ≤ cs.length := (List.dropWhile_sublist isSpace).length_le
    have part := tokenFrom_length c tail
    rw [Option.some.inj h] at part
    dsimp only at part
    rw [heq, List.length_cons] at whole
    omega

/-! ### Trees -/

/-- An unfinished container, its parts newest first. An object waits for the value of a key. -/
inductive Open
  | array (items : List Node)
  | object (members : List (Option String × Node)) (key : Option String)

/-- What may come next. In a container that has just been opened it may be closed at once. -/
inductive Reading
  | value (outer : List Open) (first : Bool)
  | key (outer : List Open) (members : List (Option String × Node)) (first : Bool)
  | colon (outer : List Open) (members : List (Option String × Node)) (key : Option String)
  | afterItem (outer : List Open) (items : List Node)
  | afterMember (outer : List Open) (members : List (Option String × Node))
  | finished (tree : Tree)

def Open.seal (fault : Fault) (inner : Node) : Open → Node
  | .array items => .array (inner :: items).reverse (some fault)
  | .object members key => .object ((key, inner) :: members).reverse (some fault)

def sealAll (fault : Fault) (outer : List Open) (inner : Node) : Reading :=
  .finished ⟨outer.foldl (fun inner container => container.seal fault inner) inner, true⟩

def place (node : Node) : List Open → Reading
  | [] => .finished ⟨node, true⟩
  | .array items :: outer => .afterItem outer (node :: items)
  | .object members key :: outer => .afterMember outer ((key, node) :: members)

def Token.asValue : Token → Except Fault Node
  | .null => .ok .null
  | .bool value => .ok (.bool value)
  | .number value => .ok (.number value)
  | .string text => .ok (.string text)
  | .badString fault => .error fault
  | .bad fault => .error fault
  | _ => .error (.same .malformed)

/-- The fault of a token where a key is wanted: nothing but a string will do. -/
def Token.asKey : Token → Except Fault (Option String)
  | .string text => .ok text
  | .badString fault => .error fault
  | _ => .error (.same .malformed)

/-- A fault at a key. One that wants the name of a variant refuses the comma in front of a further key. -/
def Fault.atKey (first : Bool) (fault : Fault) : Fault :=
  if first then fault else { fault with variant := .malformed }

namespace Reading

def step : Reading → Token → Reading
  | .value outer _, .openArray => .value (.array [] :: outer) true
  | .value outer _, .openObject => .key outer [] true
  | .value (.array items :: outer) true, .closeArray => place (.array items.reverse none) outer
  | .value outer _, token =>
    match token.asValue with
    | .ok node => place node outer
    | .error fault => sealAll fault outer (.bad fault)
  | .key outer members true, .closeObject => place (.object members.reverse none) outer
  | .key outer members first, token =>
    match token.asKey with
    | .ok name => .colon outer members name
    | .error fault => sealAll fault outer (.object members.reverse (some (fault.atKey first)))
  | .colon outer members name, .colon => .value (.object members name :: outer) false
  | .colon outer members name, _ =>
    sealAll (.same .malformed) (.object members name :: outer) (.bad (.same .malformed))
  | .afterItem outer items, .comma => .value (.array items :: outer) false
  | .afterItem outer items, .closeArray => place (.array items.reverse none) outer
  | .afterItem outer items, _ =>
    sealAll (.same .malformed) outer (.array items.reverse (some (.same .malformed)))
  | .afterMember outer members, .comma => .key outer members false
  | .afterMember outer members, .closeObject => place (.object members.reverse none) outer
  | .afterMember outer members, _ =>
    sealAll (.same .malformed) outer (.object members.reverse (some (.same .malformed)))
  | .finished tree, _ => .finished { tree with clean := false }

def finish : Reading → Tree
  | .finished tree => tree
  | .value outer _ => ended outer (.bad (.same .truncated))
  | .key outer members first => ended outer (.object members.reverse (some (Fault.atKey first (.same .truncated))))
  | .colon outer members name => ended (.object members name :: outer) (.bad (.same .truncated))
  | .afterItem outer items => ended outer (.array items.reverse (some (.same .truncated)))
  | .afterMember outer members => ended outer (.object members.reverse (some (.same .truncated)))
where
  ended (outer : List Open) (inner : Node) : Tree :=
    match sealAll (.same .truncated) outer inner with
    | .finished tree => tree
    | _ => ⟨inner, true⟩

def run (reading : Reading) (cs : List Char) : Tree :=
  match _ : token? cs with
  | none => reading.finish
  | some (token, rest) =>
    match reading.step token with
    | .finished tree => ⟨tree.root, tree.clean && (token? rest).isNone⟩
    | reading => run reading rest
termination_by cs.length
decreasing_by exact token?_length ‹_›

end Reading

def Tree.ofText (text : String) : Tree := Reading.run (.value [] false) text.toList

end Backtrace.Json
