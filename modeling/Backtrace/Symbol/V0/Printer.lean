import Backtrace.Symbol.Legacy
import Backtrace.Symbol.V0.Cursor
import Backtrace.Text.Literal

/-!
Writing out what a symbol of the newer scheme says. Reading and writing go together, since references
lead back into what has been read. A symbol is first gone through without output, which does not follow
references; flaws that show only behind these are told in the output.
-/
namespace Backtrace.Symbol.V0

/-- How far the symbol has been read, unless it proved flawed, and what has been put out, if output is
wanted. -/
structure Printer where
  symbol : List Char
  cursor : Option Cursor
  output : Option Output
  /-- How many lifetimes are bound around the current place. -/
  bound : Nat := 0

abbrev Print := StateM Printer

namespace Printer

def isFull (printer : Printer) : Bool := (printer.output.map (·.full)).getD false

def isSound (printer : Printer) : Bool := printer.cursor.isSome

end Printer

namespace Print

def put (piece : String) : Print Unit :=
  modify fun printer => { printer with output := printer.output.map (·.put piece) }

def putAll (pieces : List String) : Print Unit := pieces.forM put

def putNumber (n : Nat) : Print Unit := put (String.ofList (Nat.toDigits 10 n))

def spoil (notice : String) : Print Unit := do
  put notice
  modify fun printer => { printer with cursor := none }

def invalid : Print Unit := spoil "\x7binvalid syntax\x7d"

def parse (reader : Reader α) : Print (Option α) := do
  match (← get).cursor with
  | none => do
    put "?"
    return none
  | some cursor =>
    match reader.run cursor with
    | .ok (value, cursor) => do
      modify fun printer => { printer with cursor := some cursor }
      return some value
    | .error .invalid => do
      invalid
      return none
    | .error .tooDeep => do
      spoil "\x7brecursion limit reached\x7d"
      return none

def eat (c : Char) : Print Bool := do
  match (← get).cursor with
  | none => return false
  | some _ => return (← parse (Reader.take c)).getD false

def leave : Print Unit :=
  modify fun printer => { printer with cursor := printer.cursor.map fun c => { c with depth := c.depth - 1 } }

def silently (action : Print Unit) : Print Unit := do
  let output := (← get).output
  modify fun printer => { printer with output := none }
  action
  modify fun printer => { printer with output := output }

/-- Follows a reference, unless there is no output, and goes on behind it. -/
def reference (fallback : α) (action : Print α) : Print α := do
  let some target ← parse (Reader.back (← get).symbol) | return fallback
  if (← get).output.isNone then return fallback
  let cursor := (← get).cursor
  modify fun printer => { printer with cursor := some target }
  let value ← action
  modify fun printer => { printer with cursor }
  return value

def items (item : Print Unit) (separator : String) : (limit count : Nat) → Print Nat
  | 0, count => return count
  | limit + 1, count => do
    let printer ← get
    if !printer.isSound || printer.isFull then return count
    if ← eat 'E' then return count
    if count > 0 then put separator
    item
    items item separator limit (count + 1)

def list (separator : String) (item : Print Unit) : Print Nat := do
  let limit := ((← get).cursor.map (·.rest.length)).getD 0
  items item separator (limit + 1) 0

def ident (name : Ident) : Print Unit :=
  if name.puny.isEmpty then put (String.ofList name.ascii)
  else
    match Punycode.decode? name with
    | some cs => putAll (cs.map String.singleton)
    | none => do
      put "punycode\x7b"
      unless name.ascii.isEmpty do
        put (String.ofList name.ascii)
        put "-"
      put (String.ofList name.puny)
      put "\x7d"

/-- A lifetime by its distance to the binder: a letter where there are few, and a number else. Without
output lifetimes are not followed. -/
def lifetime (index : Nat) : Print Unit := do
  let printer ← get
  if printer.output.isNone then return
  put "'"
  if index = 0 then put "_"
  else if printer.bound < index then invalid
  else
    let depth := printer.bound - index
    if depth < 26 then put (String.singleton (Char.ofNat ('a'.toNat + depth)))
    else do
      put "_"
      putNumber depth

def bindLifetimes : (count : Nat) → (first : Bool) → Print Unit
  | 0, _ => return
  | count + 1, first => do
    if (← get).isFull then return
    unless first do put ", "
    modify fun printer => { printer with bound := printer.bound + 1 }
    lifetime 1
    bindLifetimes count false

def binder (action : Print Unit) : Print Unit := do
  let some count ← parse (Reader.tagged62 'G') | return
  if (← get).output.isNone then action
  else
    let outer := (← get).bound
    if count > 0 then
      put "for<"
      bindLifetimes (min count 1000000) true
      put "> "
    action
    modify fun printer => { printer with bound := outer }

def word? (digits : List Char) : Option Nat :=
  let significant := digits.dropWhile (· = '0')
  if significant.length ≤ 16 then some (significant.foldl (fun n c => 16 * n + (Text.lowerHexDigit? c).getD 0) 0)
  else none

def natural : Print Unit := do
  let some digits ← parse Reader.nibbles | return
  match word? digits with
  | some n => putNumber n
  | none => do
    put "0x"
    put (String.ofList digits)

def bytes? : List Char → Option (List UInt8)
  | [] => some []
  | [_] => none
  | high :: low :: rest => do
    let high ← Text.lowerHexDigit? high
    let low ← Text.lowerHexDigit? low
    return UInt8.ofNat (16 * high + low) :: (← bytes? rest)

def text? (digits : List Char) : Option String := do
  String.fromUTF8? (ByteArray.mk (← bytes? digits).toArray)

def textLiteral : Print Unit := do
  let some digits ← parse Reader.nibbles | return
  match text? digits with
  | some text => putAll (Text.literal '"' text.toList)
  | none => invalid

def truthValue : Print Unit := do
  let some digits ← parse Reader.nibbles | return
  match word? digits with
  | some 0 => put "false"
  | some 1 => put "true"
  | _ => invalid

def characterLiteral : Print Unit := do
  let some digits ← parse Reader.nibbles | return
  match (word? digits).filter (fun n => n.isValidChar) with
  | some n => putAll (Text.literal '\'' [Char.ofNat n])
  | none => invalid

end Print

namespace Print

def referenceLifetime : Print Bool := do
  if ← eat 'L' then
    let some index ← parse Reader.number62 | return false
    if index ≠ 0 then
      lifetime index
      put " "
  return true

def associated (value : Print Unit) : (limit : Nat) → (isOpen : Bool) → Print Bool
  | 0, isOpen => return isOpen
  | limit + 1, isOpen => do
    if (← get).isFull then return isOpen
    if ← eat 'p' then
      put (if isOpen then ", " else "<")
      let some name ← parse Reader.ident | return false
      ident name
      put " = "
      value
      associated value limit true
    else return isOpen

end Print

def basicTypes : List (Char × String) :=
  [('b', "bool"), ('c', "char"), ('e', "str"), ('u', "()"), ('a', "i8"), ('s', "i16"), ('l', "i32"),
    ('x', "i64"), ('n', "i128"), ('i', "isize"), ('h', "u8"), ('t', "u16"), ('m', "u32"), ('y', "u64"),
    ('o', "u128"), ('j', "usize"), ('f', "f32"), ('d', "f64"), ('z', "!"), ('p', "_"), ('v', "...")]

def dashed (name : List Char) : List String := ((String.ofList name).splitOn "_").intersperse "-"

open Print

mutual
def path : (fuel : Nat) → (inValue : Bool) → Print Unit
  | 0, _ => return
  | fuel + 1, inValue => do
    if (← get).isFull then return
    let some _ ← parse Reader.enter | return
    let some tag ← parse Reader.next | return
    match tag with
    | 'C' => do
      let some _ ← parse Reader.disambiguator | return
      let some name ← parse Reader.ident | return
      ident name
    | 'N' => do
      let some space ← parse Reader.space | return
      path fuel inValue
      unless (← get).isSound do put "::"
      let some number ← parse Reader.disambiguator | return
      let some name ← parse Reader.ident | return
      match space with
      | some letter => do
        put "::\x7b"
        match letter with
        | 'C' => put "closure"
        | 'S' => put "shim"
        | letter => put (String.singleton letter)
        unless name.isEmpty do
          put ":"
          ident name
        put "#"
        putNumber number
        put "\x7d"
      | none => unless name.isEmpty do
          put "::"
          ident name
    | 'M' => do
      let some _ ← parse Reader.disambiguator | return
      silently (path fuel false)
      put "<"
      type fuel
      put ">"
    | 'X' => do
      let some _ ← parse Reader.disambiguator | return
      silently (path fuel false)
      put "<"
      type fuel
      put " as "
      path fuel false
      put ">"
    | 'Y' => do
      put "<"
      type fuel
      put " as "
      path fuel false
      put ">"
    | 'I' => do
      path fuel inValue
      if inValue then put "::"
      put "<"
      discard <| list ", " (argument fuel)
      put ">"
    | 'B' => reference () (path fuel inValue)
    | _ => do
      invalid
      return
    leave

def argument : (fuel : Nat) → Print Unit
  | 0 => return
  | fuel + 1 => do
    if (← get).isFull then return
    if ← eat 'L' then
      let some index ← parse Reader.number62 | return
      lifetime index
    else if ← eat 'K' then constant fuel false
    else type fuel

def type : (fuel : Nat) → Print Unit
  | 0 => return
  | fuel + 1 => do
    if (← get).isFull then return
    if ← eat 'w' then put "#[splat] "
    let some tag ← parse Reader.next | return
    match basicTypes.lookup tag with
    | some name => put name
    | none => do
      let some _ ← parse Reader.enter | return
      match tag with
      | 'R' => do
        put "&"
        unless ← referenceLifetime do return
        type fuel
      | 'Q' => do
        put "&"
        unless ← referenceLifetime do return
        put "mut "
        type fuel
      | 'P' => do
        put "*"
        put "const "
        type fuel
      | 'O' => do
        put "*"
        put "mut "
        type fuel
      | 'A' => do
        put "["
        type fuel
        put "; "
        constant fuel true
        put "]"
      | 'S' => do
        put "["
        type fuel
        put "]"
      | 'T' => do
        put "("
        let count ← list ", " (type fuel)
        if count = 1 then put ","
        put ")"
      | 'F' => binder (function fuel)
      | 'D' => do
        put "dyn "
        binder (discard <| list " + " (dynamic fuel))
        unless ← eat 'L' do
          invalid
          return
        let some index ← parse Reader.number62 | return
        if index ≠ 0 then
          put " + "
          lifetime index
      | 'B' => reference () (type fuel)
      | 'W' => do
        type fuel
        put " is "
        pattern fuel
      | _ => do
        modify fun printer => { printer with
          cursor := printer.cursor.map fun cursor => { cursor with rest := tag :: cursor.rest } }
        path fuel false
      leave

def function : (fuel : Nat) → Print Unit
  | 0 => return
  | fuel + 1 => do
    if (← get).isFull then return
    let isUnsafe ← eat 'U'
    let mut abi : Option (List String) := none
    if ← eat 'K' then
      if ← eat 'C' then abi := some ["C"]
      else
        let some name ← parse Reader.ident | return
        if name.ascii.isEmpty || !name.puny.isEmpty then
          invalid
          return
        abi := some (dashed name.ascii)
    if isUnsafe then put "unsafe "
    match abi with
    | some name => do
      put "extern \""
      putAll name
      put "\" "
    | none => pure ()
    put "fn("
    discard <| list ", " (type fuel)
    put ")"
    unless ← eat 'u' do
      put " -> "
      type fuel

def openPath : (fuel : Nat) → Print Bool
  | 0 => return false
  | fuel + 1 => do
    if (← get).isFull then return false
    if ← eat 'B' then reference false (openPath fuel)
    else if ← eat 'I' then do
      path fuel false
      put "<"
      discard <| list ", " (argument fuel)
      return true
    else do
      path fuel false
      return false

def dynamic : (fuel : Nat) → Print Unit
  | 0 => return
  | fuel + 1 => do
    if (← get).isFull then return
    let isOpen ← openPath fuel
    let limit := ((← get).cursor.map (·.rest.length)).getD 0
    let value : Print Unit := do if ← eat 'K' then constant fuel false else type fuel
    let isOpen ← associated value (limit + 1) isOpen
    if isOpen then put ">"

def constant : (fuel : Nat) → (inValue : Bool) → Print Unit
  | 0, _ => return
  | fuel + 1, inValue => do
    if (← get).isFull then return
    let some tag ← parse Reader.next | return
    let some _ ← parse Reader.enter | return
    let opening : Print Unit := unless inValue do put "\x7b"
    let closing : Print Unit := unless inValue do put "\x7d"
    match tag with
    | 'p' => put "_"
    | 'h' | 't' | 'm' | 'y' | 'o' | 'j' => natural
    | 'a' | 's' | 'l' | 'x' | 'n' | 'i' => do
      if ← eat 'n' then put "-"
      natural
    | 'b' => truthValue
    | 'c' => characterLiteral
    | 'e' => do
      opening
      put "*"
      textLiteral
      closing
    | 'R' => do
      if ← eat 'e' then textLiteral
      else
        opening
        put "&"
        constant fuel true
        closing
    | 'Q' => do
      opening
      put "&"
      put "mut "
      constant fuel true
      closing
    | 'A' => do
      opening
      put "["
      discard <| list ", " (constant fuel true)
      put "]"
      closing
    | 'T' => do
      opening
      put "("
      let count ← list ", " (constant fuel true)
      if count = 1 then put ","
      put ")"
      closing
    | 'V' => do
      opening
      path fuel true
      let some form ← parse Reader.next | return
      match form with
      | 'U' => pure ()
      | 'T' => do
        put "("
        discard <| list ", " (constant fuel true)
        put ")"
      | 'S' => do
        put " \x7b "
        discard <| list ", " (namedConstant fuel)
        put " \x7d"
      | _ => do
        invalid
        return
      closing
    | 'B' => reference () (constant fuel inValue)
    | _ => do
      invalid
      return
    leave

def namedConstant : (fuel : Nat) → Print Unit
  | 0 => return
  | fuel + 1 => do
    if (← get).isFull then return
    let some _ ← parse Reader.disambiguator | return
    let some name ← parse Reader.ident | return
    ident name
    put ": "
    constant fuel true

/-- A pattern that narrows a type. A choice of patterns with a flaw in it is flawed itself, which is told
again. -/
def pattern : (fuel : Nat) → Print Unit
  | 0 => return
  | fuel + 1 => do
    if (← get).isFull then return
    let some tag ← parse Reader.next | return
    match tag with
    | 'R' => do
      constant fuel false
      put "..="
      constant fuel false
    | 'O' => do
      let some _ ← parse Reader.enter | return
      pattern fuel
      discard <| list "" do
        put " | "
        pattern fuel
      if (← get).isSound then leave else invalid
    | 'N' => put "!null"
    | _ => invalid
end

/-- Of five constructs inside each other one at least goes a level deeper. -/
def fuel : Nat := 5 * (maxDepth + 2)

def validate (symbol : List Char) (cursor : Cursor) : Option Cursor :=
  ((path fuel false).run { symbol, cursor := some cursor, output := none }).2.cursor

def inner? (symbol : List Char) : Option (List Char) :=
  let inner := match symbol with
    | '_' :: 'R' :: c :: rest => some (c :: rest)
    | 'R' :: c :: rest => some (c :: rest)
    | '_' :: '_' :: 'R' :: c :: rest => some (c :: rest)
    | _ => none
  inner.filter fun cs => (cs.headD ' ').isUpper && cs.all fun c => c.toNat < 0x80

def startsPath : List Char → Bool
  | c :: _ => c.isUpper
  | [] => false

def demangle? (symbol : List Char) : Option (String × List Char) := do
  let symbol ← inner? symbol
  let behind ← validate symbol ⟨symbol, 0⟩
  let behind ← if startsPath behind.rest then validate symbol behind else some behind
  let printed := ((path fuel true).run { symbol, cursor := some ⟨symbol, 0⟩, output := some {} }).2
  return ((printed.output.getD {}).result, behind.rest)

end Backtrace.Symbol.V0
