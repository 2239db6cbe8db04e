import Backtrace.Text
import Backtrace.Json.Node

/-! Writing a tree as compact JSON. Each writer puts its text in front of what is written already. -/
namespace Backtrace.Json

def escape (c : Char) : List Char :=
  if c = '"' then ['\\', '"']
  else if c = '\\' then ['\\', '\\']
  else if c = '\x08' then ['\\', 'b']
  else if c = '\t' then ['\\', 't']
  else if c = '\n' then ['\\', 'n']
  else if c = '\x0c' then ['\\', 'f']
  else if c = '\r' then ['\\', 'r']
  else if c.toNat < 0x20 then '\\' :: 'u' :: Text.hexPadded 4 c.toNat
  else [c]

def writeString (text : String) (rest : List Char) : List Char :=
  '"' :: (text.toList.flatMap escape ++ '"' :: rest)

def writeNumber : Number → List Char
  | .natural n => Nat.toDigits 10 n
  | .other text => text.toList
  | .huge text => text.toList

mutual
def Node.writeTo : Node → List Char → List Char
  | .null, rest => "null".toList ++ rest
  | .bool true, rest => "true".toList ++ rest
  | .bool false, rest => "false".toList ++ rest
  | .number n, rest => writeNumber n ++ rest
  | .string text, rest => writeString (text.getD "") rest
  | .array items _, rest => '[' :: writeItems items true (']' :: rest)
  | .object members _, rest => '\x7b' :: writeMembers members true ('\x7d' :: rest)
  | .bad _, rest => rest

def writeItems : List Node → (first : Bool) → List Char → List Char
  | [], _, rest => rest
  | item :: items, true, rest => item.writeTo (writeItems items false rest)
  | item :: items, false, rest => ',' :: item.writeTo (writeItems items false rest)

def writeMembers : List (Option String × Node) → (first : Bool) → List Char → List Char
  | [], _, rest => rest
  | (key, value) :: members, true, rest =>
    writeString (key.getD "") (':' :: value.writeTo (writeMembers members false rest))
  | (key, value) :: members, false, rest =>
    ',' :: writeString (key.getD "") (':' :: value.writeTo (writeMembers members false rest))
end

def Node.write (node : Node) : String := String.ofList (node.writeTo [])

end Backtrace.Json
