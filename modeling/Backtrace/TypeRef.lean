import Backtrace.Text

/-!
References to the types of a program, as its metadata spells them, and the names of types as they are written in
source: keywords for the basic types, a question mark for nullable values, parentheses for tuples, dots for nesting.
-/
namespace Backtrace

/-! ### References -/

inductive Shape (α : Type)
  | named
  | genericParameter
  | array (element : α) (rank : UInt8)
  | pointer (element : α)
  | byRef (element : α)

structure TypeRef where
  space : Option String := none
  name : String
  arguments : List TypeRef := []
  enclosing : Option TypeRef := none
  shape : Shape TypeRef := .named

namespace TypeRef

def named (name : String) : TypeRef := { name }

def qualified (space name : String) : TypeRef := { space := some space, name }

def genericParameter (name : String) : TypeRef := { name, shape := .genericParameter }

def arrayOf (element : TypeRef) (rank : UInt8) : TypeRef := { name := "", shape := .array element (max rank 1) }

def pointerTo (element : TypeRef) : TypeRef := { name := "", shape := .pointer element }

def byRefTo (element : TypeRef) : TypeRef := { name := "", shape := .byRef element }

def tupleOf (elements : List TypeRef) : TypeRef := { qualified "System" "ValueTuple" with arguments := elements }

def instantiate (type : TypeRef) (arguments : List TypeRef) : TypeRef := { type with arguments }

def nestedIn (type outer : TypeRef) : TypeRef := { type with enclosing := some outer }

/-- A name without the count of generic parameters that some runtimes put behind a backtick. -/
def withoutArity (name : String) : String := String.ofList (Text.before '\x60' name.toList)

def simpleName (type : TypeRef) : String := withoutArity type.name

def isGenerated (type : TypeRef) : Bool := Text.startsWith ['<'] type.name.toList

def isGenericParameter (type : TypeRef) : Bool :=
  match type.shape with
  | .genericParameter => true
  | _ => false

def isNamed (type : TypeRef) : Bool :=
  match type.shape with
  | .named => true
  | _ => false

def spellsTuple (space : Option String) (name : String) (arguments : Nat) : Bool :=
  space = some "System" && withoutArity name = "ValueTuple" && arguments ≠ 0

def spellsNullable (space : Option String) (name : String) (arguments : Nat) : Bool :=
  space = some "System" && withoutArity name = "Nullable" && arguments = 1

def isValueTuple (type : TypeRef) : Bool :=
  type.isNamed && spellsTuple type.space type.name type.arguments.length

def isNullable (type : TypeRef) : Bool :=
  type.isNamed && spellsNullable type.space type.name type.arguments.length

/-- The nearest type around a type, itself included, that the compiler did not make up. -/
def source? : TypeRef → Option TypeRef
  | ⟨space, name, arguments, enclosing, shape⟩ =>
    if Text.startsWith ['<'] name.toList then
      match enclosing with
      | some outer => source? outer
      | none => none
    else some ⟨space, name, arguments, enclosing, shape⟩

end TypeRef

/-! ### Names -/

namespace TypeRef

def keywords : List (String × String) :=
  [("Void", "void"), ("Boolean", "bool"), ("Byte", "byte"), ("SByte", "sbyte"), ("Char", "char"),
    ("Decimal", "decimal"), ("Double", "double"), ("Single", "float"), ("Int16", "short"), ("Int32", "int"),
    ("Int64", "long"), ("UInt16", "ushort"), ("UInt32", "uint"), ("UInt64", "ulong"), ("Object", "object"),
    ("String", "string")]

def keyword? (space : Option String) (name : String) (nested : Bool) : Option String :=
  if space = some "System" && !nested then keywords.lookup (withoutArity name) else none

def angled? : List String → Option String
  | [] => none
  | names => some ("<" ++ ", ".intercalate names ++ ">")

/-- What stands in front of a name: the type around it and a dot, or else, where the full name is
asked for, the namespace and a dot. -/
def qualifier (full : Bool) (space : Option String) : (outer : Option String) → String
  | some outer => outer ++ "."
  | none =>
    match full, space with
    | true, some space => if space = "" then "" else space ++ "."
    | _, _ => ""

def brackets (rank : UInt8) : String := "[" ++ String.ofList (List.replicate (rank.toNat - 1) ',') ++ "]"

def displayNamed (full : Bool) (space : Option String) (name : String) (arguments : List String)
    (outer : Option String) : String :=
  match keyword? space name outer.isSome with
  | some keyword => keyword
  | none =>
    if spellsNullable space name arguments.length then arguments.headD "" ++ "?"
    else if spellsTuple space name arguments.length then "(" ++ ", ".intercalate arguments ++ ")"
    else qualifier full space outer ++ withoutArity name ++ (angled? arguments).getD ""

mutual
def display (full : Bool) : TypeRef → String
  | ⟨space, name, arguments, enclosing, shape⟩ =>
    match shape with
    | .genericParameter => withoutArity name
    | .byRef element => display full element
    | .pointer element => display full element ++ "*"
    | .array element rank => display full element ++ brackets rank
    | .named => displayNamed full space name (displayEach arguments) (displayOuter full enclosing)

def displayEach : List TypeRef → List String
  | [] => []
  | type :: types => display false type :: displayEach types

def displayOuter (full : Bool) : Option TypeRef → Option String
  | none => none
  | some outer => some (display full outer)
end

def displayBare (full : Bool) (type : TypeRef) : String :=
  qualifier full type.space (displayOuter full type.enclosing) ++ type.simpleName

def displayArguments? (types : List TypeRef) : Option String := angled? (displayEach types)

theorem displayEach_eq_map (types : List TypeRef) : displayEach types = types.map (display false) := by
  induction types with
  | nil => rfl
  | cons type types ih => rw [displayEach, ih, List.map_cons]

theorem displayOuter_eq_map (full : Bool) (outer : Option TypeRef) :
    displayOuter full outer = outer.map (display full) := by
  cases outer <;> rfl

end TypeRef

end Backtrace
