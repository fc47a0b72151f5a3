/-
  ImpFront.Typing
  ───────────────
  **TYPES.**

  A declared type is a name as a program writes it.  Behind it stands a base
  type, which is what expressions carry and what checks compare:

      u8 … u64, i8 … i64  ↦  integer        bool  ↦  boolean
      f32, f64            ↦  float          char  ↦  char
      any other name      ↦  unresolved     str   ↦  string

  A name that is not built in is left unresolved, and is equal to itself
  only.
-/
import ImpFront.Text.Numeral
import ImpFront.Token.Basic

namespace ImpFront

/-! ## §1. Base types. -/

/-- The type of a value, as far as checks tell values apart. -/
inductive BaseType where
  | integer | float | boolean | char | string | null | function
  /-- A type name that is not built in. -/
  | unresolved (name : String)
  deriving Repr, DecidableEq

namespace BaseType

/-- The name of a base type in reports. -/
def name : BaseType → String
  | .integer => "Integer"
  | .float => "Float"
  | .boolean => "Boolean"
  | .char => "Char"
  | .string => "String"
  | .null => "Null"
  | .function => "Function"
  | .unresolved name => name

/-- Arithmetic takes values of the type. -/
def isNumeric : BaseType → Bool
  | .integer | .float => true
  | _ => false

/-- The type of a literal of this kind. -/
def ofLiteral? : Kind → Option BaseType
  | .integer => some .integer
  | .float => some .float
  | .string => some .string
  | .char => some .char
  | .boolean => some .boolean
  | .null => some .null
  | _ => none

/-- The type of a binary operation, whatever its operator: numbers give a
float unless both are integers, two strings give a string, and nothing else
goes together. -/
def binary? : BaseType → BaseType → Option BaseType
  | .integer, .integer => some .integer
  | .string, .string => some .string
  | left, right => if left.isNumeric && right.isNumeric then some .float else none

/-- The type of a unary operation: that of its operand, which is a number. -/
def unary? (operand : BaseType) : Option BaseType :=
  if operand.isNumeric then some operand else none

/-- The name of the type of a value that may have none. -/
def describe : Option BaseType → String
  | some type => type.name
  | none => "None"

theorem binary?_comm (left right : BaseType) : binary? left right = binary? right left := by
  cases left <;> cases right <;> rfl

end BaseType

/-! ## §2. Declared types. -/

/-- The width of an integer type: 8, 16, 32 or 64 bits. -/
inductive Width where
  | w8 | w16 | w32 | w64
  deriving Repr, DecidableEq

namespace Width

/-- The number of values that fit into the width. -/
def values : Width → Int
  | .w8 => 256
  | .w16 => 65536
  | .w32 => 4294967296
  | .w64 => 18446744073709551616

end Width

/-- A type as a program names it. -/
inductive DeclaredType where
  /-- Integers from zero up. -/
  | unsigned (width : Width)
  /-- Integers on both sides of zero. -/
  | signed (width : Width)
  /-- Floating point in 32 bits. -/
  | single
  /-- Floating point in 64 bits. -/
  | double
  | bool | char | str
  /-- A name that is not built in. -/
  | named (name : String)
  deriving Repr, DecidableEq

namespace DeclaredType

/-- The built-in type of a name. -/
def builtin? : String → Option DeclaredType
  | "u8" => some (.unsigned .w8)
  | "u16" => some (.unsigned .w16)
  | "u32" => some (.unsigned .w32)
  | "u64" => some (.unsigned .w64)
  | "i8" => some (.signed .w8)
  | "i16" => some (.signed .w16)
  | "i32" => some (.signed .w32)
  | "i64" => some (.signed .w64)
  | "f32" => some .single
  | "f64" => some .double
  | "bool" => some .bool
  | "char" => some .char
  | "str" => some .str
  | _ => none

/-- The type of a name, built in or not. -/
def ofName (name : String) : DeclaredType :=
  (builtin? name).getD (.named name)

/-- The name of a type. -/
def name : DeclaredType → String
  | .unsigned .w8 => "u8"
  | .unsigned .w16 => "u16"
  | .unsigned .w32 => "u32"
  | .unsigned .w64 => "u64"
  | .signed .w8 => "i8"
  | .signed .w16 => "i16"
  | .signed .w32 => "i32"
  | .signed .w64 => "i64"
  | .single => "f32"
  | .double => "f64"
  | .bool => "bool"
  | .char => "char"
  | .str => "str"
  | .named name => name

/-- The base type behind a type. -/
def base : DeclaredType → BaseType
  | .unsigned _ | .signed _ => .integer
  | .single | .double => .float
  | .bool => .boolean
  | .char => .char
  | .str => .string
  | .named name => .unresolved name

/-- The least and the largest value of an integer type. -/
def bounds? : DeclaredType → Option (Int × Int)
  | .unsigned width => some (0, width.values - 1)
  | .signed width => some (-(width.values / 2), width.values / 2 - 1)
  | _ => none

/-- The integer lies outside the range of the type. -/
def excludes (type : DeclaredType) (value : Int) : Bool :=
  match type.bounds? with
  | some (least, largest) => value < least || largest < value
  | none => false

/-- The largest finite value of a floating-point type, in its shortest form
that reads back. -/
def largestText? : DeclaredType → Option String
  | .single => some "3.4028234663852886e38"
  | .double => some "1.7976931348623157e308"
  | _ => none

/-- The decimal is beyond the largest finite value of the type, once it has
been rounded to 64 bits with ties to even.  The largest `f32` is even there,
so that half a step above it still rounds down to it; the largest `f64` is
odd, so that half a step above it rounds up and away.  A text that is no
decimal counts as infinite. -/
def overflowsAt (type : DeclaredType) (value : Option Text.Decimal) : Bool :=
  let value := value.getD (.infinite false)
  match type with
  | .single =>
    value.compareTo? (Nat.pow 2 128 - Nat.pow 2 104 + Nat.pow 2 74) == some .gt
  | .double => (value.compareTo? (Nat.pow 2 1024 - Nat.pow 2 970)).any Ordering.isGE
  | _ => false

end DeclaredType

/-! ## §4. Types of declarations. -/

/-- The base type of a type name. -/
def BaseType.ofName (name : String) : BaseType :=
  (DeclaredType.ofName name).base

/-- The base type that a declaring token gives to its name: a function for
the keyword of a function and for an importing attribute, and otherwise the
type that the token names. -/
def BaseType.ofDeclaration (token : Token) : BaseType :=
  match token.kind with
  | .kwFunc | .attribute => .function
  | _ => .ofName token.value

end ImpFront
