/-
  ImpFront.Tree.Outline
  ─────────────────────
  **TREES WRITTEN OUT.**

  An outline is a nest of groups.  Each item of a group stands on a line of
  its own, four columns further in, and ends with a comma; an empty group
  closes where it opens.

      Some(
          1,
      )

  Every part of a tree has an outline that names all its parts, in the order
  in which they are held.
-/
import ImpFront.Tree.Basic

namespace ImpFront

/-! ## §1. Outlines. -/

/-- A nest of groups. -/
inductive Outline where
  /-- A text on one line. -/
  | leaf (text : String)
  /-- An item with a name in front of it. -/
  | labelled (label : String) (item : Outline)
  /-- Items between two marks. -/
  | group (opening closing : String) (items : List Outline)

namespace Outline

/-- The blanks in front of a line at a depth. -/
def indentation (depth : Nat) : String :=
  String.ofList (List.replicate (4 * depth) ' ')

mutual

/-- The outline as text.  The first line is not indented, so that a label can
stand in front of it. -/
def render (depth : Nat) : Outline → String
  | .leaf text => text
  | .labelled label item => label ++ ": " ++ render depth item
  | .group opening closing [] => opening ++ closing
  | .group opening closing (item :: items) =>
    opening ++ "\n" ++ renderItems (depth + 1) (item :: items) ++ indentation depth ++ closing

/-- The items of a group, one under the other. -/
def renderItems (depth : Nat) : List Outline → String
  | [] => ""
  | item :: items =>
    indentation depth ++ render depth item ++ ",\n" ++ renderItems depth items

end

/-- A value with named parts. -/
def record (name : String) (parts : List (String × Outline)) : Outline :=
  .group (name ++ " \x7b") "\x7d" (parts.map fun part => .labelled part.1 part.2)

/-- One of several alternatives, with what it holds. -/
def variant (name : String) (item : Outline) : Outline :=
  .group (name ++ "(") ")" [item]

/-- A list. -/
def list (items : List Outline) : Outline :=
  .group "[" "]" items

/-- A value that may be missing. -/
def option : Option Outline → Outline
  | none => .leaf "None"
  | some item => variant "Some" item

/-- A number. -/
def number (n : Nat) : Outline :=
  .leaf (toString n)

/-- A text in quotes. -/
def quoted (text : String) : Outline :=
  .leaf (Text.quote text)

end Outline

/-! ## §2. Outlines of tokens and types. -/

open Outline (record variant list option number quoted)

/-- A place as an outline. -/
def Position.outline (position : Position) : Outline :=
  record "Position" [("offset", number position.offset), ("line", number position.line),
    ("column", number position.column)]

/-- A kind as an outline. -/
def Kind.outline (kind : Kind) : Outline :=
  .leaf kind.name

/-- A token as an outline. -/
def Token.outline (token : Token) : Outline :=
  record "Token" [("kind", token.kind.outline), ("value", quoted token.value),
    ("position", token.position.outline)]

/-- A base type as an outline. -/
def BaseType.outline : BaseType → Outline
  | .unresolved name => variant "Unresolved" (quoted name)
  | type => .leaf type.name

/-! ## §3. Outlines of trees. -/

mutual

/-- An expression as an outline. -/
def Expr.outline : Expr → Outline
  | .binary operator token left right type =>
    variant "Binary" (record "BinaryExpr" [("operator", operator.outline),
      ("token", token.outline), ("left", left.outline), ("right", right.outline),
      ("base_type", type.outline)])
  | .unary operator token operand type =>
    variant "Unary" (record "UnaryExpr" [("operator", operator.outline),
      ("token", token.outline), ("operand", operand.outline), ("base_type", type.outline)])
  | .call name arguments returns =>
    variant "Call" (record "CallExpr" [("name", name.outline),
      ("arguments", list (Expr.outlines arguments)),
      ("return_type", option (returns.map BaseType.outline))])
  | .literal token type =>
    variant "Literal" (record "LiteralExpr" [("token", token.outline),
      ("base_type", type.outline)])
  | .reference name type =>
    variant "Variable" (record "VariableExpr" [("name", name.outline),
      ("base_type", type.outline)])

/-- Expressions as outlines. -/
def Expr.outlines : List Expr → List Outline
  | [] => []
  | expr :: rest => expr.outline :: Expr.outlines rest

end

/-- A parameter as an outline. -/
def Parameter.outline (parameter : Parameter) : Outline :=
  record "Parameter" [("name", option (parameter.name.map Token.outline)),
    ("type_token", parameter.type.outline)]

/-- A function as an outline, given that of its body. -/
def Signature.outline (signature : Signature) (body : Option Outline) : Outline :=
  record "FuncDeclStmt" [("keyword", signature.keyword.outline),
    ("name", signature.name.outline),
    ("parameters", list (signature.parameters.map Parameter.outline)),
    ("return_type", option (signature.returns.map Token.outline)),
    ("body", option body)]

/-- The value of an attribute as an outline. -/
def AttributeValue.outline : AttributeValue → Outline
  | .expression value => variant "Expression" value.outline
  | .imported signature => variant "Import" (signature.outline none)

/-- An attribute as an outline. -/
def Attribute.outline (attached : Attribute) : Outline :=
  record "AttributeStmt" [("token", attached.token.outline),
    ("value", option (attached.value.map AttributeValue.outline))]

/-- A body as an outline, given those of its statements. -/
def Outline.block (statements : List Outline) : Outline :=
  record "BlockStmt" [("statements", list statements)]

/-- A condition as an outline, given those of its bodies. -/
def Outline.condition (condition body : Outline) (otherwise : Option Outline) : Outline :=
  record "IfStmt" [("condition", condition), ("body", body), ("else_branch", option otherwise)]

mutual

/-- A statement as an outline. -/
def Stmt.outline : Stmt → Outline
  | .function signature body =>
    variant "FuncDecl" (signature.outline (some (.block (Stmt.outlines body))))
  | .declare name type value =>
    variant "VarDecl" (record "VarDeclStmt" [("name", name.outline),
      ("type_token", type.outline), ("value", option (value.map Expr.outline))])
  | .conditional condition body otherwise =>
    variant "If" (.condition condition.outline (.block (Stmt.outlines body)) otherwise.outline?)
  | .repeatWhile condition body =>
    variant "While" (record "WhileStmt" [("condition", condition.outline),
      ("body", .block (Stmt.outlines body))])
  | .leaveLoop keyword => variant "Break" keyword.outline
  | .nextRound keyword => variant "Continue" keyword.outline
  | .giveBack keyword value =>
    variant "Return" (record "ReturnStmt" [("keyword", keyword.outline),
      ("value", value.outline)])
  | .assign name value =>
    variant "Assignment" (record "AssignmentStmt" [("name", name.outline),
      ("value", value.outline)])
  | .attribute attached => variant "Attribute" attached.outline
  | .expression value => variant "Expression" value.outline

/-- Statements as outlines. -/
def Stmt.outlines : List Stmt → List Outline
  | [] => []
  | stmt :: rest => stmt.outline :: Stmt.outlines rest

/-- The rest of a chain of conditions as an outline. -/
def Otherwise.outline? : Otherwise → Option Outline
  | .nothing => none
  | .block body => some (variant "Block" (.block (Stmt.outlines body)))
  | .chain condition body otherwise =>
    some (variant "If"
      (.condition condition.outline (.block (Stmt.outlines body)) otherwise.outline?))

end

/-- A file as an outline. -/
def Program.outline (program : Program) : Outline :=
  record "Program" [("attributes", list (program.attributes.map Attribute.outline)),
    ("statements", list (program.statements.map Stmt.outline)),
    ("attribute_append_possible", .leaf (toString program.takesAttributes))]

/-- A file written out. -/
def Program.dump (program : Program) : String :=
  program.outline.render 0

end ImpFront
