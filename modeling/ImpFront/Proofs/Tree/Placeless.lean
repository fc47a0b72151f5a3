/-
  ImpFront.Proofs.Tree.Placeless
  ──────────────────────────────
  **TREES WITHOUT PLACES.**

  Two trees are equal up to places if they are equal once every token in them
  has been moved to the same place.  What the rules ask of a tree depends on
  kinds and texts alone, so it is the same for two such trees:

      e.placeless = e'.placeless  →  e.base? = e'.base?
-/
import ImpFront.Grammar.Statement

namespace ImpFront

/-! ## §1. Tokens. -/

/-- The token, moved to the first place of a text. -/
def Token.placeless (token : Token) : Token :=
  { token with position := .start }

theorem Token.placeless_eq_iff {s t : Token} :
    s.placeless = t.placeless ↔ s.kind = t.kind ∧ s.value = t.value := by
  simp [Token.placeless]

/-! ## §2. Expressions. -/

namespace Expr

mutual

/-- The expression without places. -/
def placeless : Expr → Expr
  | .binary operator token left right type =>
    .binary operator token.placeless left.placeless right.placeless type
  | .unary operator token operand type =>
    .unary operator token.placeless operand.placeless type
  | .call name arguments returns => .call name.placeless (placelessOfAll arguments) returns
  | .literal token type => .literal token.placeless type
  | .reference name type => .reference name.placeless type

/-- Some expressions without places. -/
def placelessOfAll : List Expr → List Expr
  | [] => []
  | e :: rest => e.placeless :: placelessOfAll rest

end

@[simp] theorem base?_placeless (e : Expr) : e.placeless.base? = e.base? := by
  cases e <;> rfl

/-- The name, if the expression is nothing but a name. -/
def name? : Expr → Option Token
  | .reference name _ => some name
  | _ => none

@[simp] theorem name?_placeless (e : Expr) :
    e.placeless.name? = e.name?.map Token.placeless := by
  cases e <;> rfl

variable {e e' : Expr}

theorem base?_congr (h : e.placeless = e'.placeless) : e.base? = e'.base? := by
  rw [← e.base?_placeless, h, base?_placeless]

theorem name?_congr (h : e.placeless = e'.placeless) :
    e.name?.map Token.placeless = e'.name?.map Token.placeless := by
  rw [← e.name?_placeless, h, name?_placeless]

end Expr

namespace Statement

theorem literal?_placeless (e : Expr) :
    literal? e.placeless = (literal? e).map fun found => (found.1, found.2.placeless) := by
  cases e with
  | unary operator token operand type => cases operator <;> cases operand <;> rfl
  | _ => rfl

/-- Whether a literal is out of range, and what is said of it, does not depend
on its place. -/
theorem rangeWarning?_placeless (type : DeclaredType) (value : Expr) :
    (rangeWarning? type value.placeless).map Note.message
      = (rangeWarning? type value).map Note.message := by
  unfold rangeWarning?
  rw [literal?_placeless]
  cases literal? value with
  | none => rfl
  | some found =>
      dsimp only [Option.map_some, Option.bind_eq_bind, Option.bind_some, Token.placeless]
      -- only where it is placed depends on the place
      split
      all_goals
        simp only [apply_ite (Option.map Note.message)]
        rfl

theorem rangeWarning?_congr {value value' : Expr} (type : DeclaredType)
    (h : value.placeless = value'.placeless) :
    (rangeWarning? type value).map Note.message
      = (rangeWarning? type value').map Note.message := by
  rw [← rangeWarning?_placeless, h, rangeWarning?_placeless]

end Statement

/-! ## §3. Declarations. -/

/-- The sort of a binding without places. -/
def SymbolKind.placeless : SymbolKind → SymbolKind
  | .function returnType => .function (returnType.map Token.placeless)
  | .variable => .variable
  | .parameter => .parameter

/-- The binding without places. -/
def Symbol.placeless (symbol : Symbol) : Symbol :=
  ⟨symbol.name.placeless, symbol.declared.placeless, symbol.kind.placeless⟩

namespace Symbol

variable {s s' : Symbol}

theorem key_congr (h : s.placeless = s'.placeless) : s.key = s'.key := by
  show s.placeless.key = s'.placeless.key
  rw [h]

theorem isFunction_congr (h : s.placeless = s'.placeless) : s.isFunction = s'.isFunction := by
  have same (s : Symbol) : s.placeless.isFunction = s.isFunction := by
    cases s with
    | mk name declared kind => cases kind <;> rfl
  rw [← same s, h, same]

theorem declaredBase_congr (h : s.placeless = s'.placeless) :
    s.declaredBase = s'.declaredBase := by
  show s.placeless.declaredBase = s'.placeless.declaredBase
  rw [h]

theorem returnBase?_congr (h : s.placeless = s'.placeless) :
    s.returnBase? = s'.returnBase? := by
  have same (s : Symbol) : s.placeless.returnBase? = s.returnBase? := by
    cases s with
    | mk name declared kind =>
        cases kind with
        | function returnType => cases returnType <;> rfl
        | _ => rfl
  rw [← same s, h, same]

end Symbol

/-- The parameter without places. -/
def Parameter.placeless (parameter : Parameter) : Parameter :=
  ⟨parameter.name.map Token.placeless, parameter.type.placeless⟩

/-- The signature without places. -/
def Signature.placeless (signature : Signature) : Signature :=
  ⟨signature.keyword.placeless, signature.name.placeless,
    signature.parameters.map Parameter.placeless, signature.returns.map Token.placeless⟩

theorem Signature.symbol_placeless (signature : Signature) :
    signature.placeless.symbol = signature.symbol.placeless := rfl

theorem Signature.symbol_congr {signature signature' : Signature}
    (h : signature.placeless = signature'.placeless) :
    signature.symbol.placeless = signature'.symbol.placeless := by
  rw [← symbol_placeless, h, symbol_placeless]

/-- What stands behind an attribute, without places. -/
def AttributeValue.placeless : AttributeValue → AttributeValue
  | .expression value => .expression value.placeless
  | .imported signature => .imported signature.placeless

/-- The attribute without places. -/
def Attribute.placeless (attached : Attribute) : Attribute :=
  ⟨attached.token.placeless, attached.value.map AttributeValue.placeless⟩

/-! ## §4. Statements and files. -/

mutual

/-- The statement without places. -/
def Stmt.placeless : Stmt → Stmt
  | .function signature body => .function signature.placeless (placelessOfAll body)
  | .declare name type value =>
    .declare name.placeless type.placeless (value.map Expr.placeless)
  | .conditional condition body otherwise =>
    .conditional condition.placeless (placelessOfAll body) otherwise.placeless
  | .repeatWhile condition body => .repeatWhile condition.placeless (placelessOfAll body)
  | .leaveLoop keyword => .leaveLoop keyword.placeless
  | .nextRound keyword => .nextRound keyword.placeless
  | .giveBack keyword value => .giveBack keyword.placeless value.placeless
  | .assign name value => .assign name.placeless value.placeless
  | .attribute attached => .attribute attached.placeless
  | .expression value => .expression value.placeless

/-- The rest of a chain without places. -/
def Otherwise.placeless : Otherwise → Otherwise
  | .nothing => .nothing
  | .block body => .block (placelessOfAll body)
  | .chain condition body otherwise =>
    .chain condition.placeless (placelessOfAll body) otherwise.placeless

/-- Some statements without places. -/
def placelessOfAll : List Stmt → List Stmt
  | [] => []
  | s :: rest => s.placeless :: placelessOfAll rest

end

theorem placelessOfAll_append (before behind : List Stmt) :
    placelessOfAll (before ++ behind) = placelessOfAll before ++ placelessOfAll behind := by
  induction before with
  | nil => rfl
  | cons s rest ih =>
      show s.placeless :: placelessOfAll (rest ++ behind) = _
      rw [ih]
      rfl

/-- The attribute that a statement is. -/
def Stmt.attached? : Stmt → Option Attribute
  | .attribute attached => some attached
  | _ => none

theorem Stmt.attached?_placeless (s : Stmt) :
    s.placeless.attached? = s.attached?.map Attribute.placeless := by
  cases s <;> rfl

theorem Stmt.attached?_congr {s s' : Stmt} (h : s.placeless = s'.placeless) :
    s.attached?.map Attribute.placeless = s'.attached?.map Attribute.placeless := by
  rw [← s.attached?_placeless, h, attached?_placeless]

namespace Program

/-- The file without places. -/
def placeless (program : Program) : Program :=
  ⟨program.attributes.map Attribute.placeless, placelessOfAll program.statements⟩

theorem takesAttributes_placeless (program : Program) :
    program.placeless.takesAttributes = program.takesAttributes := by
  cases program with
  | mk attributes statements => cases statements <;> rfl

theorem takesAttributes_congr {program program' : Program}
    (h : program.placeless = program'.placeless) :
    program.takesAttributes = program'.takesAttributes := by
  rw [← takesAttributes_placeless, h, takesAttributes_placeless]

/-- What is added to a file. -/
theorem append_eq (program : Program) (s : Stmt) :
    program.append s = match s.attached? with
      | some attached =>
        if program.takesAttributes then
          .ok { program with attributes := program.attributes ++ [attached] }
        else .error (.blame .attributeOrder attached.token)
      | none => .ok { program with statements := program.statements ++ [s] } := by
  cases s <;> rfl

end Program

end ImpFront
