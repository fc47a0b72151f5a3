/-
  ImpFront.Proofs.Tree.Printing
  ─────────────────────────────
  **TREES WRITTEN OUT AS TOKENS.**

  A tree is printed with the tokens that it holds, and with signs between
  them that it does not hold.  Each operand is put in parentheses, and so is
  an expression that stands for itself as a statement or behind an attribute:

      l op r       ↦   ( l ) op ( r )         f, [a, b]    ↦   f ( a , b )
      if c b₁ b₂   ↦   if c { b₁ } else { b₂ }

  Arguments and parameters are separated by a comma, and statements by one
  line end.  A tree is `Formed` if the tokens that it holds are of the kinds
  that belong to their places.  A compound assignment is not, since its
  operator is not the one that its token writes.
-/
import ImpFront.Grammar.Rules
import ImpFront.Proofs.Tree.Mentions

namespace ImpFront

open Grammar (standardPrecedence? standardOperand? standardStatement?)

/-! ## §1. Signs. -/

namespace Kind

/-- The text of the tokens that a tree leaves out. -/
def text : Kind → String
  | .newline => "\n"
  | .arrow => "->"
  | .assign => "="
  | .openParen => "("
  | .closeParen => ")"
  | .openCurly => "\x7b"
  | .closeCurly => "\x7d"
  | .comma => ","
  | .colon => ":"
  | .kwIf => "if"
  | .kwElse => "else"
  | .kwWhile => "while"
  | .kwVar => "var"
  | _ => ""

/-- A token of this kind that no tree holds. -/
def sign (kind : Kind) : Token :=
  ⟨kind, kind.text, ⟨0, 0, 0⟩⟩

@[simp] theorem kind_sign (kind : Kind) : kind.sign.kind = kind := rfl

end Kind

/-- Tokens in parentheses. -/
def inParens (tokens : List Token) : List Token :=
  Kind.openParen.sign :: (tokens ++ [Kind.closeParen.sign])

/-- Tokens in braces. -/
def inBraces (tokens : List Token) : List Token :=
  Kind.openCurly.sign :: (tokens ++ [Kind.closeCurly.sign])

/-- A sign in front of the elements that follow, if any follow. -/
def separator {α : Type} (kind : Kind) : List α → List Token
  | [] => []
  | _ :: _ => [kind.sign]

@[simp] theorem inParens_append (tokens rest : List Token) :
    inParens tokens ++ rest
      = Kind.openParen.sign :: (tokens ++ Kind.closeParen.sign :: rest) := by
  simp [inParens]

@[simp] theorem inBraces_append (tokens rest : List Token) :
    inBraces tokens ++ rest
      = Kind.openCurly.sign :: (tokens ++ Kind.closeCurly.sign :: rest) := by
  simp [inBraces]

/-! ## §2. Printing. -/

namespace Expr

mutual

/-- An expression as tokens. -/
def print : Expr → List Token
  | .binary _ token left right _ => inParens left.print ++ token :: inParens right.print
  | .unary _ token operand _ => token :: inParens operand.print
  | .call name arguments _ => name :: Kind.openParen.sign :: printArguments arguments
  | .literal token _ => [token]
  | .reference name _ => [name]

/-- The arguments of a call as tokens, with the closing parenthesis. -/
def printArguments : List Expr → List Token
  | [] => [Kind.closeParen.sign]
  | e :: rest => e.print ++ (separator .comma rest ++ printArguments rest)

end

end Expr

/-- A parameter as tokens: its name, if it has one, and its type. -/
def Parameter.print (parameter : Parameter) : List Token :=
  match parameter.name with
  | none => [parameter.type]
  | some name => [name, Kind.colon.sign, parameter.type]

/-- The parameters of a function as tokens, with the closing parenthesis. -/
def printParameters : List Parameter → List Token
  | [] => [Kind.closeParen.sign]
  | parameter :: rest => parameter.print ++ (separator .comma rest ++ printParameters rest)

/-- A return type as tokens. -/
def printReturns : Option Token → List Token
  | none => []
  | some type => [Kind.arrow.sign, type]

/-- A signature as tokens. -/
def Signature.print (signature : Signature) : List Token :=
  signature.keyword :: signature.name :: Kind.openParen.sign
    :: (printParameters signature.parameters ++ printReturns signature.returns)

/-- An attribute as tokens. -/
def Attribute.print (attached : Attribute) : List Token :=
  match attached.value with
  | none => [attached.token]
  | some (.expression value) => attached.token :: inParens value.print
  | some (.imported signature) => signature.print

mutual

/-- A statement as tokens. -/
def Stmt.print : Stmt → List Token
  | .function signature body => signature.print ++ inBraces (printAll body)
  | .declare name type none => [Kind.kwVar.sign, name, Kind.colon.sign, type]
  | .declare name type (some value) =>
    Kind.kwVar.sign :: name :: Kind.colon.sign :: type :: Kind.assign.sign :: value.print
  | .conditional condition body otherwise =>
    Kind.kwIf.sign :: (condition.print ++ (inBraces (printAll body) ++ otherwise.print))
  | .repeatWhile condition body =>
    Kind.kwWhile.sign :: (condition.print ++ inBraces (printAll body))
  | .leaveLoop keyword | .nextRound keyword => [keyword]
  | .giveBack keyword value => keyword :: value.print
  | .assign name value => name :: Kind.assign.sign :: value.print
  | .attribute attached => attached.print
  | .expression value => inParens value.print

/-- The rest of a chain of conditions as tokens. -/
def Otherwise.print : Otherwise → List Token
  | .nothing => []
  | .block body => Kind.kwElse.sign :: inBraces (printAll body)
  | .chain condition body otherwise =>
    Kind.kwElse.sign :: Kind.kwIf.sign
      :: (condition.print ++ (inBraces (printAll body) ++ otherwise.print))

/-- Some statements as tokens. -/
def printAll : List Stmt → List Token
  | [] => []
  | s :: rest => s.print ++ (separator .newline rest ++ printAll rest)

end

/-- **A file as tokens:** its attributes, its statements, and the end. -/
def Program.print (program : Program) : List Token :=
  printAll program.clauses ++ [Kind.eof.sign]

/-! ## §3. Trees of the right tokens. -/

namespace Expr

/-- The token of one expression is of the kind that belongs there. -/
def Fitting : Expr → Prop
  | .binary operator token _ _ _ =>
    operator = token.kind ∧ (standardPrecedence? token.kind).isSome
  | .unary operator token _ _ =>
    operator = token.kind ∧ standardOperand? token.kind = some .unary
  | .call name _ _ | .reference name _ => name.kind = .identifier
  | .literal token _ => (BaseType.ofLiteral? token.kind).isSome

/-- The tokens in an expression are of the right kinds. -/
def Formed (e : Expr) : Prop :=
  ∀ node ∈ e.nodes, node.Fitting

end Expr

/-- A parameter of a function with a body: a name and a type. -/
def Parameter.Named (parameter : Parameter) : Prop :=
  (∃ name, parameter.name = some name ∧ name.kind = .identifier)
    ∧ parameter.type.kind = .identifier

/-- A parameter of an imported function: a built-in type. -/
def Parameter.Builtin (parameter : Parameter) : Prop :=
  parameter.name = none ∧ parameter.type.kind = .identifier
    ∧ (DeclaredType.builtin? parameter.type.value).isSome

/-- The tokens behind the keyword of a signature are of the right kinds. -/
structure Signature.Formed (form : Parameter → Prop) (signature : Signature) : Prop where
  name : signature.name.kind = .identifier
  parameters : ∀ parameter ∈ signature.parameters, form parameter
  returns : ∀ type, signature.returns = some type → type.kind = .identifier

/-- The tokens in an attribute are of the right kinds, and the parameters of
an imported function are built-in types. -/
def Attribute.Formed (attached : Attribute) : Prop :=
  attached.token.kind = .attribute ∧
    match attached.value with
    | none => True
    | some (.expression value) => value.Formed
    | some (.imported signature) =>
      signature.keyword = attached.token ∧ attached.token.value = Token.importAttribute
        ∧ signature.Formed Parameter.Builtin

mutual

/-- The tokens in a statement are of the right kinds.  There is no attribute
in it, and no function `inside` a function. -/
def Stmt.Formed (inside : Bool) : Stmt → Prop
  | .function signature body =>
    inside = false ∧ signature.keyword.kind = .kwFunc ∧ signature.Formed Parameter.Named
      ∧ FormedAll true body
  | .declare name type none => name.kind = .identifier ∧ type.kind = .identifier
  | .declare name type (some value) =>
    name.kind = .identifier ∧ type.kind = .identifier ∧ value.Formed
  | .conditional condition body otherwise =>
    condition.Formed ∧ FormedAll inside body ∧ otherwise.Formed inside
  | .repeatWhile condition body => condition.Formed ∧ FormedAll inside body
  | .leaveLoop keyword => keyword.kind = .kwBreak
  | .nextRound keyword => keyword.kind = .kwContinue
  | .giveBack keyword value => keyword.kind = .kwReturn ∧ value.Formed
  | .assign name value => name.kind = .identifier ∧ value.Formed
  | .attribute _ => False
  | .expression value => value.Formed

/-- The tokens in the rest of a chain of conditions are of the right kinds. -/
def Otherwise.Formed (inside : Bool) : Otherwise → Prop
  | .nothing => True
  | .block body => FormedAll inside body
  | .chain condition body otherwise =>
    condition.Formed ∧ FormedAll inside body ∧ otherwise.Formed inside

/-- The tokens in some statements are of the right kinds. -/
def FormedAll (inside : Bool) : List Stmt → Prop
  | [] => True
  | s :: rest => s.Formed inside ∧ FormedAll inside rest

end

/-- The tokens in a statement of a file, which may be an attribute, are of the
right kinds. -/
def Stmt.FormedOutside : Stmt → Prop
  | .attribute attached => attached.Formed
  | s => s.Formed false

/-- **The tokens in a file are of the right kinds,** attributes stand in front
of it only, and no function is in another one. -/
structure Program.Formed (program : Program) : Prop where
  attributes : ∀ attached ∈ program.attributes, attached.Formed
  statements : ∀ s ∈ program.statements, s.Formed false

/-! ## §4. What a tree begins with. -/

theorem Expr.formed_self {e : Expr} (h : e.Formed) : e.Fitting :=
  h e e.mem_nodes_self

theorem Kind.standardOperand?_of_literal {kind : Kind} (h : (BaseType.ofLiteral? kind).isSome) :
    standardOperand? kind = some .literal := by
  cases kind <;> first | contradiction | rfl

/-- The first token of an expression begins an operand. -/
theorem Expr.print_eq_cons {e : Expr} (h : e.Formed) :
    ∃ token rest, e.print = token :: rest ∧ (standardOperand? token.kind).isSome := by
  have fitting := e.formed_self h
  cases e with
  | binary operator token left right type => exact ⟨_, _, inParens_append .., rfl⟩
  | unary operator token operand type => exact ⟨_, _, rfl, by rw [fitting.2]; rfl⟩
  | call name arguments returns =>
      have fitting : name.kind = .identifier := fitting
      exact ⟨_, _, rfl, by rw [fitting]; rfl⟩
  | literal token type =>
      exact ⟨_, _, rfl, by rw [Kind.standardOperand?_of_literal fitting]; rfl⟩
  | reference name type =>
      have fitting : name.kind = .identifier := fitting
      exact ⟨_, _, rfl, by rw [fitting]; rfl⟩

/-- Some tokens begin with one that begins a statement. -/
def StartsStatement (tokens : List Token) : Prop :=
  ∃ token rest, tokens = token :: rest ∧ (standardStatement? token.kind).isSome

theorem Kind.isTerminator_of_standardStatement? {kind : Kind}
    (h : (standardStatement? kind).isSome) : kind.isTerminator = false := by
  cases kind <;> first | rfl | cases h

theorem Stmt.startsStatement {s : Stmt} {inside : Bool} (h : s.Formed inside) :
    StartsStatement s.print := by
  cases s with
  | function signature body =>
      obtain ⟨-, keyword, -, -⟩ := h
      exact ⟨_, _, rfl, by rw [keyword]; rfl⟩
  | declare name type value => cases value <;> exact ⟨_, _, rfl, rfl⟩
  | conditional condition body otherwise => exact ⟨_, _, rfl, rfl⟩
  | repeatWhile condition body => exact ⟨_, _, rfl, rfl⟩
  | leaveLoop keyword =>
      have h : keyword.kind = .kwBreak := h
      exact ⟨_, _, rfl, by rw [h]; rfl⟩
  | nextRound keyword =>
      have h : keyword.kind = .kwContinue := h
      exact ⟨_, _, rfl, by rw [h]; rfl⟩
  | giveBack keyword value => exact ⟨_, _, rfl, by rw [h.1]; rfl⟩
  | assign name value => exact ⟨_, _, rfl, by rw [h.1]; rfl⟩
  | «attribute» attached => cases h
  | expression value => exact ⟨_, _, rfl, rfl⟩

theorem Attribute.startsStatement {attached : Attribute} (h : attached.Formed) :
    StartsStatement attached.print := by
  obtain ⟨kind, value⟩ := h
  have first : (standardStatement? attached.token.kind).isSome := by
    rw [kind]
    rfl
  obtain ⟨token, found⟩ := attached
  match found, value with
  | none, _ => exact ⟨_, _, rfl, first⟩
  | some (.expression _), _ => exact ⟨_, _, rfl, first⟩
  | some (.imported _), ⟨same, _⟩ => exact ⟨_, _, rfl, same ▸ first⟩

theorem Stmt.startsStatement_outside {s : Stmt} (h : s.FormedOutside) :
    StartsStatement s.print := by
  cases s with
  | «attribute» attached => exact Attribute.startsStatement h
  | _ => exact Stmt.startsStatement (show Stmt.Formed false _ from h)

theorem startsStatement_all {ss : List Stmt} {inside : Bool} (h : FormedAll inside ss) :
    ∀ s ∈ ss, StartsStatement s.print := by
  induction ss with
  | nil => exact List.forall_mem_nil _
  | cons s more ih => exact List.forall_mem_cons.2 ⟨Stmt.startsStatement h.1, ih h.2⟩

/-- Printed statements begin with no separator, if what follows them does not
either. -/
theorem isTerminator_head?_printAll {ss : List Stmt} {last : List Token}
    (h : ∀ s ∈ ss, StartsStatement s.print)
    (stop : ∀ token, last.head? = some token → token.kind.isTerminator = false) {token : Token}
    (ht : (printAll ss ++ last).head? = some token) : token.kind.isTerminator = false := by
  cases ss with
  | nil => exact stop token ht
  | cons s more =>
      obtain ⟨first, rest, same, start⟩ := h s List.mem_cons_self
      rw [printAll, same] at ht
      obtain rfl := Option.some.inj ht
      exact Kind.isTerminator_of_standardStatement? start

/-- A file is made of statements that may stand in one. -/
theorem Program.Formed.clauses {program : Program} (h : program.Formed) :
    ∀ s ∈ program.clauses, s.FormedOutside := by
  intro s hm
  rcases List.mem_append.1 hm with hm | hm
  · obtain ⟨attached, ha, rfl⟩ := List.mem_map.1 hm
    exact h.attributes attached ha
  · have formed := h.statements s hm
    cases s with
    | «attribute» attached => cases formed
    | _ => exact formed

end ImpFront
