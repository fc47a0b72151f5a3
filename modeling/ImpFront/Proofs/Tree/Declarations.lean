/-
  ImpFront.Proofs.Tree.Declarations
  ─────────────────────────────────
  **THE VARIABLES THAT A TREE DECLARES, AND INTEGERS THAT DO NOT FIT THEM.**

  A variable of a sized integer type may be given an integer literal, bare or
  behind a minus sign, that is out of the range of the type.  Which ones are,
  is said here of the tree alone, with the value that the digits have:

      var a: u8 = 300     ↦   literal 300 is out of range for type 'u8' (0..=255)
      var b: i8 = -128    ↦   nothing

  Nothing here knows of tokens that are read, of words of 128 bits, or of how
  the types of the language are modelled.
-/
import Mathlib
import ImpFront.Proofs.Tree.Mentions

namespace ImpFront

/-! ## §1. Declarations. -/

/-- A variable as it is declared. -/
structure Declaration where
  /-- The name. -/
  name : Token
  /-- The name of the type. -/
  type : Token
  /-- The first value, if there is one. -/
  value : Option Expr

mutual

/-- The variables that a statement declares, in order, however deep. -/
def Stmt.declarations : Stmt → List Declaration
  | .function _ body => declarationsOfAll body
  | .declare name type value => [⟨name, type, value⟩]
  | .conditional _ body otherwise => declarationsOfAll body ++ otherwise.declarations
  | .repeatWhile _ body => declarationsOfAll body
  | .leaveLoop _ | .nextRound _ | .giveBack _ _ | .assign _ _ | .attribute _ | .expression _ => []

/-- The variables that the rest of a chain of conditions declares. -/
def Otherwise.declarations : Otherwise → List Declaration
  | .nothing => []
  | .block body => declarationsOfAll body
  | .chain _ body otherwise => declarationsOfAll body ++ otherwise.declarations

/-- The variables that some statements declare. -/
def declarationsOfAll : List Stmt → List Declaration
  | [] => []
  | s :: rest => s.declarations ++ declarationsOfAll rest

end

/-- The variables that a file declares.  Attributes declare none. -/
def Program.declarations (program : Program) : List Declaration :=
  declarationsOfAll program.statements

/-- The number, or what is as far on the other side of zero. -/
def signed (negative : Bool) (n : Nat) : Int :=
  if negative then -n else n

namespace Declaration

end Declaration

end ImpFront
