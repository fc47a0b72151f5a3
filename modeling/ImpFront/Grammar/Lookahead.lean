/-
  ImpFront.Grammar.Lookahead
  ──────────────────────────
  **CALLS BEFORE THE DEFINITION.**

  A function may be called before it is declared.  The type of such a call is
  read from the declaration further down, which at that time is no more than
  a run of tokens: a name between an announcing token and a parenthesis, and
  behind the parenthesis that closes it perhaps an arrow and a type.
-/
import ImpFront.Grammar.Cursor
import ImpFront.Typing

namespace ImpFront

/-! ## §1. One declaration. -/

/-- The token announces the declaration of a function. -/
def Token.announcesFunction (token : Token) : Bool :=
  token.kind == .kwFunc || (token.kind == .attribute && token.value == Token.importAttribute)

/-- The type behind the first closing parenthesis, if an arrow stands there.
The token behind the arrow is taken by its text, whatever its kind. -/
def typeBehindParameters? (tokens : List Token) : Option BaseType :=
  match tokens.dropWhile fun token => token.kind ≠ .closeParen with
  | _ :: arrow :: type :: _ =>
    if arrow.kind = .arrow then some (.ofName type.value) else none
  | _ => none

/-! ## §2. The next declaration. -/

/-- The return type of the next declaration of a function, read from the bare
tokens.  `previous` is the token in front of them; a declaration is a name
between an announcing token and an opening parenthesis. -/
def returnTypeAhead? (name : String) (previous : Option Token) : List Token → Option BaseType
  | [] => none
  | token :: rest =>
    if previous.any Token.announcesFunction && token.kind == .identifier
        && token.value == name && rest.head?.any (fun next => next.kind == .openParen) then
      typeBehindParameters? rest
    else returnTypeAhead? name (some token) rest

/-- The return type of the next declaration of a function from the cursor on. -/
def Cursor.returnTypeAhead? (c : Cursor) (name : String) : Option BaseType :=
  ImpFront.returnTypeAhead? name c.behind.head? (c.ahead ++ [c.final])

end ImpFront
