/-
  ImpFront.Position
  ─────────────────
  **PLACES IN A SOURCE TEXT.**

  A place is named twice: by its distance from the start in bytes of UTF-8,
  which orders the tokens of a file, and by line and column, which a reader
  of a report looks up.  Lines and columns count from 1 and in characters.
-/

namespace ImpFront

/-- A place in a source text. -/
structure Position where
  /-- Bytes before the place. -/
  offset : Nat
  /-- The number of the line, from 1. -/
  line : Nat
  /-- The number of the character in its line, from 1. -/
  column : Nat
  deriving Repr, DecidableEq, Inhabited

namespace Position

/-- The first place of a text. -/
def start : Position := ⟨0, 1, 1⟩

/-- The place after the character `c`. -/
def after (p : Position) (c : Char) : Position :=
  if c = '\n' then ⟨p.offset + c.utf8Size, p.line + 1, 1⟩
  else ⟨p.offset + c.utf8Size, p.line, p.column + 1⟩

/-- The place after a run of characters. -/
def afterAll (p : Position) (cs : List Char) : Position :=
  cs.foldl after p

@[simp] theorem afterAll_nil (p : Position) : p.afterAll [] = p := rfl

@[simp] theorem afterAll_cons (p : Position) (c : Char) (cs : List Char) :
    p.afterAll (c :: cs) = (p.after c).afterAll cs := rfl

theorem afterAll_append (p : Position) (cs ds : List Char) :
    p.afterAll (cs ++ ds) = (p.afterAll cs).afterAll ds :=
  List.foldl_append

end Position

end ImpFront
