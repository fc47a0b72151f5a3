/-
  ImpFront.Token.Scanner
  ──────────────────────
  **CUTTING A TEXT INTO TOKENS.**

  A scanner is what is left of a normalized text together with the place it
  starts at.  `next` passes over what only separates and returns the next
  token or the next unreadable character; `items` repeats that to the end.

      next s = (some item, s')  →  s'.rest.length < s.rest.length

  `tokenize` returns the tokens of a text with an end token behind them, or,
  if any character is unreadable, one error for each of those.
-/
import ImpFront.Error
import ImpFront.Text.Lines
import ImpFront.Token.Lexeme

namespace ImpFront

/-! ## §1. The scanner. -/

/-- What is found in a text. -/
inductive Item where
  /-- A token. -/
  | token (found : Token)
  /-- A character that begins no token. -/
  | stray (character : Char) (position : Position)
  deriving Repr, DecidableEq

/-- The unread part of a text and its place. -/
structure Scanner where
  /-- What is left to read. -/
  rest : List Char
  /-- Where it starts. -/
  position : Position
  deriving Repr, DecidableEq

namespace Scanner

/-- The scanner before the first character of the normalized text. -/
def ofText (source : String) : Scanner :=
  ⟨Text.normalize source.toList, .start⟩

/-- The scanner after `n` more characters. -/
def advance (s : Scanner) (n : Nat) : Scanner :=
  ⟨s.rest.drop n, s.position.afterAll (s.rest.take n)⟩

/-- Nothing is left to read. -/
def atEnd (s : Scanner) : Bool :=
  s.rest.isEmpty

/-- The number of bytes left to read. -/
def bytesLeft (s : Scanner) : Nat :=
  s.rest.foldl (fun bytes c => bytes + c.utf8Size) 0

/-- The item that a lexeme becomes. -/
def item? (yields : Yield) (lexeme : List Char) (position : Position) : Option Item :=
  let value := String.ofList lexeme
  match yields with
  | .token kind => some (.token ⟨kind, value, position⟩)
  | .word => some (.token ⟨(Token.reserved? value).getD .identifier, value, position⟩)
  | .nothing => none

/-- The scanner after an unreadable character, which takes up one column of
its line, whatever it is. -/
def passStray (s : Scanner) (c : Char) : Scanner :=
  ⟨s.rest.drop 1, ⟨s.position.offset + c.utf8Size, s.position.line, s.position.column + 1⟩⟩

/-- One lexeme, or one unreadable character: what it becomes and the scanner
after it.  There is none at the end of the text. -/
def step? (s : Scanner) : Option (Option Item × Scanner) :=
  match s.rest with
  | [] => none
  | c :: _ =>
    match lexeme? s.rest with
    | some (rule, n) => some (item? rule.yields (s.rest.take n) s.position, s.advance n)
    | none => some (some (.stray c s.position), s.passStray c)

theorem length_advance_lt {s : Scanner} {n : Nat} (hn : 0 < n) (hs : s.rest ≠ []) :
    (s.advance n).rest.length < s.rest.length := by
  have := List.length_pos_iff.2 hs
  simp only [advance, List.length_drop]
  omega

/-- A step uses up part of the text. -/
theorem length_lt_of_step? {s next : Scanner} {item : Option Item}
    (h : s.step? = some (item, next)) : next.rest.length < s.rest.length := by
  unfold step? at h
  split at h
  · contradiction
  · next c tail hs =>
    have hne : s.rest ≠ [] := by simp [hs]
    split at h
    · next rule n hl =>
      cases h
      exact length_advance_lt (lexeme?_pos hl) hne
    · cases h
      exact length_advance_lt Nat.one_pos hne

/-- The next token or unreadable character, and the scanner after it.  At the
end of the text there is none, and the scanner has passed what separates. -/
def next (s : Scanner) : Option Item × Scanner :=
  match _h : s.step? with
  | none => (none, s)
  | some (some item, after) => (some item, after)
  | some (none, after) => next after
termination_by s.rest.length
decreasing_by exact length_lt_of_step? _h

theorem length_lt_of_next {s after : Scanner} {item : Item}
    (h : s.next = (some item, after)) : after.rest.length < s.rest.length := by
  fun_induction next s with
  | case1 => cases h
  | case2 s found following hs =>
    cases h
    exact length_lt_of_step? hs
  | case3 s following hs ih => exact Nat.lt_trans (ih h) (length_lt_of_step? hs)

/-- Everything from here to the end of the text, and the scanner there. -/
def items (s : Scanner) : List Item × Scanner :=
  match _h : s.next with
  | (none, last) => ([], last)
  | (some item, after) =>
    let (found, last) := items after
    (item :: found, last)
termination_by s.rest.length
decreasing_by exact length_lt_of_next _h

end Scanner

/-! ## §2. Whole texts. -/

/-- The token of an item. -/
def Item.token? : Item → Option Token
  | .token found => some found
  | .stray _ _ => none

/-- The error of an item: its character is unreadable, and one column wide. -/
def Item.error? : Item → Option Error
  | .token _ => none
  | .stray character position => some ⟨.unreadable character, position, 1, []⟩

/-- The tokens of a text and an end token, or the errors of all its
unreadable characters. -/
def tokenize (source : String) : Except (List Error) (List Token) :=
  let (found, last) := (Scanner.ofText source).items
  match found.filterMap Item.error? with
  | [] => .ok (found.filterMap Item.token? ++ [⟨.eof, "", last.position⟩])
  | errors => .error errors

end ImpFront
