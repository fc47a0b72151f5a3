/-
  ImpFront.Grammar.Cursor
  ───────────────────────
  **A PLACE IN A LIST OF TOKENS.**

  A cursor holds the tokens behind it, nearest first, the tokens ahead of it,
  and the end token, which no step ever passes.  Every step keeps the tokens:

      c.advance.tokens = c.tokens        (c.rewind n).tokens = c.tokens

  The number of tokens ahead is what every loop of the grammar uses up.
-/
import ImpFront.Token.Basic

namespace ImpFront

/-- A place in a list of tokens that closes with an end token. -/
structure Cursor where
  /-- The tokens behind, nearest first. -/
  behind : List Token
  /-- The tokens ahead, without the final one. -/
  ahead : List Token
  /-- The token that closes the list. -/
  final : Token
  /-- The list is closed by an end token. -/
  final_kind : final.kind = .eof
  deriving DecidableEq

namespace Cursor

/-! ## §1. Reading. -/

/-- The cursor at the first of some tokens.  Where the last one is not an end
token, one is added at the same place. -/
def ofTokens (tokens : List Token) : Cursor :=
  match tokens.getLast? with
  | none => ⟨[], [], ⟨.eof, "", ⟨0, 0, 0⟩⟩, rfl⟩
  | some last =>
    if h : last.kind = .eof then ⟨[], tokens.dropLast, last, h⟩
    else ⟨[], tokens, ⟨.eof, "", last.position⟩, rfl⟩

/-- All tokens, in order. -/
def tokens (c : Cursor) : List Token :=
  c.behind.reverse ++ c.ahead ++ [c.final]

/-- The token `n` places ahead; past the end that is the end token. -/
def peek (c : Cursor) (n : Nat) : Token :=
  c.ahead[n]?.getD c.final

/-- The token at the cursor. -/
def current (c : Cursor) : Token :=
  c.peek 0

/-- The number of tokens behind. -/
def index (c : Cursor) : Nat :=
  c.behind.length

/-- The number of tokens ahead, without the final one. -/
def remaining (c : Cursor) : Nat :=
  c.ahead.length

/-! ## §2. Moving. -/

/-- The cursor one token on, or where it is at the end. -/
def advance (c : Cursor) : Cursor :=
  match c.ahead with
  | [] => c
  | token :: rest => { c with behind := token :: c.behind, ahead := rest }

/-- The cursor `n` tokens back, or at the first token. -/
def rewind (c : Cursor) : Nat → Cursor
  | 0 => c
  | n + 1 =>
    match c.behind with
    | [] => c
    | token :: rest => rewind { c with behind := rest, ahead := token :: c.ahead } n

/-- The run of tokens ahead whose kinds pass a test. -/
def run (c : Cursor) (p : Kind → Bool) : List Token :=
  c.ahead.takeWhile fun token => p token.kind

/-- The cursor behind that run. -/
def skip (c : Cursor) (p : Kind → Bool) : Cursor :=
  { c with
    behind := (c.run p).reverse ++ c.behind
    ahead := c.ahead.dropWhile fun token => p token.kind }

/-! ## §3. What moving keeps. -/

@[simp] theorem tokens_advance (c : Cursor) : c.advance.tokens = c.tokens := by
  unfold advance
  split
  · rfl
  · next h => simp [tokens, h]

@[simp] theorem tokens_rewind (c : Cursor) (n : Nat) : (c.rewind n).tokens = c.tokens := by
  induction n generalizing c with
  | zero => rfl
  | succ n ih =>
    unfold rewind
    split
    · rfl
    · next h => rw [ih]; simp [tokens, h]

@[simp] theorem tokens_skip (c : Cursor) (p : Kind → Bool) : (c.skip p).tokens = c.tokens := by
  simp [tokens, skip, run]

/-- Away from the end a step uses up one token. -/
theorem remaining_advance (c : Cursor) : c.advance.remaining = c.remaining - 1 := by
  unfold advance remaining
  split
  · next h => simp [h]
  · next h => simp [h]

theorem remaining_skip_le (c : Cursor) (p : Kind → Bool) :
    (c.skip p).remaining ≤ c.remaining :=
  (List.dropWhile_sublist _).length_le

/-- A token that is not an end token has been reached before the end. -/
theorem remaining_pos_of_current (c : Cursor) (h : c.current.kind ≠ .eof) :
    0 < c.remaining := by
  unfold remaining
  cases ha : c.ahead with
  | nil => simp [current, peek, ha, c.final_kind] at h
  | cons => simp

end Cursor

end ImpFront
