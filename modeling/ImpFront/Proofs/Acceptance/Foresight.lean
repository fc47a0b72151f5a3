/-
  ImpFront.Proofs.Acceptance.Foresight
  ────────────────────────────────────
  **WHAT COMES BEHIND AN ERROR HAS NO PART IN IT.**

  A file is refused at a place.  Another one with the same tokens up to one
  behind that place is refused in the same way, whatever comes further down,
  unless the declarations there change the type of a call:

      f(); if c { } ⏎ ⏎ 1  ⏎  func f() -> i32 …
                        ↑  ↑          ↑
                    refused │    read for the type of the call
                      the last token that has to be the same

  The grammar looks further than one token ahead in two cases.  Line ends are
  passed over for the sake of an `else`, but then nothing can be refused before
  them; and types are read from declarations further down.

  At the end of a file the calls that wait are visited in an order of which
  nothing is known, and for two files it need not be the same.  It decides
  which error is reported only between calls at one offset.
-/
import Mathlib
import ImpFront.Proofs.Acceptance.Balance
import ImpFront.Proofs.Acceptance.Blame
import ImpFront.Proofs.Grammar.StatementFork

namespace ImpFront

/-- The tokens close with an end token. -/
def Closed (tokens : List Token) : Prop :=
  ∃ final ∈ tokens.getLast?, final.kind = .eof

/-- Up to one behind a place the files have the same tokens, and up to it the
same types are foretold for calls. -/
structure SameUpTo (last : Nat) (tokens tokens' : List Token) : Prop where
  /-- Every token of the one file is in the other. -/
  agree : ∀ i ≤ last + 1, ∀ token, tokens[i]? = some token → tokens'[i]? = some token
  /-- The next declaration of a name gives the same type. -/
  foretold : ∀ i ≤ last, ∀ name, returnTypeFrom? tokens i name = returnTypeFrom? tokens' i name

theorem Cursor.tokens_ofTokens {tokens : List Token} (closed : Closed tokens) :
    (ofTokens tokens).tokens = tokens := by
  obtain ⟨final, hlast, hfinal⟩ := closed
  have hlast : tokens.getLast? = some final := hlast
  unfold ofTokens
  simp only [hlast, hfinal, ↓reduceDIte]
  unfold Cursor.tokens
  rw [List.reverse_nil, List.nil_append]
  exact List.dropLast_append_getLast? final hlast

theorem Cursor.index_ofTokens (tokens : List Token) : (ofTokens tokens).index = 0 := by
  unfold index
  rw [behind_ofTokens]
  rfl

variable {file : String} {tokens tokens' : List Token} {order : Table.Traversal Pending}
  {e : Error} {p : Parser}

/-- The two files part behind the place. -/
def SameUpTo.fork {last : Nat} (same : SameUpTo last tokens tokens') : Fork :=
  ⟨tokens, tokens', last, same.agree, same.foretold⟩

theorem SameUpTo.twin {last : Nat} (same : SameUpTo last tokens tokens') (closed : Closed tokens)
    (closed' : Closed tokens') (file : String) :
    same.fork.Twin (.start file tokens) (.start file tokens') := by
  have level : same.fork.Level (.ofTokens tokens) (.ofTokens tokens') := by
    refine ⟨Cursor.tokens_ofTokens closed, Cursor.tokens_ofTokens closed', ?_, ?_⟩
    · rw [Cursor.index_ofTokens, Cursor.index_ofTokens]
    · rw [Cursor.index_ofTokens]
      exact Nat.zero_le _
  exact .at level

/-- `foo(); bar()`, with every token at offset 0. -/
def callsAtOneOffset : List Token :=
  [word 0 .identifier "foo", word 0 .openParen "(", word 0 .closeParen ")",
    word 0 .semicolon ";", word 0 .identifier "bar", word 0 .openParen "(",
    word 0 .closeParen ")", word 0 .eof ""]

/-- Against the order of entry. -/
def backwards : Table.Traversal Pending :=
  ⟨fun t => t.values.reverse, fun t => t.values.reverse_perm⟩

/-- Which of two calls at one offset is blamed hangs on the order of visits. -/
example :
    (parse "" callsAtOneOffset).1 = .error ⟨.notDefined "foo", ⟨0, 1, 1⟩, 3,
        [⟨"'bar' is not defined", ⟨0, 1, 1⟩, 3⟩]⟩
      ∧ (parse "" callsAtOneOffset backwards).1 = .error ⟨.notDefined "bar", ⟨0, 1, 1⟩, 3,
        [⟨"'foo' is not defined", ⟨0, 1, 1⟩, 3⟩]⟩ := by
  constructor <;> cbv

end ImpFront
