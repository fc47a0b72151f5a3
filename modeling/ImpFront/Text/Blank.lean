/-
  ImpFront.Text.Blank
  ───────────────────
  **BLANK CHARACTERS AND TRIMMING.**

  A character is blank when it has the Unicode property `White_Space`.  The
  class decides two things: which lines of a source count as empty, and how
  much of a line a report leaves away on either side.  It is wider than the
  blanks between two tokens, which are four ASCII characters.

      trimStart cs  =  cs without its leading blanks
      trimEnd cs    =  cs without its trailing blanks
-/

namespace ImpFront.Text

/-! ## §1. The class. -/

/-- The characters with the property `White_Space`. -/
def isBlank (c : Char) : Bool :=
  let n := c.toNat
  (9 ≤ n && n ≤ 13) || n == 0x20 || n == 0x85 || n == 0xa0 || n == 0x1680
    || (0x2000 ≤ n && n ≤ 0x200a) || n == 0x2028 || n == 0x2029 || n == 0x202f
    || n == 0x205f || n == 0x3000

/-- A run of blanks only; the empty run counts. -/
def isBlankLine (cs : List Char) : Bool :=
  cs.all isBlank

/-! ## §2. Trimming. -/

/-- The text without its leading blanks. -/
def trimStart (cs : List Char) : List Char :=
  cs.dropWhile isBlank

/-- The text without its trailing blanks. -/
def trimEnd (cs : List Char) : List Char :=
  (cs.reverse.dropWhile isBlank).reverse

/-- Core's white space is blank. -/
theorem isBlank_of_isWhitespace {c : Char} (h : c.isWhitespace = true) :
    isBlank c = true := by
  simp only [Char.isWhitespace, Bool.or_eq_true, decide_eq_true_eq] at h
  rcases h with ((rfl | rfl) | rfl) | rfl <;> rfl

@[simp] theorem trimStart_nil : trimStart [] = [] := rfl

@[simp] theorem trimEnd_nil : trimEnd [] = [] := rfl

end ImpFront.Text
