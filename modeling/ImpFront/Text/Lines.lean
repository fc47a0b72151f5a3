/-
  ImpFront.Text.Lines
  ───────────────────
  **LINES OF A TEXT.**

  A line feed separates two lines, so a text with `n` line feeds has `n + 1`
  lines and a final line feed leaves an empty last one.

      joinLines (splitLines cs)  =  cs
      normalize cs               =  cs with every blank line emptied

  Tokens are cut from the normalized text, and reports quote the text as it
  was given; both have the same lines under the same numbers.
-/
import ImpFront.Text.Blank

namespace ImpFront.Text

/-! ## §1. Splitting and joining. -/

/-- The lines of a text, at least one. -/
def splitLines : List Char → List (List Char)
  | [] => [[]]
  | c :: rest =>
    if c = '\n' then [] :: splitLines rest
    else match splitLines rest with
      | [] => [[c]]
      | line :: lines => (c :: line) :: lines

/-- The lines with one line feed between any two. -/
def joinLines : List (List Char) → List Char
  | [] => []
  | [line] => line
  | line :: lines => line ++ '\n' :: joinLines lines

theorem splitLines_ne_nil (cs : List Char) : splitLines cs ≠ [] := by
  cases cs with
  | nil => simp [splitLines]
  | cons c rest =>
    simp only [splitLines]
    split
    · simp
    · split <;> simp

/-- **Nothing is lost between the lines.** -/
theorem joinLines_splitLines (cs : List Char) : joinLines (splitLines cs) = cs := by
  induction cs with
  | nil => rfl
  | cons c rest ih =>
    simp only [splitLines]
    split
    · next h =>
      subst h
      cases hs : splitLines rest with
      | nil => exact absurd hs (splitLines_ne_nil rest)
      | cons line lines => simp [joinLines, ← hs, ih]
    · cases hs : splitLines rest with
      | nil => exact absurd hs (splitLines_ne_nil rest)
      | cons line lines =>
        rw [hs] at ih
        cases lines with
        | nil => simpa [joinLines] using ih
        | cons next lines => simpa [joinLines] using ih

/-! ## §2. Blank lines. -/

/-- The text in which every line of blanks only has become empty. -/
def normalize (cs : List Char) : List Char :=
  joinLines ((splitLines cs).map fun line => if isBlankLine line then [] else line)

/-! ## §3. Looking up a line. -/

/-- A line without the one carriage return that may end it. -/
def dropReturn (line : List Char) : List Char :=
  if line.getLast? = some '\r' then line.dropLast else line

/-- The line of a number that counts from 1, without its line ending. -/
def line? (cs : List Char) : Nat → Option (List Char)
  | 0 => none
  | n + 1 => (splitLines cs)[n]?.map dropReturn

/-- Line `n` of a source text. -/
def sourceLine? (source : String) (n : Nat) : Option String :=
  (line? source.toList n).map String.ofList

@[simp] theorem line?_zero (cs : List Char) : line? cs 0 = none := rfl

end ImpFront.Text
