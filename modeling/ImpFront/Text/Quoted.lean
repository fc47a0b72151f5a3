/-
  ImpFront.Text.Quoted
  ────────────────────
  **QUOTED TEXT.**

  A text in double quotes, with an escape for each character that could not
  be told from its surroundings: the quote and the backslash themselves, the
  four named controls, and the number of every other character that is not
  visible on its own.
-/
import ImpFront.Text.Printable

namespace ImpFront.Text

/-- A number in lower-case hexadecimal, without leading zeros. -/
def hexDigits (n : Nat) : List Char :=
  Nat.toDigits 16 n

/-- The written form of one character between the quotes. -/
def escapeChar (c : Char) : List Char :=
  if c = '\x22' then ['\\', '\x22']
  else if c = '\\' then ['\\', '\\']
  else if c = '\t' then ['\\', 't']
  else if c = '\r' then ['\\', 'r']
  else if c = '\n' then ['\\', 'n']
  else if c = '\x00' then ['\\', '0']
  else if isPrintable c then [c]
  else ['\\', 'u', '\x7b'] ++ hexDigits c.toNat ++ ['\x7d']

/-- The text between double quotes. -/
def quote (s : String) : String :=
  String.ofList ('\x22' :: s.toList.flatMap escapeChar ++ ['\x22'])

/-- Printable ASCII apart from the quote and the backslash is written as it is. -/
theorem escapeChar_of_ascii {c : Char} (h : 0x20 ≤ c.toNat) (h' : c.toNat < 0x7f)
    (hq : c ≠ '\x22') (hb : c ≠ '\\') : escapeChar c = [c] := by
  have control {d : Char} (hd : d.toNat < 0x20) : c ≠ d := by
    rintro rfl
    omega
  have visible : isPrintable c = true := by
    simp [isPrintable, h, h']
  simp [escapeChar, hq, hb, control (d := '\t') (by decide), control (d := '\r') (by decide),
    control (d := '\n') (by decide), control (d := '\x00') (by decide), visible]

end ImpFront.Text
