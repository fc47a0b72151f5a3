/-
  ImpFront.Text.Numeral
  ─────────────────────
  **READING NUMBERS.**

  Two readings of a text as a number, both exact:

      integer?   — an optional sign and at least one digit
      decimal?   — an optional sign, digits around at most one point, and an
                   optional power of ten; or one of the words for infinity
                   and for no number, in any case of letters

  A decimal is kept as digits and a power of ten, so that it can be compared
  with a bound without rounding, however long its text is.
-/

namespace ImpFront.Text

/-! ## §1. Digits. -/

/-- A decimal digit of ASCII. -/
def isDigit (c : Char) : Bool :=
  '0' ≤ c && c ≤ '9'

/-- The positional value of a run of digits. -/
def digitsValue (cs : List Char) : Nat :=
  cs.foldl (fun value c => 10 * value + (c.toNat - '0'.toNat)) 0

/-- At least one character, and digits only. -/
def natural? (cs : List Char) : Option Nat :=
  if cs.isEmpty || !cs.all isDigit then none else some (digitsValue cs)

/-! ## §2. Integers. -/

/-- An optional sign and at least one digit. -/
def integer? : List Char → Option Int
  | '+' :: digits => (natural? digits).map Int.ofNat
  | '-' :: digits => (natural? digits).map fun n => -Int.ofNat n
  | digits => (natural? digits).map Int.ofNat

/-- The largest word of 128 bits with a sign. -/
def largestWord : Int := 170141183460469231731687303715884105727

/-- The integer as a word of 128 bits.  A text that is no integer, or one too
large for the word, counts as the largest word, which is beyond the range of
every type of the language. -/
def integerWord (cs : List Char) : Int :=
  match integer? cs with
  | some n => if -largestWord - 1 ≤ n && n ≤ largestWord then n else largestWord
  | none => largestWord

/-! ## §3. Decimals. -/

/-- What a text says when it is read as a decimal. -/
inductive Decimal where
  /-- The value `± digits · 10 ^ exponent`. -/
  | finite (negative : Bool) (digits : Nat) (exponent : Int)
  /-- Beyond every number, on one side. -/
  | infinite (negative : Bool)
  /-- Not a number. -/
  | undefined
  deriving Repr, DecidableEq

/-- The power of ten that ends a decimal: nothing, or a letter and an integer. -/
def exponent? : List Char → Option Int
  | [] => some 0
  | c :: rest => if c = 'e' || c = 'E' then integer? rest else none

/-- Digits around at most one point, at least one digit in all, and an
optional power of ten. -/
def magnitude? (cs : List Char) : Option (Nat × Int) :=
  let whole := cs.takeWhile isDigit
  let tail := cs.dropWhile isDigit
  let (fraction, rest) := match tail with
    | '.' :: tail => (tail.takeWhile isDigit, tail.dropWhile isDigit)
    | _ => ([], tail)
  if whole.isEmpty && fraction.isEmpty then none
  else (exponent? rest).map fun power =>
    (digitsValue (whole ++ fraction), power - Int.ofNat fraction.length)

/-- A decimal without its sign. -/
def unsignedDecimal? (negative : Bool) (cs : List Char) : Option Decimal :=
  match magnitude? cs with
  | some (digits, exponent) => some (.finite negative digits exponent)
  | none =>
    let word := String.ofList (cs.map Char.toLower)
    if word = "inf" || word = "infinity" then some (.infinite negative)
    else if word = "nan" then some .undefined
    else none

/-- A decimal with an optional sign. -/
def decimal? : List Char → Option Decimal
  | '+' :: rest => unsignedDecimal? false rest
  | '-' :: rest => unsignedDecimal? true rest
  | rest => unsignedDecimal? false rest

/-! ## §4. Comparing a decimal with a bound. -/

/-- `digits · 10 ^ exponent` against a positive bound of at most 400 digits.
A value of more digits than that is above the bound and one below 1 is below
it; between the two the comparison is exact. -/
def compareScaled (digits : Nat) (exponent : Int) (bound : Nat) : Ordering :=
  let size := (Nat.toDigits 10 digits).length
  if digits = 0 || exponent + size ≤ 0 then .lt
  else if exponent + size > 400 then .gt
  else match exponent with
    | .ofNat power => compare (digits * Nat.pow 10 power) bound
    | .negSucc power => compare digits (bound * Nat.pow 10 (power + 1))

/-- The decimal against a positive bound of at most 400 digits.  What is not a
number compares with nothing. -/
def Decimal.compareTo? (bound : Nat) : Decimal → Option Ordering
  | .finite true _ _ => some .lt
  | .finite false digits exponent => some (compareScaled digits exponent bound)
  | .infinite negative => some (if negative then .lt else .gt)
  | .undefined => none

end ImpFront.Text
