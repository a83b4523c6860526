import CiPipeline.Number.Binary64

/-!
Decimal text of binary numbers. The plain text of a number has the fewest digits that read back as that
number, and the nearest such digits. Text with fixed places rounds the exact binary value.
-/

namespace CiPipeline.Number.Binary64

/-- The greatest power of ten that is at most a positive fraction. -/
def decimalExponent (num den : Nat) : Int :=
  if den ≤ num then (decimalLength (num / den) : Int) - 1
  else -(decimalLength ((den - 1) / num) : Int)

/-- Of two neighbours that may read back, the one that does; of two that do, the nearer. -/
def chooseNeighbour (num den low : Nat) (lowReads highReads : Bool) : Option Nat :=
  match lowReads, highReads with
  | false, false => none
  | true, false => some low
  | false, true => some (low + 1)
  | true, true =>
    let gap := 2 * (num - low * den)
    if gap < den ∨ (gap = den ∧ low % 2 = 0) then some low else some (low + 1)

/-- The decimal with the given count of digits that reads back as a finite number, if there is one. -/
def decimalOfLength? (significand : Nat) (exponent : Int) (count : Nat) : Option (Nat × Int) :=
  let (num, den) := fraction significand exponent
  let grid := decimalExponent num den + 1 - count
  let (n, d) :=
    if 0 ≤ grid then (num, den * Nat.pow 10 grid.toNat)
    else (num * Nat.pow 10 (-grid).toNat, den)
  let low := n / d
  let reads := fun digits => ofDecimal false digits grid == finite false significand exponent
  (chooseNeighbour n d low (reads low) (reads (low + 1))).map fun digits => (digits, grid)

/-- The shortest decimal that reads back as a finite number above zero; 17 digits always do. -/
def shortestDecimal (significand : Nat) (exponent : Int) : Nat × Int :=
  ((List.range' 1 17).findSome? fun count => decimalOfLength? significand exponent count).getD
    (significand, exponent)

/-- A decimal in positional notation, always with a point. -/
def positional (digits : List Char) (leading : Int) : List Char :=
  if leading < 0 then
    '0' :: '.' :: List.replicate (-leading - 1).toNat '0' ++ digits
  else
    let whole := leading.toNat + 1
    if digits.length ≤ whole then
      digits ++ List.replicate (whole - digits.length) '0' ++ ['.', '0']
    else digits.take whole ++ '.' :: digits.drop whole

/-- A power of ten as an exponent: its sign and at least two digits. -/
def exponentText (n : Int) : List Char :=
  let digits := Nat.toDigits 10 n.natAbs
  (if n < 0 then '-' else '+') :: List.replicate (2 - digits.length) '0' ++ digits

/-- A decimal in scientific notation; a single digit stands without a point. -/
def scientific (digits : List Char) (leading : Int) : List Char :=
  match digits with
  | [] => []
  | [digit] => digit :: 'e' :: exponentText leading
  | digit :: rest => digit :: '.' :: rest ++ 'e' :: exponentText leading

/-- Below this power of ten numbers are written in scientific notation. -/
def leastPositional : Int := -4

/-- From this power of ten on numbers are written in scientific notation. -/
def firstScientific : Int := 16

/-- Some digits without the zeros at their end. -/
def dropTrailingZeros (digits : List Char) : List Char :=
  (digits.reverse.dropWhile (· = '0')).reverse

/-- The digits of a finite number without its sign. -/
def magnitudeText (significand : Nat) (exponent : Int) : List Char :=
  if significand = 0 then ['0', '.', '0']
  else
    let (number, grid) := shortestDecimal significand exponent
    let digits := Nat.toDigits 10 number
    let leading := grid + digits.length - 1
    let digits := dropTrailingZeros digits
    if leastPositional ≤ leading ∧ leading < firstScientific then positional digits leading
    else scientific digits leading

/-- The plain text of a number. -/
def text : Binary64 → String
  | nan => "nan"
  | infinite negative => if negative then "-inf" else "inf"
  | finite negative significand exponent =>
    String.ofList ((if negative then ['-'] else []) ++ magnitudeText significand exponent)

/-- The text of a number with one digit after the point. -/
def tenths : Binary64 → String
  | nan => "nan"
  | infinite negative => if negative then "-inf" else "inf"
  | finite negative significand exponent =>
    let (num, den) := fraction significand exponent
    let rounded := roundQuotient (num * 10) den
    String.ofList ((if negative then ['-'] else []) ++ Nat.toDigits 10 (rounded / 10) ++ '.' ::
      Nat.toDigits 10 (rounded % 10))

end CiPipeline.Number.Binary64
