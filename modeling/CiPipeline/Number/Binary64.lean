/-!
Binary floating-point numbers of 64 bits, as exact data: a significand and a power of two. A fraction
is read as the nearest of them, a tie going to the even significand, by arithmetic on natural numbers
alone.
-/

namespace CiPipeline.Number

/-- The natural number nearest to a quotient; a tie goes to the even neighbour. -/
def roundQuotient (num den : Nat) : Nat :=
  let quotient := num / den
  let rest := num % den
  if 2 * rest < den then quotient
  else if den < 2 * rest then quotient + 1
  else quotient + quotient % 2

/--
A binary number of 64 bits. The value of `finite s m e` is `m · 2 ^ e`, negated when `s` holds; `m` has
53 bits, or fewer when `e` is the least exponent, so each value but zero has one form.
-/
inductive Binary64
  | nan
  | infinite (negative : Bool)
  | finite (negative : Bool) (significand : Nat) (exponent : Int)
  deriving DecidableEq, Repr

namespace Binary64

/-- The exponent of the smallest numbers. -/
def leastExponent : Int := -1074

/-- The exponent of the largest numbers. -/
def greatestExponent : Int := 971

/-- Zero, with its sign. -/
def zero (negative : Bool) : Binary64 :=
  finite negative 0 leastExponent

/-- The fraction `num / den` times `2 ^ shift`, as a numerator and a denominator. -/
def scale (num den : Nat) (shift : Int) : Nat × Nat :=
  if 0 ≤ shift then (num * Nat.pow 2 shift.toNat, den) else (num, den * Nat.pow 2 (-shift).toNat)

/-- The greatest power of two that is at most a positive fraction. -/
def binaryExponent (num den : Nat) : Int :=
  let guess : Int := (num.log2 : Int) - (den.log2 : Int)
  let (n, d) := scale num den (-guess)
  if d ≤ n then guess else guess - 1

/-- The number nearest to a fraction with a positive denominator. -/
def ofFraction (negative : Bool) (num den : Nat) : Binary64 :=
  if num = 0 then zero negative
  else
    let exponent := max (binaryExponent num den - 52) leastExponent
    let (n, d) := scale num den (-exponent)
    let rounded := roundQuotient n d
    let (significand, exponent) :=
      if rounded = Nat.pow 2 53 then (Nat.pow 2 52, exponent + 1) else (rounded, exponent)
    if greatestExponent < exponent then infinite negative
    else finite negative significand exponent

/-- The number of decimal digits of a natural number. -/
def decimalLength (n : Nat) : Nat :=
  (Nat.toDigits 10 n).length

/-- The fraction `digits · 10 ^ exponent`, as a numerator and a denominator. -/
def decimalFraction (digits : Nat) (exponent : Int) : Nat × Nat :=
  if 0 ≤ exponent then (digits * Nat.pow 10 exponent.toNat, 1)
  else (digits, Nat.pow 10 (-exponent).toNat)

/--
The number nearest to `digits · 10 ^ exponent`. Decimals far outside the range are settled by their
size, so that no power of an absurd exponent is computed.
-/
def ofDecimal (negative : Bool) (digits : Nat) (exponent : Int) : Binary64 :=
  if digits = 0 then zero negative
  else
    let magnitude := (decimalLength digits : Int) + exponent
    if magnitude > 400 then infinite negative
    else if magnitude < -400 then zero negative
    else
      let (num, den) := decimalFraction digits exponent
      ofFraction negative num den

/-- The number nearest to an integer. -/
def ofInt (n : Int) : Binary64 :=
  ofFraction (n < 0) n.natAbs 1

/-- The number nearest to an integer; none where only an infinity would be near. -/
def ofInt? (n : Int) : Option Binary64 :=
  match ofInt n with
  | infinite _ => none
  | number => some number

/-- The absolute value of a finite number, as a numerator and a denominator. -/
def fraction (significand : Nat) (exponent : Int) : Nat × Nat :=
  scale significand 1 exponent

/-- A natural number with a sign. -/
def signed (negative : Bool) (n : Nat) : Int :=
  if negative then -n else n

/-- The number nearest to an integer times a power of two. -/
def ofScaled (n exponent : Int) : Binary64 :=
  let (num, den) := fraction n.natAbs exponent
  ofFraction (n < 0) num den

/-- The number nearest to the sum of two numbers. A sum of zero is positive unless both parts are negative. -/
def add : Binary64 → Binary64 → Binary64
  | finite s m e, finite s' m' e' =>
    let least := min e e'
    let total :=
      signed s (m * Nat.pow 2 (e - least).toNat) + signed s' (m' * Nat.pow 2 (e' - least).toNat)
    if total = 0 then zero (s && s') else ofScaled total least
  | infinite s, infinite s' => if s = s' then infinite s else nan
  | infinite s, finite .. => infinite s
  | finite .., infinite s => infinite s
  | nan, _ => nan
  | _, nan => nan

/-- The number nearest to the product of two numbers. Zero times an infinity is none. -/
def mul : Binary64 → Binary64 → Binary64
  | finite s m e, finite s' m' e' =>
    let (num, den) := fraction (m * m') (e + e')
    ofFraction (s != s') num den
  | infinite s, infinite s' => infinite (s != s')
  | infinite s, finite s' m _ => if m = 0 then nan else infinite (s != s')
  | finite s m _, infinite s' => if m = 0 then nan else infinite (s != s')
  | nan, _ => nan
  | _, nan => nan

/-- The number with the other sign. -/
def neg : Binary64 → Binary64
  | finite s m e => finite (!s) m e
  | infinite s => infinite (!s)
  | nan => nan

/-- Whether the number is above zero. -/
def isPositive : Binary64 → Bool
  | nan => false
  | infinite negative => !negative
  | finite negative significand _ => !negative && significand != 0

/-- Equality of values: zeros of both signs are equal, and nothing equals what is not a number. -/
def sameValue : Binary64 → Binary64 → Bool
  | nan, _ => false
  | _, nan => false
  | finite s m e, finite s' m' e' => (m == 0 && m' == 0) || (s == s' && m == m' && e == e')
  | a, b => a == b

/-- Whether the number is exactly the integer `n`. -/
def isInt (number : Binary64) (n : Int) : Bool :=
  match number with
  | finite negative significand exponent =>
    let (num, den) := fraction significand exponent
    num == n.natAbs * den && (num == 0 || negative == decide (n < 0))
  | _ => false

/-- The integer that the number is, if it is one. -/
def toInt? : Binary64 → Option Int
  | finite negative significand exponent =>
    let (num, den) := fraction significand exponent
    let magnitude : Int := num / den
    if num % den = 0 then some (if negative then -magnitude else magnitude) else none
  | _ => none

end Binary64
end CiPipeline.Number
