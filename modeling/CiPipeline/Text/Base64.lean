/-!
Reading bytes that are written in letters and digits, six bits each. Other characters are passed over; the
signs that fill a last group up end the text once that group is full.
-/

namespace CiPipeline.Text.Base64

/-- The sign that fills a group up. -/
def filler : Char := '='

/-- The six bits that a character writes. -/
def sextet? (c : Char) : Option Nat :=
  if 'A' ≤ c ∧ c ≤ 'Z' then some (c.toNat - 0x41)
  else if 'a' ≤ c ∧ c ≤ 'z' then some (c.toNat - 0x61 + 26)
  else if '0' ≤ c ∧ c ≤ '9' then some (c.toNat - 0x30 + 52)
  else if c = '+' then some 62
  else if c = '/' then some 63
  else none

/--
The groups of six bits that a text writes, given how many came before and how many fillers since the last
of them. A text that ends within a group of four writes none.
-/
def sextets? (count fillers : Nat) : List Char → Option (List Nat)
  | [] => if count % 4 = 0 then some [] else none
  | c :: rest =>
    if c = filler then
      if count % 4 < 2 then sextets? count fillers rest
      else if 4 ≤ count % 4 + fillers + 1 then some []
      else sextets? count (fillers + 1) rest
    else
      match sextet? c with
      | some bits => (sextets? (count + 1) 0 rest).map (bits :: ·)
      | none => sextets? count fillers rest

/-- The bytes of some groups of six bits; four of them are three bytes. -/
def pack : List Nat → List Nat
  | a :: b :: c :: d :: rest => [a * 4 + b / 16, b % 16 * 16 + c / 4, c % 4 * 64 + d] ++ pack rest
  | [a, b, c] => [a * 4 + b / 16, b % 16 * 16 + c / 4]
  | [a, b] => [a * 4 + b / 16]
  | _ => []

/-- The bytes that a text writes. -/
def decode? (s : List Char) : Option (List Nat) :=
  (sextets? 0 0 s).map pack

end CiPipeline.Text.Base64
