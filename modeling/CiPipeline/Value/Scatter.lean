import CiPipeline.Value

/-!
The order of numbers in a set. Each number has a residue, and looks for a free slot in a table from there
on; the order is that of the slots. Equal numbers have one residue however they are written.
-/

namespace CiPipeline.Value

open CiPipeline.Number (Binary64)

/-- Residues are taken by this prime, of which two to the power of 61 leaves one. -/
def residuePrime : Nat := 0x1fffffffffffffff

/-- The residue of a natural number times a power of two. -/
def residueOf (n : Nat) (exponent : Int) : Nat :=
  n % residuePrime * Nat.pow 2 (exponent % 61).toNat % residuePrime

/-- A residue with a sign as a word of 64 bits; minus one is taken for minus two. -/
def residueWord (negative : Bool) (residue : Nat) : Nat :=
  if negative && residue != 0 then 0x10000000000000000 - max residue 2 else residue

/-- The word at which a value begins its search, if its kind has one. -/
def searchWord? : Value → Option Nat
  | float (.finite negative significand exponent) =>
    some (residueWord negative (residueOf significand exponent))
  | float (.infinite negative) => some (residueWord negative 314159)
  | text "" | bytes [] => some 0
  | value => value.asInt?.map fun n => residueWord (n < 0) (residueOf n.natAbs 0)

/-- The slots that are looked at together, from one on: ten of them if there are so many after it. -/
def slotRun (size slot : Nat) : List Nat :=
  if slot + 9 < size then List.range' slot 10 else [slot]

/-- The first free slot that a search finds. The word is used up in thirteen moves, which then go round. -/
def freeSlot (size : Nat) (taken : List Nat) : Nat → Nat → Nat → Nat
  | 0, slot, _ => slot
  | fuel + 1, slot, word =>
    match (slotRun size slot).find? fun slot => !taken.contains slot with
    | some free => free
    | none => freeSlot size taken fuel ((slot * 5 + 1 + word / 32) % size) (word / 32)

/-- The number of slots for so many values. -/
def slotCount (count : Nat) : Nat :=
  if count < 5 then 8 else Nat.pow 2 (Nat.log2 (2 * count) + 1)

/-- Some values by their slots, given the words at which they begin. -/
def placed (size : Nat) (words : List (Nat × Value)) : List (Nat × Value) :=
  words.foldl (fun slots (word, value) =>
    (freeSlot size (slots.map Prod.fst) (size + 13) (word % size) word, value) :: slots) []

/-- The values of a set in order; where one of them has no word, the order is that of their writing. -/
def scattered (items : List Value) : List Value :=
  match items.mapM searchWord? with
  | some words =>
    let slots := placed (slotCount items.length) (words.zip items)
    (slots.mergeSort fun a b => decide (a.1 ≤ b.1)).map Prod.snd
  | none => items

end CiPipeline.Value
