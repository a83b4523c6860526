/-!
Reading bytes as UTF-8. Each maximal beginning of a sequence that does not go on as it must, and each byte
that can begin none, is read as one replacement character; or the bytes are refused as a whole.
-/

namespace CiPipeline.Text.Utf8

/-- A sequence that has begun: its bits so far, the bytes still to come and the bounds of the next. -/
structure Pending where
  bits : Nat
  remaining : Nat
  low : Nat
  high : Nat

/-- Stands for bytes that cannot be read. -/
def replacement : Char := Char.ofNat 0xfffd

/-- Reads a byte at which a new sequence begins. -/
def start (byte : Nat) : List Char × Option Pending :=
  if byte < 0x80 then ([Char.ofNat byte], none)
  else if 0xc2 ≤ byte ∧ byte ≤ 0xdf then ([], some ⟨byte - 0xc0, 1, 0x80, 0xbf⟩)
  else if byte = 0xe0 then ([], some ⟨0, 2, 0xa0, 0xbf⟩)
  else if byte = 0xed then ([], some ⟨0xd, 2, 0x80, 0x9f⟩)
  else if 0xe1 ≤ byte ∧ byte ≤ 0xef then ([], some ⟨byte - 0xe0, 2, 0x80, 0xbf⟩)
  else if byte = 0xf0 then ([], some ⟨0, 3, 0x90, 0xbf⟩)
  else if 0xf1 ≤ byte ∧ byte ≤ 0xf3 then ([], some ⟨byte - 0xf0, 3, 0x80, 0xbf⟩)
  else if byte = 0xf4 then ([], some ⟨4, 3, 0x80, 0x8f⟩)
  else ([replacement], none)

/-- Reads the bytes that follow, given the sequence that is open. -/
def decodeFrom : Option Pending → List Nat → List Char
  | none, [] => []
  | some _, [] => [replacement]
  | none, byte :: rest =>
    let (chars, next) := start byte
    chars ++ decodeFrom next rest
  | some pending, byte :: rest =>
    if pending.low ≤ byte ∧ byte ≤ pending.high then
      let bits := pending.bits * 64 + (byte - 0x80)
      if pending.remaining ≤ 1 then Char.ofNat bits :: decodeFrom none rest
      else decodeFrom (some ⟨bits, pending.remaining - 1, 0x80, 0xbf⟩) rest
    else
      let (chars, next) := start byte
      replacement :: chars ++ decodeFrom next rest

/-- The text of some bytes. -/
def decode (bytes : List Nat) : String :=
  String.ofList (decodeFrom none bytes)

/-- The text whose bytes these are, if there is one. -/
def decode? (bytes : List Nat) : Option String :=
  let text := decode bytes
  if text.toUTF8.toList.map UInt8.toNat = bytes then some text else none

end CiPipeline.Text.Utf8
