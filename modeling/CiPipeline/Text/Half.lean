/-!
Halves of characters. A text may hold the two halves of a pair of code units as characters of their own,
which no text in bytes can hold. Each half is kept here as a character of the last plane of private use,
at the place of its code; `codeOf_ofCode` says that its code is not lost. The character of private use at
that place is kept in the same way, and which of the two it is only an encoding can tell.
-/

namespace CiPipeline.Text

/-- The first code of the plane in which halves are kept. -/
def halfPlane : Nat := 0x100000

/-- Whether a code is that of a half. -/
def isHalfCode (code : Nat) : Bool :=
  0xd800 ≤ code && code < 0xe000

/-- The character of a code. -/
def ofCode (code : Nat) : Char :=
  Char.ofNat (if isHalfCode code then halfPlane + code else code)

/-- Whether a character is kept for a half. -/
def isHalf (c : Char) : Bool :=
  isHalfCode (c.toNat - halfPlane)

/-- The code of a character. -/
def codeOf (c : Char) : Nat :=
  if isHalf c then c.toNat - halfPlane else c.toNat

/-- Whether a text holds a half. -/
def hasHalf (s : String) : Bool :=
  s.toList.any isHalf

/-- A text for readers of bytes: in place of a half stand as many signs of loss as it would take bytes. -/
def withoutHalves (s : String) : String :=
  String.ofList (s.toList.flatMap fun c => if isHalf c then List.replicate 3 (Char.ofNat 0xfffd) else [c])

theorem isHalf_of_ascii (c : Char) (hascii : c.toNat < 0x80) : isHalf c = false := by
  have hcode : c.toNat - halfPlane = 0 := by
    unfold halfPlane
    omega
  rw [isHalf, hcode]
  rfl

theorem toNat_ofNat {n : Nat} (h : n.isValidChar) : (Char.ofNat n).toNat = n := by
  rw [Char.ofNat, dif_pos h]
  rfl

theorem codeOf_ofCode {code : Nat} (h : isHalfCode code = true) : codeOf (ofCode code) = code := by
  have bounds : 0xd800 ≤ code ∧ code < 0xe000 := by simpa [isHalfCode] using h
  have valid : (halfPlane + code).isValidChar := by
    simp only [Nat.isValidChar, halfPlane]
    omega
  have place : (ofCode code).toNat = halfPlane + code := by
    simp only [ofCode, h, if_true]
    exact toNat_ofNat valid
  simp [codeOf, isHalf, place, h]

end CiPipeline.Text
