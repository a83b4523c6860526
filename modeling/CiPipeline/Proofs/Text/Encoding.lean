import CiPipeline.Text.Encoding
import Mathlib.Data.Nat.Digits.Defs

/-!
Which texts can be put into bytes. A text can if each of its parts can, and every encoding has bytes for the
plainest characters, those of numbers among them.
-/

namespace CiPipeline.Encoding

variable {encoding : Encoding}

theorem rejects_append (a b : String) :
    encoding.rejects (a ++ b) = (encoding.rejects a || encoding.rejects b) := by
  simp [rejects]

/-- The plainest texts can be put into bytes by every encoding. -/
theorem rejects_eq_false_of_ascii {text : String}
    (hascii : text.toList.all (fun c => decide (c.toNat < 0x80)) = true) :
    encoding.rejects text = false := by
  rw [rejects, List.any_eq_false]
  intro c hc
  have hlow : c.toNat < 0x80 := of_decide_eq_true (List.all_eq_true.mp hascii c hc)
  simp [refuses, encoding.lacks_ascii c hlow]

theorem rejects_toString (n : Nat) : encoding.rejects (toString n) = false := by
  apply rejects_eq_false_of_ascii
  change (n.repr.toList.all _) = true
  rw [Nat.toList_repr, List.all_eq_true]
  intro digit hdigit
  have hrange := Nat.isDigit_of_mem_toDigits (by decide) (by decide) hdigit
  simp only [Char.isDigit, Bool.and_eq_true, decide_eq_true_eq, ge_iff_le] at hrange
  have hbound : digit.toNat ≤ 57 := UInt32.le_iff_toNat_le.mp hrange.2
  exact decide_eq_true (by omega)

end CiPipeline.Encoding
