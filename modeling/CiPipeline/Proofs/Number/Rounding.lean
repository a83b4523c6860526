import CiPipeline.Number.Binary64
import Mathlib.Algebra.Order.Field.Power
import Mathlib.Data.Rat.Cast.Order
import Mathlib.Tactic.FieldSimp
import Mathlib.Tactic.Linarith
import Mathlib.Tactic.NormNum
import Mathlib.Tactic.Positivity
import Mathlib.Tactic.Ring

/-!
Which number a fraction is read as. A fraction only counts by its value, and one that is nearer to a finite
number above zero than halfway to the neighbours of that number is read as it.
-/

namespace CiPipeline.Number

/-! ## Powers -/

theorem zpow_of_nonneg (base : ℚ) {exponent : Int} (hup : 0 ≤ exponent) :
    base ^ exponent = base ^ exponent.toNat := by
  rw [← zpow_natCast, Int.toNat_of_nonneg hup]

theorem zpow_of_neg (base : ℚ) {exponent : Int} (hdown : ¬ 0 ≤ exponent) :
    base ^ exponent = (base ^ (-exponent).toNat)⁻¹ := by
  rw [← zpow_natCast, Int.toNat_of_nonneg (by omega), zpow_neg, inv_inv]

/-! ## Quotients -/

/-- A quotient that is nearer than a half to a natural number is rounded to it. -/
theorem roundQuotient_eq {num den k : Nat} (hden : 0 < den) (hlow : (k : ℚ) - 1 / 2 < (num : ℚ) / den)
    (hhigh : (num : ℚ) / den < k + 1 / 2) : roundQuotient num den = k := by
  have hpos : (0 : ℚ) < den := by exact_mod_cast hden
  rw [lt_div_iff₀ hpos] at hlow
  rw [div_lt_iff₀ hpos] at hhigh
  have hlow' : 2 * k * den < 2 * num + den := by
    have hcast : (2 * k * den : ℚ) < 2 * num + den := by linarith
    exact_mod_cast hcast
  have hhigh' : 2 * num < 2 * k * den + den := by
    have hcast : (2 * num : ℚ) < 2 * k * den + den := by linarith
    exact_mod_cast hcast
  have hnum := Nat.div_add_mod num den
  have hrest := Nat.mod_lt num hden
  unfold roundQuotient
  generalize num / den = quotient at hnum ⊢
  generalize num % den = rest at hnum hrest ⊢
  have hfrom : k ≤ quotient + 1 := by
    by_contra hfar
    have hmul := Nat.mul_le_mul_right den (show quotient + 2 ≤ k by omega)
    grind
  have hto : quotient ≤ k := by
    by_contra hfar
    have hmul := Nat.mul_le_mul_right den (show k + 1 ≤ quotient by omega)
    grind
  rcases Nat.lt_or_ge k (quotient + 1) with hbelow | habove
  · obtain rfl : k = quotient := by omega
    rw [if_pos (by grind)]
  · obtain rfl : k = quotient + 1 := by omega
    rw [if_neg (by grind), if_pos (by grind)]

/-- Only the value of a quotient counts. -/
theorem roundQuotient_mul {num den factor : Nat} (hfactor : 0 < factor) :
    roundQuotient (factor * num) (factor * den) = roundQuotient num den := by
  simp only [roundQuotient, Nat.mul_div_mul_left _ _ hfactor, Nat.mul_mod_mul_left,
    Nat.mul_left_comm 2 factor, Nat.mul_lt_mul_left hfactor]

namespace Binary64

/-! ## Fractions -/

theorem scale_den_pos {num den : Nat} (hden : 0 < den) (shift : Int) : 0 < (scale num den shift).2 := by
  unfold scale
  split
  · exact hden
  · exact Nat.mul_pos hden (Nat.pow_pos (by decide))

theorem scale_value (num den : Nat) (shift : Int) :
    ((scale num den shift).1 : ℚ) / (scale num den shift).2 = num / den * 2 ^ shift := by
  unfold scale
  split
  · next hup =>
      rw [zpow_of_nonneg 2 hup]
      push_cast [Nat.pow_eq]
      ring
  · next hdown =>
      rw [zpow_of_neg 2 hdown]
      push_cast [Nat.pow_eq]
      rw [div_mul_eq_div_div, div_eq_mul_inv]

theorem two_pow_log2_le {n : Nat} (hn : 0 < n) : (2 : ℚ) ^ (n.log2 : Int) ≤ n := by
  rw [zpow_natCast]
  exact_mod_cast Nat.log2_self_le (by omega)

theorem lt_two_pow_log2 (n : Nat) : (n : ℚ) < 2 ^ ((n.log2 : Int) + 1) := by
  have hlt := Nat.lt_log2_self (n := n)
  exact_mod_cast hlt

/-- A fraction lies between its power of two and the next one. -/
theorem binaryExponent_spec {num den : Nat} (hnum : 0 < num) (hden : 0 < den) :
    (2 : ℚ) ^ binaryExponent num den ≤ num / den ∧
      (num / den : ℚ) < 2 ^ (binaryExponent num den + 1) := by
  have hpos : (0 : ℚ) < den := by exact_mod_cast hden
  have htwo : (2 : ℚ) ≠ 0 := by norm_num
  have hscaled : ∀ guess : Int, (scale num den (-guess)).2 ≤ (scale num den (-guess)).1 ↔
      (2 : ℚ) ^ guess ≤ num / den := by
    intro guess
    have hvalue := scale_value num den (-guess)
    have hscaledPos : (0 : ℚ) < (scale num den (-guess)).2 := by
      exact_mod_cast scale_den_pos hden (-guess)
    rw [← Nat.cast_le (α := ℚ), ← one_le_div₀ hscaledPos, hvalue, zpow_neg, ← div_eq_mul_inv,
      one_le_div₀ (by positivity)]
  have habove : (num / den : ℚ) < 2 ^ ((num.log2 : Int) - den.log2 + 1) := by
    rw [div_lt_iff₀ hpos]
    calc (num : ℚ) < 2 ^ ((num.log2 : Int) + 1) := lt_two_pow_log2 num
      _ = 2 ^ ((num.log2 : Int) - den.log2 + 1) * 2 ^ (den.log2 : Int) := by
        rw [← zpow_add₀ htwo]
        congr 1
        omega
      _ ≤ 2 ^ ((num.log2 : Int) - den.log2 + 1) * den :=
        mul_le_mul_of_nonneg_left (two_pow_log2_le hden) (by positivity)
  have hbelow : (2 : ℚ) ^ ((num.log2 : Int) - den.log2 - 1) ≤ num / den := by
    rw [le_div_iff₀ hpos]
    calc (2 : ℚ) ^ ((num.log2 : Int) - den.log2 - 1) * den
        ≤ 2 ^ ((num.log2 : Int) - den.log2 - 1) * 2 ^ ((den.log2 : Int) + 1) :=
          mul_le_mul_of_nonneg_left (lt_two_pow_log2 den).le (by positivity)
      _ = 2 ^ (num.log2 : Int) := by
        rw [← zpow_add₀ htwo]
        congr 1
        omega
      _ ≤ num := two_pow_log2_le hnum
  simp only [binaryExponent, hscaled]
  split
  · next hguess => exact ⟨hguess, habove⟩
  · next hguess =>
      rw [sub_add_cancel]
      exact ⟨hbelow, not_le.mp hguess⟩

theorem binaryExponent_eq {num den : Nat} {exponent : Int} (hnum : 0 < num) (hden : 0 < den)
    (hlow : (2 : ℚ) ^ exponent ≤ num / den) (hhigh : (num / den : ℚ) < 2 ^ (exponent + 1)) :
    binaryExponent num den = exponent := by
  obtain ⟨hfrom, hto⟩ := binaryExponent_spec hnum hden
  have hle := (zpow_lt_zpow_iff_right₀ (by norm_num : (1 : ℚ) < 2)).mp (hfrom.trans_lt hhigh)
  have hge := (zpow_lt_zpow_iff_right₀ (by norm_num : (1 : ℚ) < 2)).mp (hlow.trans_lt hto)
  omega

theorem binaryExponent_mul {num den factor : Nat} (hnum : 0 < num) (hden : 0 < den)
    (hfactor : 0 < factor) :
    binaryExponent (factor * num) (factor * den) = binaryExponent num den := by
  have hvalue : ((factor * num : Nat) : ℚ) / (factor * den : Nat) = num / den := by
    push_cast
    exact mul_div_mul_left _ _ (by exact_mod_cast hfactor.ne')
  obtain ⟨hlow, hhigh⟩ := binaryExponent_spec hnum hden
  apply binaryExponent_eq (Nat.mul_pos hfactor hnum) (Nat.mul_pos hfactor hden)
  · rwa [hvalue]
  · rwa [hvalue]

/-- Only the value of a fraction counts. -/
theorem ofFraction_mul {negative : Bool} {num den factor : Nat} (hden : 0 < den)
    (hfactor : 0 < factor) :
    ofFraction negative (factor * num) (factor * den) = ofFraction negative num den := by
  rcases Nat.eq_zero_or_pos num with rfl | hnum
  · simp [ofFraction]
  · have hscale : ∀ shift, scale (factor * num) (factor * den) shift =
        (factor * (scale num den shift).1, factor * (scale num den shift).2) := by
      intro shift
      simp only [scale]
      split <;> simp only [Nat.mul_assoc]
    simp only [ofFraction, binaryExponent_mul hnum hden hfactor, hscale, roundQuotient_mul hfactor,
      Nat.mul_eq_zero, hfactor.ne', false_or]

/-- The sign has no part in reading. -/
theorem ofFraction_negative {num den significand : Nat} {exponent : Int} (negative : Bool)
    (hread : ofFraction false num den = finite false significand exponent) :
    ofFraction negative num den = finite negative significand exponent := by
  unfold ofFraction at hread ⊢
  by_cases hnum : num = 0
  · rw [if_pos hnum] at hread ⊢
    cases hread
    rfl
  · rw [if_neg hnum] at hread ⊢
    dsimp only at hread ⊢
    split_ifs at hread ⊢
    · cases hread
      rfl
    · cases hread
      rfl

/-! ## Finite numbers -/

/-- A finite number above zero has a form: its significand has 53 bits, or its exponent is the least. -/
structure IsForm (significand : Nat) (exponent : Int) : Prop where
  pos : 0 < significand
  lt : significand < 2 ^ 53
  least_le : leastExponent ≤ exponent
  le_greatest : exponent ≤ greatestExponent
  full : 2 ^ 52 ≤ significand ∨ exponent = leastExponent

/-- The fractions that are nearer to a finite number above zero than halfway to its neighbours. Below a
power of two the neighbours are twice as close. -/
structure IsNear (significand : Nat) (exponent : Int) (x : ℚ) : Prop where
  low : ((significand : ℚ) - if significand = 2 ^ 52 then 1 / 4 else 1 / 2) * 2 ^ exponent < x
  high : x < ((significand : ℚ) + 1 / 2) * 2 ^ exponent

theorem IsForm.one_le {significand : Nat} {exponent : Int} (hform : IsForm significand exponent) :
    (1 : ℚ) ≤ significand := by
  exact_mod_cast hform.pos

theorem IsNear.pos {significand : Nat} {exponent : Int} {x : ℚ} (hform : IsForm significand exponent)
    (hnear : IsNear significand exponent x) : 0 < x := by
  have hone := hform.one_le
  have hlow : (0 : ℚ) ≤ (significand : ℚ) - if significand = 2 ^ 52 then 1 / 4 else 1 / 2 := by
    split <;> linarith
  exact (mul_nonneg hlow (by positivity)).trans_lt hnear.low

/-- The significand that is rounded, and the carry into the next exponent. -/
theorem ofFraction_of_rounded {negative : Bool} {num den rounded : Nat} {exponent : Int}
    (hnum : 0 < num) (hexponent : max (binaryExponent num den - 52) leastExponent = exponent)
    (hrounded : roundQuotient (scale num den (-exponent)).1 (scale num den (-exponent)).2 = rounded)
    (hsmall : exponent < greatestExponent ∨ exponent = greatestExponent ∧ rounded ≠ 2 ^ 53) :
    ofFraction negative num den =
      if rounded = 2 ^ 53 then finite negative (2 ^ 52) (exponent + 1)
      else finite negative rounded exponent := by
  simp only [ofFraction, hnum.ne', if_false, hexponent, hrounded, Nat.pow_eq]
  split
  · next hcarry =>
      rw [if_neg]
      omega
  · rw [if_neg]
    omega

/-! ## In units of the last place -/

section Unit

variable {num den significand : Nat} {exponent : Int} {y : ℚ}

/-- The power of two of a fraction that is counted in units. -/
theorem binaryExponent_of_unit (hnum : 0 < num) (hden : 0 < den)
    (hy : (num / den : ℚ) = y * 2 ^ exponent) {shift : Int} (hlow : (2 : ℚ) ^ shift ≤ y)
    (hhigh : y < 2 ^ (shift + 1)) : binaryExponent num den = exponent + shift := by
  have hpower : (0 : ℚ) < 2 ^ exponent := by positivity
  apply binaryExponent_eq hnum hden
  · rw [hy, add_comm, zpow_add₀ (by norm_num)]
    exact mul_le_mul_of_nonneg_right hlow hpower.le
  · rw [hy, add_assoc, add_comm, zpow_add₀ (by norm_num)]
    exact mul_lt_mul_of_pos_right hhigh hpower

theorem binaryExponent_lt_of_unit (hnum : 0 < num) (hden : 0 < den)
    (hy : (num / den : ℚ) = y * 2 ^ exponent) {shift : Int} (hhigh : y < 2 ^ shift) :
    binaryExponent num den < exponent + shift := by
  have hspec := (binaryExponent_spec hnum hden).1
  rw [hy] at hspec
  apply (zpow_lt_zpow_iff_right₀ (by norm_num : (1 : ℚ) < 2)).mp
  apply hspec.trans_lt
  rw [add_comm, zpow_add₀ (by norm_num)]
  exact mul_lt_mul_of_pos_right hhigh (by positivity)

theorem roundQuotient_of_unit (hden : 0 < den) (hy : (num / den : ℚ) = y * 2 ^ exponent)
    (hlow : (significand : ℚ) - 1 / 2 < y) (hhigh : y < significand + 1 / 2) :
    roundQuotient (scale num den (-exponent)).1 (scale num den (-exponent)).2 = significand := by
  have hpower : (0 : ℚ) < 2 ^ exponent := by positivity
  have hvalue : ((scale num den (-exponent)).1 : ℚ) / (scale num den (-exponent)).2 = y := by
    rw [scale_value, hy, zpow_neg, mul_inv_cancel_right₀ hpower.ne']
  apply roundQuotient_eq (scale_den_pos hden _)
  · rwa [hvalue]
  · rwa [hvalue]

/-- Just below a power of two the next smaller exponent is tried first, and the carry restores it. -/
theorem ofFraction_of_carry (negative : Bool) (hnum : 0 < num) (hden : 0 < den)
    (hform : IsForm (2 ^ 52) exponent) (hother : exponent ≠ leastExponent)
    (hy : (num / den : ℚ) = y * 2 ^ exponent) (hlow : (2 : ℚ) ^ 52 - 1 / 4 < y)
    (hhigh : y < 2 ^ 52) : ofFraction negative num den = finite negative (2 ^ 52) exponent := by
  have hleast := hform.least_le
  have hgreatest := hform.le_greatest
  have hbinary := @binaryExponent_of_unit _ _ _ _ hnum hden hy 51 (by norm_num; linarith)
    (by norm_num; linarith)
  have hhalf : (num / den : ℚ) = 2 * y * 2 ^ (exponent - 1) := by
    rw [hy, zpow_sub_one₀ (by norm_num)]
    ring
  have hrounded := @roundQuotient_of_unit _ _ (2 ^ 53) _ _ hden hhalf (by push_cast; linarith)
    (by push_cast; linarith)
  rw [ofFraction_of_rounded hnum (by omega) hrounded (by omega), if_pos rfl, sub_add_cancel]

theorem ofFraction_of_unit (negative : Bool) (hnum : 0 < num) (hden : 0 < den)
    (hform : IsForm significand exponent) (hfull : 2 ^ 52 ≤ y ∨ exponent = leastExponent)
    (hy : (num / den : ℚ) = y * 2 ^ exponent) (hlow : (significand : ℚ) - 1 / 2 < y)
    (hhigh : y < significand + 1 / 2) :
    ofFraction negative num den = finite negative significand exponent := by
  have hleast := hform.least_le
  have hgreatest := hform.le_greatest
  have hlt : (significand : ℚ) + 1 ≤ 2 ^ 53 := by exact_mod_cast hform.lt
  have hexponent : max (binaryExponent num den - 52) leastExponent = exponent := by
    rcases hfull with hfull | hleast
    · have hbinary := @binaryExponent_of_unit _ _ _ _ hnum hden hy 52 (by norm_num; linarith)
        (by norm_num; linarith)
      omega
    · have hbinary := @binaryExponent_lt_of_unit _ _ _ _ hnum hden hy 53 (by norm_num; linarith)
      omega
  have hfits : significand ≠ 2 ^ 53 := hform.lt.ne
  rw [ofFraction_of_rounded hnum hexponent (roundQuotient_of_unit hden hy hlow hhigh) (by omega),
    if_neg hfits]

end Unit

/-- A fraction that is near to a finite number above zero is read as it. -/
theorem ofFraction_eq {num den significand : Nat} {exponent : Int} (negative : Bool)
    (hden : 0 < den) (hform : IsForm significand exponent)
    (hnear : IsNear significand exponent (num / den)) :
    ofFraction negative num den = finite negative significand exponent := by
  have hpower : (0 : ℚ) < 2 ^ exponent := by positivity
  have hnum : 0 < num := by
    have hpos := hnear.pos hform
    rcases Nat.eq_zero_or_pos num with rfl | hnum
    · simp at hpos
    · exact hnum
  obtain ⟨y, hy⟩ : ∃ y : ℚ, (num / den : ℚ) = y * 2 ^ exponent :=
    ⟨num / den / 2 ^ exponent, (div_mul_cancel₀ _ hpower.ne').symm⟩
  have hlow := hnear.low
  have hhigh := hnear.high
  rw [hy] at hlow hhigh
  replace hlow := lt_of_mul_lt_mul_right hlow hpower.le
  replace hhigh := lt_of_mul_lt_mul_right hhigh hpower.le
  have hhalf : (significand : ℚ) - 1 / 2 < y := by
    apply lt_of_le_of_lt _ hlow
    split <;> linarith
  by_cases hcarry : y < 2 ^ 52 ∧ exponent ≠ leastExponent
  · obtain ⟨hbelow, hother⟩ := hcarry
    have hfull := hform.full.resolve_right hother
    obtain rfl : significand = 2 ^ 52 := by
      by_contra hne
      have hmore : (2 ^ 52 : ℚ) + 1 ≤ significand := by
        exact_mod_cast (show 2 ^ 52 + 1 ≤ significand by omega)
      linarith
    rw [if_pos rfl] at hlow
    push_cast at hlow
    exact ofFraction_of_carry negative hnum hden hform hother hy (by linarith) hbelow
  · rw [not_and_or, not_lt, not_not] at hcarry
    exact ofFraction_of_unit negative hnum hden hform hcarry hy hhalf hhigh

end Binary64
end CiPipeline.Number
