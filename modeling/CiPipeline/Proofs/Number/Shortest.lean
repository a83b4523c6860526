import CiPipeline.Number.Shortest
import CiPipeline.Proofs.Number.Rounding

/-!
Decimals of binary numbers. Seventeen digits are enough for a decimal to be read back as the number that it
was made from, so the shortest decimal always is one that reads back.
-/

namespace CiPipeline.Number.Binary64

/-! ## Decimals -/

theorem decimalLength_pos (n : Nat) : 0 < decimalLength n :=
  Nat.length_toDigits_pos

theorem lt_ten_pow_decimalLength (n : Nat) : n < 10 ^ decimalLength n :=
  (Nat.length_toDigits_le_iff (by decide) (decimalLength_pos n)).mp le_rfl

theorem ten_pow_le {n : Nat} (hn : 0 < n) : 10 ^ (decimalLength n - 1) ≤ n := by
  by_contra hlt
  rw [Nat.not_le] at hlt
  rcases Nat.eq_zero_or_pos (decimalLength n - 1) with hone | hmore
  · rw [hone] at hlt
    omega
  · have hshort := (Nat.length_toDigits_le_iff (by decide) hmore).mpr hlt
    have hlength := decimalLength_pos n
    unfold decimalLength at hshort hlength hmore
    omega

/-- One digit more at the end. -/
theorem decimalLength_ten_mul {n : Nat} (hn : 0 < n) : decimalLength (n * 10) = decimalLength n + 1 := by
  have happend := Nat.toDigits_append_toDigits (b := 10) (d := 0) (by decide) hn (by decide)
  rw [Nat.add_zero, Nat.mul_comm] at happend
  rw [decimalLength, ← happend, List.length_append]
  rfl

theorem decimalFraction_den_pos (digits : Nat) (exponent : Int) :
    0 < (decimalFraction digits exponent).2 := by
  unfold decimalFraction
  split
  · exact Nat.one_pos
  · exact Nat.pow_pos (by decide)

theorem decimalFraction_value (digits : Nat) (exponent : Int) :
    ((decimalFraction digits exponent).1 : ℚ) / (decimalFraction digits exponent).2 =
      digits * 10 ^ exponent := by
  unfold decimalFraction
  split
  · next hup =>
      rw [zpow_of_nonneg 10 hup]
      push_cast [Nat.pow_eq]
      ring
  · next hdown =>
      rw [zpow_of_neg 10 hdown]
      push_cast [Nat.pow_eq]
      rw [div_eq_mul_inv]

/-- A decimal lies between the powers of ten that its length and its exponent give. -/
theorem decimal_bounds {digits : Nat} (hdigits : 0 < digits) (exponent : Int) :
    (10 : ℚ) ^ ((decimalLength digits : Int) + exponent - 1) ≤ digits * 10 ^ exponent ∧
      (digits * 10 ^ exponent : ℚ) < 10 ^ ((decimalLength digits : Int) + exponent) := by
  have hlength := decimalLength_pos digits
  have hpower : (0 : ℚ) < 10 ^ exponent := by positivity
  have hlow : (10 : ℚ) ^ ((decimalLength digits : Int) - 1) ≤ digits := by
    have hcast : ((decimalLength digits : Int) - 1) = ((decimalLength digits - 1 : Nat) : Int) := by
      omega
    rw [hcast, zpow_natCast]
    exact_mod_cast ten_pow_le hdigits
  have hhigh : (digits : ℚ) < 10 ^ (decimalLength digits : Int) := by
    rw [zpow_natCast]
    exact_mod_cast lt_ten_pow_decimalLength digits
  constructor
  · rw [add_sub_right_comm, zpow_add₀ (by norm_num)]
    exact mul_le_mul_of_nonneg_right hlow hpower.le
  · rw [zpow_add₀ (by norm_num)]
    exact mul_lt_mul_of_pos_right hhigh hpower

/-- A zero at the end of the digits does not count, if the exponent makes up for it. -/
theorem ofDecimal_mul_ten (negative : Bool) (digits : Nat) (exponent : Int) :
    ofDecimal negative (digits * 10) exponent = ofDecimal negative digits (exponent + 1) := by
  rcases Nat.eq_zero_or_pos digits with rfl | hdigits
  · simp [ofDecimal]
  · have hmagnitude : (decimalLength (digits * 10) : Int) + exponent =
        decimalLength digits + (exponent + 1) := by
      rw [decimalLength_ten_mul hdigits]
      push_cast
      ring
    have hfraction : ofFraction negative (decimalFraction (digits * 10) exponent).1
        (decimalFraction (digits * 10) exponent).2 =
          ofFraction negative (decimalFraction digits (exponent + 1)).1
            (decimalFraction digits (exponent + 1)).2 := by
      rcases lt_or_ge exponent 0 with hneg | hpos
      · obtain ⟨places, rfl⟩ : ∃ places : Nat, exponent = -(places + 1 : Int) :=
          ⟨(-exponent - 1).toNat, by omega⟩
        have hless : decimalFraction digits (-(places + 1 : Int) + 1) = (digits, 10 ^ places) := by
          rcases Nat.eq_zero_or_pos places with rfl | hplaces
          · simp [decimalFraction]
          · rw [decimalFraction, if_neg (by omega), Nat.pow_eq]
            congr 2
            omega
        have hmore : decimalFraction (digits * 10) (-(places + 1 : Int)) =
            (10 * digits, 10 * 10 ^ places) := by
          have hcount : (-(-(places + 1 : Int))).toNat = places + 1 := by omega
          rw [decimalFraction, if_neg (by omega), Nat.pow_eq, hcount, Nat.pow_succ',
            Nat.mul_comm digits]
        rw [hless, hmore]
        exact ofFraction_mul (Nat.pow_pos (by decide)) (by decide)
      · have hcount : (exponent + 1).toNat = exponent.toNat + 1 := by omega
        simp only [decimalFraction, if_pos hpos, if_pos (show 0 ≤ exponent + 1 by omega), hcount,
          Nat.pow_eq, Nat.pow_succ', Nat.mul_assoc]
    simp only [ofDecimal, hmagnitude, hfraction, hdigits.ne', Nat.mul_eq_zero, false_or,
      if_false, OfNat.ofNat_ne_zero]

theorem ofDecimal_mul_ten_pow (negative : Bool) (digits count : Nat) (exponent : Int) :
    ofDecimal negative (digits * 10 ^ count) exponent =
      ofDecimal negative digits (exponent + count) := by
  induction count generalizing digits with
  | zero => simp
  | succ count ih =>
      rw [Nat.pow_succ', ← Nat.mul_assoc, ih, ofDecimal_mul_ten]
      congr 1
      push_cast
      ring

/-- The sign has no part in reading. -/
theorem ofDecimal_negative {digits significand : Nat} {exponent grid : Int} (negative : Bool)
    (hread : ofDecimal false digits grid = finite false significand exponent) :
    ofDecimal negative digits grid = finite negative significand exponent := by
  unfold ofDecimal at hread ⊢
  dsimp only at hread ⊢
  split_ifs at hread ⊢
  · cases hread
    rfl
  · cases hread
    rfl
  · exact ofFraction_negative negative hread

/-- What is near to a finite number is within the range. -/
theorem IsNear.bounds {significand : Nat} {exponent : Int} {x : ℚ} (hform : IsForm significand exponent)
    (hnear : IsNear significand exponent x) : (2 : ℚ) ^ (-1075 : Int) < x ∧ x < 2 ^ (1024 : Int) := by
  have hone := hform.one_le
  have hpower : (0 : ℚ) < 2 ^ exponent := by positivity
  constructor
  · have hhalf : (1 / 2 : ℚ) ≤ (significand : ℚ) - if significand = 2 ^ 52 then 1 / 4 else 1 / 2 := by
      split <;> linarith
    have hleast : (2 : ℚ) ^ (-1074 : Int) ≤ 2 ^ exponent :=
      zpow_le_zpow_right₀ (by norm_num) hform.least_le
    calc (2 : ℚ) ^ (-1075 : Int) = 1 / 2 * 2 ^ (-1074 : Int) := by
          rw [show (-1075 : Int) = -1 + -1074 by norm_num, zpow_add₀ (by norm_num), zpow_neg_one,
            one_div]
      _ ≤ 1 / 2 * 2 ^ exponent := mul_le_mul_of_nonneg_left hleast (by norm_num)
      _ ≤ _ := mul_le_mul_of_nonneg_right hhalf hpower.le
      _ < x := hnear.low
  · have hlt : (significand : ℚ) + 1 ≤ 2 ^ (53 : Int) := by exact_mod_cast hform.lt
    have hgreatest : (2 : ℚ) ^ exponent ≤ 2 ^ (971 : Int) :=
      zpow_le_zpow_right₀ (by norm_num) hform.le_greatest
    calc x < ((significand : ℚ) + 1 / 2) * 2 ^ exponent := hnear.high
      _ ≤ 2 ^ (53 : Int) * 2 ^ exponent := mul_le_mul_of_nonneg_right (by linarith) hpower.le
      _ ≤ 2 ^ (53 : Int) * 2 ^ (971 : Int) := mul_le_mul_of_nonneg_left hgreatest (by positivity)
      _ = 2 ^ (1024 : Int) := by
        rw [← zpow_add₀ (by norm_num)]
        norm_num only

theorem two_zpow_le_ten_zpow : (2 : ℚ) ^ (1200 : Int) ≤ 10 ^ (400 : Int) := by
  rw [show (1200 : Int) = 3 * 400 by norm_num, zpow_mul]
  exact zpow_le_zpow_left₀ (by norm_num) (by norm_num) (by norm_num)

/-- A decimal that is near to a finite number above zero is read as it. -/
theorem ofDecimal_eq {digits significand : Nat} {exponent grid : Int} (negative : Bool)
    (hform : IsForm significand exponent)
    (hnear : IsNear significand exponent (digits * 10 ^ grid)) :
    ofDecimal negative digits grid = finite negative significand exponent := by
  have hpos := hnear.pos hform
  have hdigits : 0 < digits := by
    rcases Nat.eq_zero_or_pos digits with rfl | hdigits
    · simp at hpos
    · exact hdigits
  obtain ⟨hlow, hhigh⟩ := decimal_bounds hdigits grid
  obtain ⟨hleast, hgreatest⟩ := hnear.bounds hform
  have hlarge : ¬ (decimalLength digits : Int) + grid > 400 := by
    intro hmagnitude
    have hten : (10 : ℚ) ^ (400 : Int) ≤ 10 ^ ((decimalLength digits : Int) + grid - 1) :=
      zpow_le_zpow_right₀ (by norm_num) (by omega)
    have htwo : (2 : ℚ) ^ (1024 : Int) ≤ 2 ^ (1200 : Int) :=
      zpow_le_zpow_right₀ (by norm_num) (by norm_num)
    exact absurd (hlow.trans_lt hgreatest)
      (not_lt.mpr (htwo.trans (two_zpow_le_ten_zpow.trans hten)))
  have hsmall : ¬ (decimalLength digits : Int) + grid < -400 := by
    intro hmagnitude
    have hten : (10 : ℚ) ^ ((decimalLength digits : Int) + grid) ≤ 10 ^ (-400 : Int) :=
      zpow_le_zpow_right₀ (by norm_num) (by omega)
    have hinverse : (10 : ℚ) ^ (-400 : Int) ≤ 2 ^ (-1200 : Int) := by
      rw [zpow_neg, zpow_neg]
      exact inv_anti₀ (by positivity) two_zpow_le_ten_zpow
    have htwo : (2 : ℚ) ^ (-1200 : Int) ≤ 2 ^ (-1075 : Int) :=
      zpow_le_zpow_right₀ (by norm_num) (by norm_num)
    exact absurd (hleast.trans hhigh) (not_lt.mpr (hten.trans (hinverse.trans htwo)))
  rw [ofDecimal, if_neg hdigits.ne']
  dsimp only
  rw [if_neg hlarge, if_neg hsmall]
  apply ofFraction_eq negative (decimalFraction_den_pos digits grid) hform
  rwa [decimalFraction_value]

/-! ## Seventeen digits -/

theorem decimalExponent_spec {num den : Nat} (hnum : 0 < num) (hden : 0 < den) :
    (10 : ℚ) ^ decimalExponent num den ≤ num / den ∧
      (num / den : ℚ) < 10 ^ (decimalExponent num den + 1) := by
  have hnum' : (0 : ℚ) < num := by exact_mod_cast hnum
  have hden' : (0 : ℚ) < den := by exact_mod_cast hden
  rw [le_div_iff₀ hden', div_lt_iff₀ hden']
  unfold decimalExponent
  split
  · next hle =>
      have hwhole := Nat.div_pos hle hden
      have hlow := ten_pow_le hwhole
      have hhigh := lt_ten_pow_decimalLength (num / den)
      rw [Nat.le_div_iff_mul_le hden] at hlow
      rw [Nat.div_lt_iff_lt_mul hden] at hhigh
      have hcast : ((decimalLength (num / den) : Int) - 1) =
          ((decimalLength (num / den) - 1 : Nat) : Int) := by
        have hlength := decimalLength_pos (num / den)
        omega
      rw [sub_add_cancel, hcast, zpow_natCast, zpow_natCast]
      exact ⟨by exact_mod_cast hlow, by exact_mod_cast hhigh⟩
  · next hlt =>
      rw [Nat.not_le] at hlt
      have hwhole : 0 < (den - 1) / num := Nat.div_pos (by omega) hnum
      have hlow := ten_pow_le hwhole
      have hhigh := lt_ten_pow_decimalLength ((den - 1) / num)
      rw [Nat.le_div_iff_mul_le hnum] at hlow
      rw [Nat.div_lt_iff_lt_mul hnum] at hhigh
      have hcast : (-(decimalLength ((den - 1) / num) : Int) + 1) =
          -((decimalLength ((den - 1) / num) - 1 : Nat) : Int) := by
        have hlength := decimalLength_pos ((den - 1) / num)
        omega
      rw [hcast, zpow_neg, zpow_neg, zpow_natCast, zpow_natCast, inv_mul_le_iff₀ (by positivity),
        lt_inv_mul_iff₀ (by positivity)]
      constructor
      · exact_mod_cast (show den ≤ 10 ^ decimalLength ((den - 1) / num) * num by omega)
      · exact_mod_cast (show 10 ^ (decimalLength ((den - 1) / num) - 1) * num < den by omega)

/-- Of two neighbours one is not farther away than a half. -/
theorem near_or_near_succ {n den : Nat} (hden : 0 < den) :
    |((n / den : Nat) : ℚ) - n / den| ≤ 1 / 2 ∨ |((n / den + 1 : Nat) : ℚ) - n / den| ≤ 1 / 2 := by
  have hden' : (0 : ℚ) < den := by exact_mod_cast hden
  have hlow : ((n / den : Nat) : ℚ) ≤ n / den := by
    rw [le_div_iff₀ hden']
    exact_mod_cast Nat.div_mul_le_self n den
  have hhigh : (n / den : ℚ) < ((n / den : Nat) : ℚ) + 1 := by
    rw [div_lt_iff₀ hden']
    have hlt := Nat.lt_div_mul_add (a := n) hden
    have hcast : n < (n / den + 1) * den := by
      rw [Nat.add_mul, Nat.one_mul]
      exact hlt
    exact_mod_cast hcast
  rcases le_total ((n / den : ℚ) - (n / den : Nat)) (1 / 2) with hnear | hfar
  · left
    rw [abs_le]
    constructor <;> linarith
  · right
    push_cast
    rw [abs_le]
    constructor <;> linarith

/-- A step of the sixteenth digit behind the first one is smaller than the gap between two numbers. -/
theorem isNear_of_abs_le {significand : Nat} {exponent grid : Int} {q : ℚ}
    (hform : IsForm significand exponent) (hgrid : (10 : ℚ) ^ (grid + 16) ≤ significand * 2 ^ exponent)
    (hnear : |q - significand * 2 ^ exponent / 10 ^ grid| ≤ 1 / 2) :
    IsNear significand exponent (q * 10 ^ grid) := by
  have hstep : (0 : ℚ) < 10 ^ grid := by positivity
  have hpower : (0 : ℚ) < 2 ^ exponent := by positivity
  rw [zpow_add₀ (by norm_num)] at hgrid
  obtain ⟨hlow, hhigh⟩ := abs_le.mp hnear
  have hfrom : significand * 2 ^ exponent - 1 / 2 * 10 ^ grid ≤ q * 10 ^ grid := by
    have hmul := mul_le_mul_of_nonneg_right hlow hstep.le
    rw [sub_mul, div_mul_cancel₀ _ hstep.ne'] at hmul
    linarith
  have hto : q * 10 ^ grid ≤ significand * 2 ^ exponent + 1 / 2 * 10 ^ grid := by
    have hmul := mul_le_mul_of_nonneg_right hhigh hstep.le
    rw [sub_mul, div_mul_cancel₀ _ hstep.ne'] at hmul
    linarith
  have hlt : (significand : ℚ) * 2 ^ exponent ≤ 2 ^ 53 * 2 ^ exponent :=
    mul_le_mul_of_nonneg_right (by exact_mod_cast hform.lt.le) hpower.le
  norm_num at hgrid hlt
  constructor
  · rw [sub_mul]
    split
    · next htwo =>
        rw [htwo] at hgrid hfrom ⊢
        norm_num at hgrid hfrom ⊢
        linarith
    · linarith
  · rw [add_mul]
    linarith

theorem chooseNeighbour_cases {num den low : Nat} {lowReads highReads : Bool} :
    (chooseNeighbour num den low lowReads highReads).isSome = (lowReads || highReads) ∧
      ∀ digits ∈ chooseNeighbour num den low lowReads highReads,
        digits = low ∧ lowReads = true ∨ digits = low + 1 ∧ highReads = true := by
  cases lowReads <;> cases highReads
  · simp [chooseNeighbour]
  · simp [chooseNeighbour]
  · simp [chooseNeighbour]
  · simp only [chooseNeighbour]
    split <;> simp

/-- A decimal of some length reads back. -/
theorem ofDecimal_of_decimalOfLength? {significand count digits : Nat} {exponent grid : Int}
    (hdecimal : decimalOfLength? significand exponent count = some (digits, grid)) :
    ofDecimal false digits grid = finite false significand exponent := by
  simp only [decimalOfLength?, Option.map_eq_some_iff] at hdecimal
  obtain ⟨own, hown, ⟨⟩⟩ := hdecimal
  rcases chooseNeighbour_cases.2 _ hown with ⟨rfl, hreads⟩ | ⟨rfl, hreads⟩
  · exact eq_of_beq hreads
  · exact eq_of_beq hreads

/-- A fraction in units of a power of ten. -/
def onGrid (num den : Nat) (grid : Int) : Nat × Nat :=
  if 0 ≤ grid then (num, den * 10 ^ grid.toNat) else (num * 10 ^ (-grid).toNat, den)

theorem onGrid_den_pos {num den : Nat} (hden : 0 < den) (grid : Int) : 0 < (onGrid num den grid).2 := by
  unfold onGrid
  split
  · exact Nat.mul_pos hden (Nat.pow_pos (by decide))
  · exact hden

theorem onGrid_value (num den : Nat) (grid : Int) :
    ((onGrid num den grid).1 : ℚ) / (onGrid num den grid).2 = num / den / 10 ^ grid := by
  unfold onGrid
  split
  · next hup =>
      rw [zpow_of_nonneg 10 hup]
      push_cast
      rw [div_div]
  · next hdown =>
      rw [zpow_of_neg 10 hdown, div_inv_eq_mul]
      push_cast
      ring

/-- There is a decimal of some length where one of two neighbours reads back. -/
theorem isSome_decimalOfLength? {significand num den n d count : Nat} {exponent grid : Int}
    (hfraction : fraction significand exponent = (num, den))
    (hgrid : decimalExponent num den + 1 - count = grid) (hon : onGrid num den grid = (n, d)) :
    (decimalOfLength? significand exponent count).isSome =
      (ofDecimal false (n / d) grid == finite false significand exponent ||
        ofDecimal false (n / d + 1) grid == finite false significand exponent) := by
  unfold onGrid at hon
  rw [decimalOfLength?, hfraction]
  dsimp only
  rw [hgrid]
  simp only [Nat.pow_eq, hon, Option.isSome_map, chooseNeighbour_cases.1]

/-- Seventeen digits are enough. -/
theorem isSome_decimalOfLength?_seventeen {significand : Nat} {exponent : Int}
    (hform : IsForm significand exponent) : (decimalOfLength? significand exponent 17).isSome := by
  have hone : ((1 : Nat) : ℚ) = 1 := Nat.cast_one
  have hvalue := scale_value significand 1 exponent
  have hden := @scale_den_pos significand 1 Nat.one_pos exponent
  cases hfraction : scale significand 1 exponent with
  | mk num den =>
  rw [hfraction] at hvalue hden
  rw [hone, div_one] at hvalue
  dsimp only at hvalue hden
  have hpos : (0 : ℚ) < significand * 2 ^ exponent :=
    mul_pos (by linarith [hform.one_le]) (by positivity)
  have hnum : 0 < num := by
    rcases Nat.eq_zero_or_pos num with rfl | hnum
    · simp [← hvalue] at hpos
    · exact hnum
  have hgrid : (10 : ℚ) ^ (decimalExponent num den + 1 - (17 : Nat) + 16) ≤
      significand * 2 ^ exponent := by
    have hspec := (decimalExponent_spec hnum hden).1
    rw [hvalue] at hspec
    have hsame : decimalExponent num den + 1 - (17 : Nat) + 16 = decimalExponent num den := by omega
    rwa [hsame]
  generalize hstep : decimalExponent num den + 1 - (17 : Nat) = grid at hgrid
  have hgridDen := @onGrid_den_pos num den hden grid
  have hgridValue := onGrid_value num den grid
  cases hon : onGrid num den grid with
  | mk n d =>
  rw [hon] at hgridDen hgridValue
  rw [hvalue] at hgridValue
  dsimp only at hgridDen hgridValue
  rw [isSome_decimalOfLength? hfraction hstep hon]
  have hreads : ∀ digits : Nat, |(digits : ℚ) - n / d| ≤ 1 / 2 →
      (ofDecimal false digits grid == finite false significand exponent) = true := by
    intro digits hnear
    rw [hgridValue] at hnear
    rw [beq_iff_eq]
    exact ofDecimal_eq false hform (isNear_of_abs_le hform hgrid hnear)
  rcases near_or_near_succ hgridDen with hnear | hnear
  · rw [hreads _ hnear, Bool.true_or]
  · rw [hreads _ hnear, Bool.or_true]

/-- The shortest decimal of a finite number above zero is read back as it. -/
theorem ofDecimal_shortestDecimal {significand : Nat} {exponent : Int} (negative : Bool)
    (hform : IsForm significand exponent) :
    ofDecimal negative (shortestDecimal significand exponent).1
      (shortestDecimal significand exponent).2 = finite negative significand exponent := by
  apply ofDecimal_negative
  unfold shortestDecimal
  cases hfound : (List.range' 1 17).findSome? fun count =>
      decimalOfLength? significand exponent count with
  | none =>
      have hnone := List.findSome?_eq_none_iff.mp hfound 17 (by simp)
      have hsome := isSome_decimalOfLength?_seventeen hform
      rw [hnone] at hsome
      cases hsome
  | some decimal =>
      obtain ⟨count, _, hdecimal⟩ := List.exists_of_findSome?_eq_some hfound
      exact ofDecimal_of_decimalOfLength? hdecimal

end CiPipeline.Number.Binary64
