import CiPipeline.Proofs.Number.Numeral

/-!
The plain text of a binary number is read as that number. Positional and scientific notation both write the
digits of the shortest decimal, which reads back; zeros at the end of the digits do not count.
-/

namespace CiPipeline.Number

variable {digits tail : List Char}

/-! ## Reading a decimal -/

/-- The digits behind a point, and the rest. -/
def spanPlaces : List Char → List Nat × List Char
  | '.' :: rest => spanDigits rest
  | rest => ([], rest)

theorem spanPlaces_of_ne (hends : tail.head? ≠ some '.') : spanPlaces tail = ([], tail) := by
  unfold spanPlaces
  split
  · exact absurd rfl hends
  · rfl

theorem decimal?_eq {whole places : List Nat} {s rest : List Char} (hwhole : spanDigits s = (whole, rest))
    (hplaces : spanPlaces rest = (places, tail)) (hne : whole ≠ []) :
    decimal? s = (exponent? tail).map fun exponent : Int =>
      (Text.ofDigits (whole ++ places), exponent - places.length) := by
  have hfull : (!(whole.isEmpty && places.isEmpty)) = true := by
    rw [List.isEmpty_eq_false_iff.mpr hne]
    rfl
  have hopen : decimal? s = (do
      guard (!((spanDigits s).1.isEmpty && (spanPlaces (spanDigits s).2).1.isEmpty))
      let exponent ← exponent? (spanPlaces (spanDigits s).2).2
      return (Text.ofDigits ((spanDigits s).1 ++ (spanPlaces (spanDigits s).2).1),
        exponent - (spanPlaces (spanDigits s).2).1.length)) := rfl
  rw [hopen, hwhole, hplaces]
  simp only [hfull, guard, if_true]
  cases exponent? tail <;> rfl

theorem digitValues_ne_nil (hne : digits ≠ []) : digitValues digits ≠ [] := by
  rwa [digitValues, ne_eq, List.map_eq_nil_iff]

/-- A text of digits, a point and digits, and what may follow. -/
theorem decimal?_point {places : List Char} (hne : digits ≠ [])
    (hdigits : ∀ c ∈ digits, c.isDigit = true) (hplaces : ∀ c ∈ places, c.isDigit = true)
    (hends : ∀ c ∈ tail.head?, c.isDigit = false) :
    decimal? (digits ++ '.' :: (places ++ tail)) =
      (exponent? tail).map fun exponent : Int =>
        (Nat.ofDigitChars 10 (digits ++ places) 0, exponent - places.length) := by
  have hpoint : ∀ c ∈ ('.' :: (places ++ tail)).head?, c.isDigit = false := by
    intro c hc
    cases hc
    rfl
  have hjoined : digitValues digits ++ digitValues places = digitValues (digits ++ places) := by
    rw [digitValues, digitValues, digitValues, List.map_append]
  have hlength : (digitValues places).length = places.length := List.length_map _
  rw [decimal?_eq (spanDigits_append hdigits hpoint) (spanDigits_append hplaces hends)
    (digitValues_ne_nil hne), hjoined, ofDigits_digitValues, hlength]

/-- A text of digits without a point, and what may follow. -/
theorem decimal?_whole (hne : digits ≠ []) (hdigits : ∀ c ∈ digits, c.isDigit = true)
    (hends : ∀ c ∈ tail.head?, c.isDigit = false ∧ c ≠ '.') :
    decimal? (digits ++ tail) =
      (exponent? tail).map fun exponent : Int => (Nat.ofDigitChars 10 digits 0, exponent) := by
  rw [decimal?_eq (spanDigits_append hdigits fun c hc => (hends c hc).1)
    (spanPlaces_of_ne fun hpoint => (hends '.' hpoint).2 rfl) (digitValues_ne_nil hne),
    List.append_nil, ofDigits_digitValues]
  simp only [List.length_nil, Nat.cast_zero, sub_zero]

theorem ofDigitChars_zeros (count : Nat) (digits : List Char) :
    Nat.ofDigitChars 10 (List.replicate count '0' ++ digits) 0 = Nat.ofDigitChars 10 digits 0 := by
  rw [Nat.ofDigitChars_append, Nat.ofDigitChars_replicate_zero, Nat.mul_zero]

theorem ofDigitChars_append_zeros (digits : List Char) (count : Nat) :
    Nat.ofDigitChars 10 (digits ++ List.replicate count '0') 0 =
      Nat.ofDigitChars 10 digits 0 * 10 ^ count := by
  rw [Nat.ofDigitChars_append, Nat.ofDigitChars_replicate_zero, Nat.mul_comm]

theorem isDigit_of_mem_replicate {count : Nat} {c : Char} (hc : c ∈ List.replicate count '0') :
    c.isDigit = true := by
  rw [(List.mem_replicate.mp hc).2]
  decide

theorem isDigit_of_mem_zero : ∀ c ∈ ['0'], c.isDigit = true := by
  intro c hc
  rw [List.mem_singleton.mp hc]
  decide

theorem exponent?_exponentText (n : Int) : exponent? ('e' :: Binary64.exponentText n) = some n := by
  have hall : ∀ c ∈ List.replicate (2 - (Nat.toDigits 10 n.natAbs).length) '0' ++
      Nat.toDigits 10 n.natAbs, c.isDigit = true := by
    intro c hc
    rcases List.mem_append.mp hc with hzero | hdigit
    · exact isDigit_of_mem_replicate hzero
    · exact isDigit_of_mem_toDigits hdigit
  have hsplit : splitSign (Binary64.exponentText n) =
      (decide (n < 0), List.replicate (2 - (Nat.toDigits 10 n.natAbs).length) '0' ++
        Nat.toDigits 10 n.natAbs) := by
    rw [Binary64.exponentText]
    split
    · next hneg => rw [decide_eq_true hneg]; rfl
    · next hpos => rw [decide_eq_false hpos]; rfl
  have hspan := @spanDigits_append _ [] hall (by simp)
  rw [List.append_nil] at hspan
  have hfull : (digitValues (List.replicate (2 - (Nat.toDigits 10 n.natAbs).length) '0' ++
      Nat.toDigits 10 n.natAbs)).isEmpty = false := by
    rw [List.isEmpty_eq_false_iff]
    exact digitValues_ne_nil (List.append_ne_nil_of_right_ne_nil _ Nat.toDigits_ne_nil)
  simp only [exponent?, hsplit, hspan, hfull, ofDigits_digitValues, ofDigitChars_zeros,
    Nat.ofDigitChars_ten_toDigits, signed_natAbs]
  rfl

/-! ## Notations -/

namespace Binary64

/-- A text writes a decimal, with some zeros more at its end. -/
def Writes (s : List Char) (digits : Nat) (grid : Int) : Prop :=
  ∃ zeros : Nat, decimal? s = some (digits * 10 ^ zeros, grid - zeros)

theorem Writes.floatLiteral? {s : List Char} {value significand : Nat} {exponent grid : Int}
    (negative : Bool) (hwrites : Writes s value grid) (hsign : splitSign s = (false, s))
    (hread : ofDecimal negative value grid = finite negative significand exponent) :
    Number.floatLiteral? ((if negative then ['-'] else []) ++ s) =
      some (finite negative significand exponent) := by
  obtain ⟨zeros, hdecimal⟩ := hwrites
  have hsplit : splitSign ((if negative then ['-'] else []) ++ s) = (negative, s) := by
    cases negative
    · exact hsign
    · rfl
  have hvalue := ofDecimal_mul_ten_pow negative value zeros (grid - zeros)
  rw [sub_add_cancel, hread] at hvalue
  simp only [Number.floatLiteral?, hsplit, hdecimal, hvalue]

theorem writes_positional (hne : digits ≠ []) (hdigits : ∀ c ∈ digits, c.isDigit = true)
    (leading : Int) :
    Writes (positional digits leading) (Nat.ofDigitChars 10 digits 0) (leading + 1 - digits.length) := by
  have hlength := List.length_pos_iff.mpr hne
  unfold positional
  split
  · next hneg =>
      have hplaces : ∀ c ∈ List.replicate (-leading - 1).toNat '0' ++ digits, c.isDigit = true := by
        intro c hc
        rcases List.mem_append.mp hc with hzero | hdigit
        · exact isDigit_of_mem_replicate hzero
        · exact hdigits c hdigit
      have hread := @decimal?_point ['0'] [] _ (by simp) isDigit_of_mem_zero hplaces (by simp)
      have hvalue := ofDigitChars_zeros ((-leading - 1).toNat + 1) digits
      rw [List.replicate_succ, List.cons_append] at hvalue
      rw [List.append_nil, List.cons_append, List.nil_append, List.cons_append, List.nil_append,
        hvalue, exponent?, Option.map_some] at hread
      refine ⟨0, hread.trans ?_⟩
      rw [List.length_append, List.length_replicate, Nat.pow_zero, Nat.mul_one]
      congr 2
      push_cast
      omega
  · next hpos =>
      dsimp only
      split
      · next hshort =>
          have hpadded : ∀ c ∈ digits ++ List.replicate (leading.toNat + 1 - digits.length) '0',
              c.isDigit = true := by
            intro c hc
            rcases List.mem_append.mp hc with hdigit | hzero
            · exact hdigits c hdigit
            · exact isDigit_of_mem_replicate hzero
          have hread := @decimal?_point _ [] ['0'] (List.append_ne_nil_of_left_ne_nil hne _) hpadded
            isDigit_of_mem_zero (by simp)
          have hvalue : Nat.ofDigitChars 10
              (digits ++ List.replicate (leading.toNat + 1 - digits.length) '0' ++ ['0']) 0 =
                Nat.ofDigitChars 10 digits 0 * 10 ^ (leading.toNat + 1 - digits.length + 1) := by
            rw [List.append_assoc, ← List.replicate_succ', ofDigitChars_append_zeros]
          rw [List.append_nil, hvalue, exponent?, Option.map_some] at hread
          refine ⟨leading.toNat + 1 - digits.length + 1, hread.trans ?_⟩
          congr 2
          push_cast [List.length_singleton]
          omega
      · next hlong =>
          have hread := @decimal?_point (digits.take (leading.toNat + 1)) []
            (digits.drop (leading.toNat + 1)) (by simp [hne])
            (fun c hc => hdigits c (List.mem_of_mem_take hc))
            (fun c hc => hdigits c (List.mem_of_mem_drop hc)) (by simp)
          rw [List.append_nil, List.take_append_drop, exponent?, Option.map_some] at hread
          refine ⟨0, hread.trans ?_⟩
          rw [List.length_drop, Nat.pow_zero, Nat.mul_one]
          congr 2
          push_cast
          omega

theorem writes_scientific (hne : digits ≠ []) (hdigits : ∀ c ∈ digits, c.isDigit = true)
    (leading : Int) :
    Writes (scientific digits leading) (Nat.ofDigitChars 10 digits 0) (leading + 1 - digits.length) := by
  have hmark : ∀ c ∈ ('e' :: exponentText leading).head?, c.isDigit = false ∧ c ≠ '.' := by
    intro c hc
    cases hc
    exact ⟨by decide, by decide⟩
  unfold scientific
  split
  · exact absurd rfl hne
  · next digit =>
      have hread := decimal?_whole hne hdigits hmark
      rw [exponent?_exponentText, Option.map_some] at hread
      refine ⟨0, hread.trans ?_⟩
      simp
  · next digit rest _ =>
      rw [List.forall_mem_cons] at hdigits
      have hread := @decimal?_point [digit] _ rest (by simp) (by simpa using hdigits.1) hdigits.2
        fun c hc => (hmark c hc).1
      rw [exponent?_exponentText, Option.map_some] at hread
      refine ⟨0, hread.trans ?_⟩
      rw [Nat.pow_zero, Nat.mul_one, List.singleton_append]
      congr 2
      push_cast [List.length_cons]
      omega

theorem exists_dropTrailingZeros (digits : List Char) :
    ∃ count, digits = dropTrailingZeros digits ++ List.replicate count '0' := by
  have hsplit := congrArg List.reverse
    (List.takeWhile_append_dropWhile (p := fun c : Char => decide (c = '0')) (l := digits.reverse))
  rw [List.reverse_append, List.reverse_reverse] at hsplit
  have hzeros : ∀ c ∈ (digits.reverse.takeWhile fun c : Char => decide (c = '0')).reverse, c = '0' := by
    intro c hc
    exact of_decide_eq_true (List.all_eq_true.mp List.all_takeWhile c (List.mem_reverse.mp hc))
  rw [List.eq_replicate_of_mem hzeros] at hsplit
  exact ⟨_, hsplit.symm⟩

theorem isDigit_of_mem_dropTrailingZeros {n : Nat} {c : Char}
    (hc : c ∈ dropTrailingZeros (Nat.toDigits 10 n)) : c.isDigit = true := by
  obtain ⟨count, hcount⟩ := exists_dropTrailingZeros (Nat.toDigits 10 n)
  apply isDigit_of_mem_toDigits (n := n)
  rw [hcount]
  exact List.mem_append_left _ hc

/-- A finite number: zero, or a number with a form. -/
def IsFinite (significand : Nat) (exponent : Int) : Prop :=
  significand = 0 ∧ exponent = leastExponent ∨ IsForm significand exponent

/-- The text of a finite number writes a decimal that reads back. -/
theorem writes_magnitudeText {significand : Nat} {exponent : Int} (hfinite : IsFinite significand exponent) :
    ∃ value grid, Writes (magnitudeText significand exponent) value grid ∧
      ∀ negative, ofDecimal negative value grid = finite negative significand exponent := by
  rcases hfinite with ⟨rfl, rfl⟩ | hform
  · exact ⟨0, 0, ⟨1, by decide⟩, fun _ => rfl⟩
  · have hreads := fun negative => ofDecimal_shortestDecimal negative hform
    rw [magnitudeText, if_neg hform.pos.ne']
    generalize shortestDecimal significand exponent = decimal at hreads ⊢
    obtain ⟨number, grid⟩ := decimal
    dsimp only at hreads ⊢
    obtain ⟨count, hcount⟩ := exists_dropTrailingZeros (Nat.toDigits 10 number)
    have hkept := fun c => @isDigit_of_mem_dropTrailingZeros number c
    have hlength := congrArg List.length hcount
    rw [List.length_append, List.length_replicate] at hlength
    have hvalue : Nat.ofDigitChars 10 (dropTrailingZeros (Nat.toDigits 10 number)) 0 * 10 ^ count =
        number := by
      rw [← ofDigitChars_append_zeros, ← hcount, Nat.ofDigitChars_ten_toDigits]
    have hne : dropTrailingZeros (Nat.toDigits 10 number) ≠ [] := by
      intro hnil
      have hread := hreads false
      rw [← hvalue, hnil, Nat.ofDigitChars_nil, Nat.zero_mul, ofDecimal, if_pos rfl] at hread
      cases hread
      exact absurd hform.pos (Nat.lt_irrefl 0)
    generalize dropTrailingZeros (Nat.toDigits 10 number) = kept at hkept hlength hvalue hne ⊢
    refine ⟨Nat.ofDigitChars 10 kept 0,
      grid + (Nat.toDigits 10 number).length - 1 + 1 - kept.length, ?_, ?_⟩
    · split
      · exact writes_positional hne hkept _
      · exact writes_scientific hne hkept _
    · intro negative
      rw [← hreads negative, ← hvalue, ofDecimal_mul_ten_pow]
      congr 1
      rw [hvalue, hlength]
      push_cast
      omega

/-! ## Reading back -/

/-- A decimal does not begin with a sign. -/
theorem splitSign_of_decimal? {s : List Char} {parts : Nat × Int} (hdecimal : decimal? s = some parts) :
    splitSign s = (false, s) := by
  unfold splitSign
  split
  · cases hdecimal
  · cases hdecimal
  · rfl

theorem isPlain_exponentText {n : Int} {c : Char} (hc : c ∈ exponentText n) : IsPlain c := by
  rcases List.mem_cons.mp hc with rfl | hc
  · right
    split <;> simp
  · left
    rcases List.mem_append.mp hc with hzero | hdigit
    · exact isDigit_of_mem_replicate hzero
    · exact isDigit_of_mem_toDigits hdigit

theorem isPlain_positional (hdigits : ∀ c ∈ digits, c.isDigit = true) {leading : Int} {c : Char}
    (hc : c ∈ positional digits leading) : IsPlain c := by
  have hzero : IsPlain '0' := Or.inl (by decide)
  have hpoint : IsPlain '.' := Or.inr (by decide)
  unfold positional at hc
  split at hc
  · simp only [List.cons_append, List.mem_cons, List.mem_append, List.mem_replicate] at hc
    rcases hc with rfl | rfl | ⟨_, rfl⟩ | hdigit
    · exact hzero
    · exact hpoint
    · exact hzero
    · exact Or.inl (hdigits c hdigit)
  · dsimp only at hc
    split at hc
    · simp only [List.mem_append, List.mem_replicate, List.mem_cons, List.not_mem_nil, or_false] at hc
      rcases hc with (hdigit | ⟨_, rfl⟩) | rfl | rfl
      · exact Or.inl (hdigits c hdigit)
      · exact hzero
      · exact hpoint
      · exact hzero
    · rcases List.mem_append.mp hc with hdigit | hplace
      · exact Or.inl (hdigits c (List.mem_of_mem_take hdigit))
      · rcases List.mem_cons.mp hplace with rfl | hplace
        · exact hpoint
        · exact Or.inl (hdigits c (List.mem_of_mem_drop hplace))

theorem isPlain_scientific (hdigits : ∀ c ∈ digits, c.isDigit = true) {leading : Int} {c : Char}
    (hc : c ∈ scientific digits leading) : IsPlain c := by
  have hmark : ∀ c ∈ 'e' :: exponentText leading, IsPlain c := by
    intro c hc
    rcases List.mem_cons.mp hc with rfl | hexponent
    · exact Or.inr (by decide)
    · exact isPlain_exponentText hexponent
  unfold scientific at hc
  split at hc
  · cases hc
  · next digit =>
      rcases List.mem_cons.mp hc with rfl | hexponent
      · exact Or.inl (hdigits c (by simp))
      · exact hmark c hexponent
  · next digit rest _ =>
      rcases List.mem_append.mp hc with hmantissa | hexponent
      · simp only [List.mem_cons] at hmantissa
        rcases hmantissa with rfl | rfl | hplace
        · exact Or.inl (hdigits c (by simp))
        · exact Or.inr (by decide)
        · exact Or.inl (hdigits c (by simp [hplace]))
      · exact hmark c hexponent

theorem isPlain_magnitudeText {significand : Nat} {exponent : Int} {c : Char}
    (hc : c ∈ magnitudeText significand exponent) : IsPlain c := by
  unfold magnitudeText at hc
  split at hc
  · simp only [List.mem_cons, List.not_mem_nil, or_false] at hc
    rcases hc with rfl | rfl | rfl
    · exact Or.inl (by decide)
    · exact Or.inr (by decide)
    · exact Or.inl (by decide)
  · dsimp only at hc
    generalize (shortestDecimal significand exponent).1 = number at hc
    have hkept := fun c => @isDigit_of_mem_dropTrailingZeros number c
    split at hc
    · exact isPlain_positional hkept hc
    · exact isPlain_scientific hkept hc

theorem isPlain_finiteText {negative : Bool} {significand : Nat} {exponent : Int} {c : Char}
    (hc : c ∈ (if negative then ['-'] else []) ++ magnitudeText significand exponent) : IsPlain c := by
  rcases List.mem_append.mp hc with hsign | hmagnitude
  · exact isPlain_sign hsign
  · exact isPlain_magnitudeText hmagnitude

/-- The form of a number: a finite one has one form only. -/
def IsCanonical : Binary64 → Prop
  | finite _ significand exponent => IsFinite significand exponent
  | infinite _ | nan => True

/-- The text of a number is read as it. -/
theorem float?_text {number : Binary64} (hcanonical : number.IsCanonical) :
    float? number.text = some number := by
  cases number with
  | nan => decide +kernel
  | infinite negative => cases negative <;> decide +kernel
  | finite negative significand exponent =>
      obtain ⟨value, grid, hwrites, hread⟩ := writes_magnitudeText hcanonical
      have hplain := fun c hc => @isPlain_finiteText negative significand exponent c hc
      have hsign : splitSign (magnitudeText significand exponent) =
          (false, magnitudeText significand exponent) := by
        obtain ⟨_, hdecimal⟩ := hwrites
        exact splitSign_of_decimal? hdecimal
      rw [text, float?_of_isPlain hplain, hwrites.floatLiteral? negative hsign (hread negative)]

theorem isAllBlank_text {number : Binary64} (hcanonical : number.IsCanonical) :
    Text.isAllBlank number.text = false := by
  cases number with
  | nan => decide +kernel
  | infinite negative => cases negative <;> decide +kernel
  | finite negative significand exponent =>
      apply isAllBlank_of_isPlain _ fun c hc => isPlain_finiteText hc
      intro hnil
      obtain ⟨_, _, ⟨_, hdecimal⟩, _⟩ := writes_magnitudeText hcanonical
      rw [(List.append_eq_nil_iff.mp hnil).2] at hdecimal
      cases hdecimal

end Binary64
end CiPipeline.Number
