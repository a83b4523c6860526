import CiPipeline.Number.Numeral
import CiPipeline.Proofs.Number.Shortest
import CiPipeline.Value.Limit

/-!
Numbers and their texts. The decimal text of an integer is read as the integer, unless it is too long to be
read at all, and the plain text of a binary number is read as that number.
-/

namespace CiPipeline

open Text (isBlank trimWhile digitValue? ofDigits)

theorem Text.trimWhile_eq_self {p : Char → Bool} {s : List Char} (hnone : ∀ c ∈ s, p c = false) :
    trimWhile p s = s := by
  have hkept : ∀ t : List Char, (∀ c ∈ t, p c = false) → t.dropWhile p = t := by
    intro t ht
    cases t with
    | nil => rfl
    | cons c rest => rw [List.dropWhile_cons_of_neg (by simp [ht c])]
  rw [trimWhile, hkept s hnone, hkept s.reverse, List.reverse_reverse]
  intro c hc
  exact hnone c (List.mem_reverse.mp hc)

namespace Number

/-! ## Digits -/

section Digits

variable {c : Char} {digits rest : List Char}

theorem code_of_isDigit (hc : c.isDigit = true) : 0x30 ≤ c.toNat ∧ c.toNat ≤ 0x39 := by
  simp only [Char.isDigit, Bool.and_eq_true, decide_eq_true_eq] at hc
  exact hc

theorem digitValue?_of_isDigit (hc : c.isDigit = true) : digitValue? c = some (c.toNat - 0x30) := by
  obtain ⟨hlow, hhigh⟩ := code_of_isDigit hc
  have hrun : (decide (0x30 ≤ c.toNat) && decide (c.toNat < 0x30 + 10)) = true := by
    rw [Bool.and_eq_true, decide_eq_true_eq, decide_eq_true_eq]
    omega
  have hzeros : Text.zeros = 0x30 :: Text.zeros.tail := rfl
  rw [digitValue?, hzeros, List.find?_cons]
  simp only [hrun, Option.map_some]

theorem asciiDigit?_of_isDigit (hc : c.isDigit = true) : asciiDigit? c = some (c.toNat - 0x30) := by
  rw [asciiDigit?, if_pos hc]

/-- The values of some digits. -/
def digitValues (digits : List Char) : List Nat :=
  digits.map fun c => c.toNat - 0x30

theorem ofDigits_digitValues (digits : List Char) :
    ofDigits (digitValues digits) = Nat.ofDigitChars 10 digits 0 := by
  simp only [ofDigits, digitValues, List.foldl_map, Nat.ofDigitChars, Nat.mul_comm 10]
  rfl

theorem groupedDigits?_of_digits (hne : digits ≠ []) (hall : ∀ c ∈ digits, c.isDigit = true) :
    groupedDigits? digits = some (digitValues digits) := by
  induction digits with
  | nil => exact absurd rfl hne
  | cons c rest ih =>
      rw [List.forall_mem_cons] at hall
      cases rest with
      | nil => simp [groupedDigits?, digitValue?_of_isDigit hall.1, digitValues]
      | cons next rest =>
          have hnext : next ≠ '_' := by
            rintro rfl
            exact absurd (hall.2 '_' (by simp)) (by decide)
          rw [groupedDigits?]
          · rw [digitValue?_of_isDigit hall.1, ih (by simp) hall.2]
            rfl
          · simp
          · intro own hown
            exact hnext (List.cons.inj hown).1

theorem spanDigits_append (hall : ∀ c ∈ digits, c.isDigit = true)
    (hends : ∀ c ∈ rest.head?, c.isDigit = false) :
    spanDigits (digits ++ rest) = (digitValues digits, rest) := by
  have hvalues : digits.filterMap asciiDigit? = digitValues digits := by
    rw [digitValues, ← List.filterMap_eq_map]
    apply List.filterMap_congr
    intro c hc
    exact asciiDigit?_of_isDigit (hall c hc)
  rw [spanDigits, List.takeWhile_append_of_pos hall, List.dropWhile_append_of_pos hall]
  cases rest with
  | nil => simp [hvalues]
  | cons c rest => simp [hvalues, hends c rfl]

theorem splitSign_of_isDigit (hfirst : ∀ c ∈ digits.head?, c.isDigit = true) :
    splitSign digits = (false, digits) := by
  unfold splitSign
  split
  · exact absurd (hfirst '-' rfl) (by decide)
  · exact absurd (hfirst '+' rfl) (by decide)
  · rfl

end Digits

theorem isDigit_of_mem_toDigits {n : Nat} {c : Char} (hc : c ∈ Nat.toDigits 10 n) :
    c.isDigit = true :=
  Nat.isDigit_of_mem_toDigits (by decide) (by decide) hc

theorem splitSign_toDigits (n : Nat) :
    splitSign (Nat.toDigits 10 n) = (false, Nat.toDigits 10 n) :=
  splitSign_of_isDigit fun _ hc => isDigit_of_mem_toDigits (List.mem_of_mem_head? hc)

/-! ## Plain characters -/

/-- A character of plain numerals: a digit, a point, a sign or the mark of an exponent. -/
def IsPlain (c : Char) : Prop :=
  c.isDigit = true ∨ c ∈ ['.', '-', '+', 'e']

theorem not_isBlank_of_isPlain {c : Char} (hc : IsPlain c) : isBlank c = false := by
  rcases hc with hdigit | hmark
  · have hcode := code_of_isDigit hdigit
    simp only [isBlank, Text.inRanges, Text.blankRanges, List.any_cons, List.any_nil,
      Bool.and_eq_false_iff, Bool.or_eq_false_iff, decide_eq_false_iff_not, and_true]
    omega
  · simp only [List.mem_cons, List.not_mem_nil, or_false] at hmark
    rcases hmark with rfl | rfl | rfl | rfl <;> decide

theorem not_isNumeralBlank_of_isPlain {c : Char} (hc : IsPlain c) : isNumeralBlank c = false := by
  rw [isNumeralBlank, not_isBlank_of_isPlain hc, Bool.false_and]

theorem isAllBlank_of_isPlain {s : List Char} (hne : s ≠ []) (hplain : ∀ c ∈ s, IsPlain c) :
    Text.isAllBlank (String.ofList s) = false := by
  obtain ⟨c, hc⟩ := List.exists_mem_of_ne_nil s hne
  rw [Text.isAllBlank, String.toList_ofList, List.all_eq_false]
  exact ⟨c, hc, by simp [not_isBlank_of_isPlain (hplain c hc)]⟩

theorem toAsciiDigit_of_isPlain {c : Char} (hc : IsPlain c) : toAsciiDigit c = c := by
  rcases hc with hdigit | hmark
  · have hcode := code_of_isDigit hdigit
    have hsame : 0x30 + (c.toNat - 0x30) = c.toNat := by omega
    rw [toAsciiDigit, digitValue?_of_isDigit hdigit]
    simp only [hsame, Char.ofNat_toNat]
  · simp only [List.mem_cons, List.not_mem_nil, or_false] at hmark
    rcases hmark with rfl | rfl | rfl | rfl <;> decide

theorem dropUnderscores?_of_isPlain {s : List Char} (hplain : ∀ c ∈ s, IsPlain c) (previous : Char) :
    dropUnderscores? previous s = some s := by
  induction s generalizing previous with
  | nil => rfl
  | cons c rest ih =>
      rw [List.forall_mem_cons] at hplain
      have hc : c ≠ '_' := by
        rintro rfl
        rcases hplain.1 with hdigit | hmark
        · exact absurd hdigit (by decide)
        · exact absurd hmark (by decide)
      rw [dropUnderscores?]
      · rw [ih hplain.2, Option.map_some]
      · intro next more hsame _
        exact hc hsame
      · intro hsame _
        exact hc hsame

/-- A plain text is read as it stands. -/
theorem float?_of_isPlain {s : List Char} (hplain : ∀ c ∈ s, IsPlain c) :
    float? (String.ofList s) = floatLiteral? s := by
  have hascii : s.map toAsciiDigit = s := by
    rw [List.map_congr_left fun c hc => toAsciiDigit_of_isPlain (hplain c hc), List.map_id']
  rw [float?, String.toList_ofList,
    Text.trimWhile_eq_self fun c hc => not_isNumeralBlank_of_isPlain (hplain c hc), hascii,
    dropUnderscores?_of_isPlain hplain]
  rfl

/-! ## Integers -/

theorem signed_natAbs (n : Int) :
    (if decide (n < 0) = true then -(n.natAbs : Int) else n.natAbs) = n := by
  split
  · next hneg =>
      have hneg := of_decide_eq_true hneg
      omega
  · next hpos =>
      have hpos := of_decide_eq_false (Bool.not_eq_true _ ▸ hpos)
      omega

theorem isPlain_sign {negative : Prop} [Decidable negative] {c : Char}
    (hc : c ∈ if negative then ['-'] else []) : IsPlain c := by
  right
  split at hc
  · simp [List.mem_singleton.mp hc]
  · cases hc

theorem isPlain_intText {n : Int} {c : Char}
    (hc : c ∈ (if n < 0 then ['-'] else []) ++ Nat.toDigits 10 n.natAbs) : IsPlain c := by
  rcases List.mem_append.mp hc with hsign | hdigit
  · exact isPlain_sign hsign
  · exact Or.inl (isDigit_of_mem_toDigits hdigit)

/-- The text of an integer is read as it, unless it is too long. -/
theorem int?_intText (n : Int) :
    int? (Value.intText n) = if isTooLong n then none else some n := by
  have hplain := fun c hc => not_isNumeralBlank_of_isPlain (@isPlain_intText n c hc)
  have hsplit : splitSign ((if n < 0 then ['-'] else []) ++ Nat.toDigits 10 n.natAbs) =
      (decide (n < 0), Nat.toDigits 10 n.natAbs) := by
    by_cases hneg : n < 0
    · simp [hneg, splitSign]
    · simp [hneg, splitSign_toDigits]
  have hlong : (digitValues (Nat.toDigits 10 n.natAbs)).length ≤ maxIntDigits ↔
      isTooLong n = false := by
    rw [digitValues, List.length_map, Nat.length_toDigits_le_iff (by decide) (by decide), isTooLong,
      Nat.pow_eq, decide_eq_false_iff_not, Nat.not_le]
  rw [int?, Value.intText, String.toList_ofList, Text.trimWhile_eq_self hplain, hsplit]
  dsimp only
  rw [groupedDigits?_of_digits Nat.toDigits_ne_nil fun _ hc => isDigit_of_mem_toDigits hc]
  cases htoo : isTooLong n with
  | true =>
      have hrefused : ¬ (digitValues (Nat.toDigits 10 n.natAbs)).length ≤ maxIntDigits := by
        rw [hlong, htoo]
        simp
      simp only [Option.bind_eq_bind, Option.bind_some, guard, if_neg hrefused, if_true]
      rfl
  | false =>
      have hread : (digitValues (Nat.toDigits 10 n.natAbs)).length ≤ maxIntDigits := hlong.mpr htoo
      simp only [Option.bind_eq_bind, Option.bind_some, guard, if_pos hread, ofDigits_digitValues,
        Nat.ofDigitChars_ten_toDigits, signed_natAbs]
      rfl

theorem isAllBlank_intText (n : Int) : Text.isAllBlank (Value.intText n) = false :=
  isAllBlank_of_isPlain (List.append_ne_nil_of_right_ne_nil _ Nat.toDigits_ne_nil)
    fun _ hc => isPlain_intText hc

end Number
end CiPipeline
