import CiPipeline.Regex
import CiPipeline.Proofs.Except

/-!
The language of a regular expression, and how its parts are read back from tokens: a text that was
written from tokens gives the tokens again, and a part that stands in front of others is read without
them, as long as they do not begin with the sign of a count.
-/

namespace CiPipeline.Regex

/-! ## The language -/

/-- The characters that may stand at a place. -/
def Single.Admits : Single → Char → Prop
  | any, c => c ≠ '\n'
  | literal own, c => c = own
  | oneOf ranges, c => ∃ range ∈ ranges, range.1 ≤ c ∧ c ≤ range.2
  | noneOf ranges, c => ¬ ∃ range ∈ ranges, range.1 ≤ c ∧ c ≤ range.2

/-- The lengths of the pieces that a count allows. -/
def Count.Allows : Count → Nat → Prop
  | once, length => length = 1
  | optional, length => length ≤ 1
  | many, length => 1 ≤ length
  | anyNumber, _ => True

/-- The pieces of a text that a part stands for. -/
def Part.StandsFor (part : Part) (piece : List Char) : Prop :=
  part.count.Allows piece.length ∧ ∀ c ∈ piece, part.single.Admits c

/-- An expression matches the whole of a text that can be cut into pieces for its parts. -/
def Matches (regex : Regex) (text : String) : Prop :=
  ∃ pieces, List.Forall₂ Part.StandsFor regex pieces ∧ text.toList = pieces.flatten

/-! ## Tokens -/

/-- A text written from tokens is cut into the same ones, if no escape stands among them alone. -/
theorem tokens_flatMap_text {written : List Token} (hescape : .plain '\\' ∉ written) :
    tokens (written.flatMap Token.text) = .ok written := by
  induction written with
  | nil => rfl
  | cons token rest ih =>
      obtain ⟨hne, hrest⟩ := not_or.mp (mt List.mem_cons.mpr hescape)
      rw [List.flatMap_cons]
      cases token with
      | plain c =>
          have hc : c ≠ '\\' := fun heq => hne (heq ▸ rfl)
          rw [Token.text, List.singleton_append]
          unfold tokens
          split <;> simp_all [Except.map]
      | escaped c =>
          rw [Token.text, List.cons_append, List.singleton_append, tokens, ih hrest]
          rfl

/-! ## Sets -/

section Sets

variable {first : Bool} {low high : Token} {c d : Char} {rest : List Token}

theorem readMembers_close : readMembers false (.plain ']' :: rest) = .ok ([], 1) := by
  unfold readMembers
  split <;> simp_all

theorem readMembers_single (hclose : low ≠ .plain ']') (hliteral : low.literal = .ok c)
    (hnext : rest.head? ≠ some (.plain '-')) :
    readMembers first (low :: rest) = (readMembers false rest).map fun (ranges, width) =>
      ((c, c) :: ranges, width + 1) := by
  rw [readMembers, if_neg (fun h => hclose h.1), hliteral, ok_bind]
  · cases readMembers false rest <;> rfl
  · intro high more heq
    simp [heq] at hnext

theorem readMembers_range (hlow : low ≠ .plain ']') (hhigh : high ≠ .plain ']')
    (hc : low.literal = .ok c) (hd : high.literal = .ok d) (hle : c ≤ d) :
    readMembers first (low :: .plain '-' :: high :: rest) =
      (readMembers false rest).map fun (ranges, width) => ((c, d) :: ranges, width + 3) := by
  rw [readMembers, if_neg (fun h => hlow h.1), if_neg hhigh, hc, ok_bind, hd, ok_bind,
    if_neg (Char.not_lt.mpr hle)]
  rfl

/-- A set that does not begin with a caret is read as it stands. -/
theorem readSingle_set (hcaret : rest.head? ≠ some (.plain '^')) :
    readSingle (.plain '[' :: rest) = (readMembers true rest).map fun (ranges, width) =>
      (.oneOf ranges, width + 1) := by
  rw [readSingle]
  rintro more rfl
  exact hcaret rfl

end Sets

/-! ## Parts -/

/-- The sign of a count. -/
def Count.sign : Count → List Token
  | once => []
  | optional => [.plain '?']
  | many => [.plain '+']
  | anyNumber => [.plain '*']

theorem readCount_sign {rest : List Token} (hrest : startsWithCount rest = false) (count : Count) :
    readCount (count.sign ++ rest) = .ok (count, count.sign.length) := by
  cases count with
  | once =>
      rw [Count.sign, List.nil_append]
      unfold readCount
      split
      · next c more =>
          have hnone : Count.ofSign? c = none := by simpa [startsWithCount] using hrest
          rw [hnone]
          rfl
      · rfl
  | optional => simp [Count.sign, readCount, Count.ofSign?, hrest]
  | many => simp [Count.sign, readCount, Count.ofSign?, hrest]
  | anyNumber => simp [Count.sign, readCount, Count.ofSign?, hrest]

theorem readParts_eq_drop (skip : Nat) (rest : List Token) :
    readParts skip rest = readParts 0 (rest.drop skip) := by
  induction rest generalizing skip with
  | nil => rw [List.drop_nil, readParts, readParts]
  | cons token rest ih =>
      cases skip with
      | zero => rfl
      | succ skip => rw [readParts, ih, List.drop_succ_cons]

/-- A part in front of others is read first, and then the others. -/
theorem readParts_append {own rest : List Token} {single : Single} {count : Count} (hne : own ≠ [])
    (hsingle : readSingle (own ++ (count.sign ++ rest)) = .ok (single, own.length))
    (hrest : startsWithCount rest = false) :
    readParts 0 (own ++ (count.sign ++ rest)) =
      (readParts 0 rest).map (⟨single, count⟩ :: ·) := by
  obtain ⟨token, own, rfl⟩ := List.exists_cons_of_ne_nil hne
  rw [List.cons_append] at hsingle ⊢
  rw [readParts, hsingle, ok_bind]
  simp only [List.length_cons, Nat.add_sub_cancel, List.drop_left, readCount_sign hrest, ok_bind]
  rw [readParts_eq_drop, ← List.length_append, ← List.append_assoc, List.drop_left]
  rfl

end CiPipeline.Regex
