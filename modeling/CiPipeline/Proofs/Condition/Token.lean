import CiPipeline.Condition.Token
import CiPipeline.Proofs.Except
import CiPipeline.Proofs.Text.Occurrence
import Mathlib

/-!
The tokens of an expression, said without reading: `Spells` splits a text into blanks and written
tokens, with every word as long as it can be. Reading finds a split exactly if there is one.
-/

namespace CiPipeline.Condition

/-- How a token is written. A quoted text holds no quote of the kind that encloses it. -/
inductive Token.Written : Token → List Char → Prop
  | mark (mark : Mark) : Written (.mark mark) mark.text.toList
  | quoted {quote : Char} {content : List Char}
      (hquote : quote = Text.singleQuote ∨ quote = Text.doubleQuote) (hcontent : quote ∉ content) :
      Written (.quoted (String.ofList content)) (quote :: (content ++ [quote]))
  | word {first : Char} {tail : List Char} (hfirst : isWordStart first = true)
      (htail : ∀ c ∈ tail, isWordPart c = true) :
      Written (.word (String.ofList (first :: tail))) (first :: tail)

/-- A token may stand before a text: no word does that the text goes on with. -/
def Token.EndsBefore : Token → List Char → Prop
  | word _, rest => ∀ c ∈ rest.head?, isWordPart c = false
  | _, _ => True

/-- A text is split into tokens, from left to right. -/
inductive Spells : List Char → List Token → Prop
  | nil : Spells [] []
  | blank {c : Char} {rest : List Char} {tokens : List Token} (hblank : Text.isBlank c = true)
      (hrest : Spells rest tokens) : Spells (c :: rest) tokens
  | token {token : Token} {lexeme rest : List Char} {tokens : List Token}
      (hwritten : token.Written lexeme) (hends : token.EndsBefore rest)
      (hrest : Spells rest tokens) : Spells (lexeme ++ rest) (token :: tokens)

/-! ## One token -/

/-- Words begin with codes between those of the marks, the quotes and the blanks. -/
theorem code_of_wordStart {c : Char} (hstart : isWordStart c = true) :
    65 ≤ c.toNat ∧ c.toNat ≤ 122 := by
  simp only [isWordStart, Char.isAlpha, Char.isUpper, Char.isLower, Bool.or_eq_true,
    Bool.and_eq_true, decide_eq_true_eq, beq_iff_eq, UInt32.le_iff_toNat_le] at hstart
  rcases hstart with (hupper | hlower) | rfl
  · exact ⟨hupper.1, Nat.le_trans hupper.2 (by decide)⟩
  · exact ⟨Nat.le_trans (by decide) hlower.1, hlower.2⟩
  · decide

theorem Mark.exists_cons (mark : Mark) :
    ∃ c rest, mark.text.toList = c :: rest ∧ ¬ (65 ≤ c.toNat ∧ c.toNat ≤ 122) := by
  cases mark <;> exact ⟨_, _, rfl, by decide⟩

theorem not_blank_of_wordStart {c : Char} (hstart : isWordStart c = true) :
    Text.isBlank c = false := by
  have hcode := code_of_wordStart hstart
  rw [← Bool.not_eq_true]
  intro hblank
  simp only [Text.isBlank, Text.inRanges, Text.blankRanges, List.any_cons, List.any_nil,
    Bool.or_eq_true, Bool.and_eq_true, decide_eq_true_eq, Bool.or_false] at hblank
  omega

/-- A written token has a first character, which is not blank. -/
theorem Token.Written.exists_cons {token : Token} {lexeme : List Char}
    (hwritten : token.Written lexeme) :
    ∃ c rest, lexeme = c :: rest ∧ Text.isBlank c = false := by
  cases hwritten with
  | mark mark => cases mark <;> exact ⟨_, _, rfl, by decide⟩
  | quoted hquote _ =>
      refine ⟨_, _, rfl, ?_⟩
      rcases hquote with rfl | rfl
      · decide
      · decide
  | word hfirst _ => exact ⟨_, _, rfl, not_blank_of_wordStart hfirst⟩

theorem readQuoted?_eq_some_iff {quote : Char} {s : List Char} {token : Token} {width : Nat} :
    readQuoted? quote s = some (token, width) ↔
      ∃ content rest, s = content ++ quote :: rest ∧ quote ∉ content ∧
        token = .quoted (String.ofList content) ∧ width = content.length + 1 := by
  simp only [readQuoted?]
  constructor
  · intro hread
    split at hread
    · cases hread
    · next hlength =>
        cases hread
        obtain ⟨rest, hs⟩ := Text.exists_eq_takeWhile_ne_append hlength
        exact ⟨_, rest, hs, Text.not_mem_takeWhile_ne, rfl, rfl⟩
  · rintro ⟨content, rest, rfl, hcontent, rfl, rfl⟩
    rw [Text.takeWhile_ne_append hcontent, if_neg]
    rw [List.length_append, List.length_cons]
    omega

/-- A token is read only where it is written. -/
theorem exists_written_of_readToken? {s : List Char} {token : Token} {width : Nat}
    (hread : readToken? s = some (token, width)) :
    ∃ lexeme rest, s = lexeme ++ rest ∧ token.Written lexeme ∧ token.EndsBefore rest ∧
      width = lexeme.length := by
  unfold readToken? at hread
  split at hread
  · cases hread
    exact ⟨_, _, rfl, .mark .and, trivial, rfl⟩
  · cases hread
    exact ⟨_, _, rfl, .mark .or, trivial, rfl⟩
  · cases hread
    exact ⟨_, _, rfl, .mark .not, trivial, rfl⟩
  · cases hread
    exact ⟨_, _, rfl, .mark .openParen, trivial, rfl⟩
  · cases hread
    exact ⟨_, _, rfl, .mark .closeParen, trivial, rfl⟩
  · cases hread
    exact ⟨_, _, rfl, .mark .comma, trivial, rfl⟩
  · next c rest _ _ _ _ _ _ =>
      split at hread
      · next hquote =>
          obtain ⟨⟨found, size⟩, hfound, heq⟩ := Option.map_eq_some_iff.mp hread
          cases heq
          obtain ⟨content, after, rfl, hcontent, rfl, rfl⟩ := readQuoted?_eq_some_iff.mp hfound
          refine ⟨_, after, ?_, .quoted hquote hcontent, trivial, ?_⟩
          · simp
          · simp
      · split at hread
        · next hstart =>
            cases hread
            refine ⟨c :: rest.takeWhile isWordPart, rest.dropWhile isWordPart, ?_,
              .word hstart fun _ => List.all_eq_true.mp List.all_takeWhile _, ?_, rfl⟩
            · rw [List.cons_append, List.takeWhile_append_dropWhile]
            · intro c hc
              have hnot := List.head?_dropWhile_not isWordPart rest
              rw [Option.mem_def.mp hc] at hnot
              simpa using hnot
        · cases hread
  · cases hread

theorem readToken?_of_quote {quote : Char} {content : List Char}
    (hquote : quote = Text.singleQuote ∨ quote = Text.doubleQuote) (hcontent : quote ∉ content)
    (rest : List Char) :
    readToken? (quote :: (content ++ quote :: rest)) =
      some (.quoted (String.ofList content), content.length + 2) := by
  have hread : readQuoted? quote (content ++ quote :: rest) =
      some (.quoted (String.ofList content), content.length + 1) :=
    readQuoted?_eq_some_iff.mpr ⟨content, rest, rfl, hcontent, rfl, rfl⟩
  rcases hquote with rfl | rfl
  · change Option.map _ (readQuoted? Text.singleQuote (content ++ Text.singleQuote :: rest)) = _
    rw [hread, Option.map_some]
  · change Option.map _ (readQuoted? Text.doubleQuote (content ++ Text.doubleQuote :: rest)) = _
    rw [hread, Option.map_some]

theorem readToken?_of_wordStart {first : Char} (hfirst : isWordStart first = true)
    (rest : List Char) :
    readToken? (first :: rest) = some (.word (String.ofList (first :: rest.takeWhile isWordPart)),
      (rest.takeWhile isWordPart).length + 1) := by
  have hcode := code_of_wordStart hfirst
  unfold readToken?
  split
  case h_7 heq =>
    cases heq
    rw [if_neg, if_pos hfirst]
    rintro (rfl | rfl)
    · exact absurd hcode (by decide)
    · exact absurd hcode (by decide)
  case h_8 heq => cases heq
  all_goals
    next heq =>
      cases heq
      exact absurd hcode (by decide)

/-- A token that is written where it may stand is read. -/
theorem Token.Written.readToken? {token : Token} {lexeme : List Char}
    (hwritten : token.Written lexeme) {rest : List Char} (hends : token.EndsBefore rest) :
    Condition.readToken? (lexeme ++ rest) = some (token, lexeme.length) := by
  cases hwritten with
  | mark mark => cases mark <;> rfl
  | quoted hquote hcontent =>
      rw [List.cons_append, List.append_assoc, List.singleton_append,
        readToken?_of_quote hquote hcontent, List.length_cons, List.length_append,
        List.length_singleton]
  | @word first tail hfirst htail =>
      have htake : (tail ++ rest).takeWhile isWordPart = tail := by
        rw [List.takeWhile_append_of_pos htail]
        cases rest with
        | nil => simp
        | cons c rest => simp [hends c rfl]
      rw [List.cons_append, readToken?_of_wordStart hfirst, htake, List.length_cons]

theorem readToken?_eq_some_iff {s : List Char} {token : Token} {width : Nat} :
    readToken? s = some (token, width) ↔
      ∃ lexeme rest, s = lexeme ++ rest ∧ token.Written lexeme ∧ token.EndsBefore rest ∧
        width = lexeme.length := by
  constructor
  · exact exists_written_of_readToken?
  · rintro ⟨lexeme, rest, rfl, hwritten, hends, rfl⟩
    exact hwritten.readToken? hends

/-! ## The tokens of a text -/

theorem Spells.exists_written {s : List Char} {tokens : List Token} (hspells : Spells s tokens)
    {token : Token} (htoken : token ∈ tokens) : ∃ lexeme, token.Written lexeme := by
  induction hspells with
  | nil => cases htoken
  | blank _ _ ih => exact ih htoken
  | token hwritten _ _ ih =>
      rcases List.mem_cons.mp htoken with rfl | htoken
      · exact ⟨_, hwritten⟩
      · exact ih htoken

theorem spells_blank_iff {c : Char} {rest : List Char} {tokens : List Token}
    (hblank : Text.isBlank c = true) : Spells (c :: rest) tokens ↔ Spells rest tokens := by
  constructor
  · intro hspells
    generalize htext : c :: rest = text at hspells
    cases hspells with
    | nil => cases htext
    | blank _ hrest =>
        cases htext
        exact hrest
    | token hwritten _ _ =>
        obtain ⟨first, more, rfl, hseen⟩ := hwritten.exists_cons
        cases htext
        rw [hblank] at hseen
        cases hseen
  · exact .blank hblank

theorem spells_token_iff {c : Char} {rest : List Char} {tokens : List Token}
    (hseen : Text.isBlank c = false) :
    Spells (c :: rest) tokens ↔
      ∃ token width more, readToken? (c :: rest) = some (token, width) ∧
        Spells (rest.drop (width - 1)) more ∧ tokens = token :: more := by
  constructor
  · intro hspells
    generalize htext : c :: rest = text at hspells
    cases hspells with
    | nil => cases htext
    | blank hblank _ =>
        cases htext
        rw [hblank] at hseen
        cases hseen
    | @token token lexeme after more hwritten hends hrest =>
        refine ⟨token, lexeme.length, more, ?_, ?_, rfl⟩
        · exact readToken?_eq_some_iff.mpr ⟨lexeme, after, rfl, hwritten, hends, rfl⟩
        · obtain ⟨first, tail, rfl, _⟩ := hwritten.exists_cons
          cases htext
          simpa using hrest
  · rintro ⟨token, width, more, hread, hrest, rfl⟩
    obtain ⟨lexeme, after, htext, hwritten, hends, rfl⟩ := readToken?_eq_some_iff.mp hread
    obtain ⟨first, tail, rfl, _⟩ := hwritten.exists_cons
    rw [htext]
    cases htext
    exact .token hwritten hends (by simpa using hrest)

/-- From any place on, reading finds the tokens into which the text behind the last token is
split. -/
theorem scanFrom_eq_ok_iff (s : List Char) (skip seen position : Nat) (tokens : List Token) :
    scanFrom skip seen position s = .ok tokens ↔ Spells (s.drop skip) tokens := by
  induction s generalizing skip seen position tokens with
  | nil =>
      simp only [scanFrom, List.drop_nil]
      constructor
      · rintro ⟨⟩
        exact .nil
      · intro hspells
        generalize htext : ([] : List Char) = text at hspells
        cases hspells with
        | nil => rfl
        | blank _ _ => cases htext
        | token hwritten _ _ =>
            obtain ⟨first, more, rfl, _⟩ := hwritten.exists_cons
            cases htext
  | cons c rest ih =>
      cases skip with
      | succ skip => simpa [scanFrom] using ih skip seen (position + 1) tokens
      | zero =>
          simp only [scanFrom, List.drop_zero]
          cases hblank : Text.isBlank c with
          | true =>
              rw [spells_blank_iff hblank]
              simpa using ih 0 seen (position + 1) tokens
          | false =>
              rw [spells_token_iff hblank]
              cases hread : readToken? (c :: rest) with
              | none => simp
              | some found =>
                  obtain ⟨token, width⟩ := found
                  simp only [Bool.false_eq_true, if_false, map_eq_ok_iff, ih]
                  constructor
                  · rintro ⟨more, hmore, rfl⟩
                    exact ⟨token, width, more, rfl, hmore, rfl⟩
                  · rintro ⟨_, _, more, ⟨⟩, hmore, rfl⟩
                    exact ⟨more, hmore, rfl⟩

/-- Reading finds just the tokens into which the text is split. -/
theorem tokens_eq_ok_iff {expression : String} {found : List Token} :
    tokens expression = .ok found ↔ Spells expression.toList found :=
  scanFrom_eq_ok_iff expression.toList 0 0 0 found

end CiPipeline.Condition
