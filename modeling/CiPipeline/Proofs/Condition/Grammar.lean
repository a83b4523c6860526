import CiPipeline.Condition.Parser
import CiPipeline.Proofs.Condition.Token

/-!
The grammar of conditions, and what the parser makes of it. A derivation is given tokens and tree at
once: both joins group to the left, and `&&` stands inside `||`. Where the grammar has a parenthesis
the parser compares texts, so a quoted parenthesis passes for one except where a group opens; that is
all by which it differs from the grammar.
-/

namespace CiPipeline.Condition

open ConditionError (Fault)

/-- The levels of the grammar, from the loosest to the tightest. -/
inductive Level
  | disjunction
  | conjunction
  | term

/--
The tokens that write a condition at some level. `passes` says which tokens stand for a parenthesis
that closes a group or belongs to a call.
-/
inductive Derives (passes : Mark → Token → Prop) : Level → List Token → Condition → Prop
  | disjoin {first second : List Token} {left right : Condition}
      (hleft : Derives passes .disjunction first left)
      (hright : Derives passes .conjunction second right) :
      Derives passes .disjunction (first ++ .mark .or :: second) (.or left right)
  | ofConjunction {used : List Token} {condition : Condition}
      (hconjunction : Derives passes .conjunction used condition) :
      Derives passes .disjunction used condition
  | conjoin {first second : List Token} {left right : Condition}
      (hleft : Derives passes .conjunction first left)
      (hright : Derives passes .term second right) :
      Derives passes .conjunction (first ++ .mark .and :: second) (.and left right)
  | ofTerm {used : List Token} {condition : Condition}
      (hterm : Derives passes .term used condition) : Derives passes .conjunction used condition
  | negate {used : List Token} {inner : Condition} (hinner : Derives passes .term used inner) :
      Derives passes .term (.mark .not :: used) (.not inner)
  | group {used : List Token} {close : Token} {inner : Condition}
      (hinner : Derives passes .disjunction used inner) (hclose : passes .closeParen close) :
      Derives passes .term (.mark .openParen :: (used ++ [close])) inner
  | call {name : String} {opening close : Token} {condition : Condition}
      (hname : nullary? name = some condition) (hopening : passes .openParen opening)
      (hclose : passes .closeParen close) :
      Derives passes .term [.word name, opening, close] condition
  | callWith {name argument : String} {opening close : Token} {condition : Condition}
      {build : String → Except Fault Condition} (hname : unary? name = some build)
      (hopening : passes .openParen opening) (hargument : build argument = .ok condition)
      (hclose : passes .closeParen close) :
      Derives passes .term [.word name, opening, .quoted argument, close] condition

/-- A token is a mark. -/
def IsMark (mark : Mark) (token : Token) : Prop :=
  token = .mark mark

/-- A token has the text of a mark. -/
def ReadsAs (mark : Mark) (token : Token) : Prop :=
  token.text = mark.text

variable {passes : Mark → Token → Prop} {level : Level} {used tokens : List Token}
  {condition : Condition}

/-- The two parentheses. -/
def parens : List Mark := [.openParen, .closeParen]

theorem Derives.mono {more : Mark → Token → Prop} (hderives : Derives passes level used condition)
    (hmore : ∀ mark ∈ parens, ∀ token ∈ used, passes mark token → more mark token) :
    Derives more level used condition := by
  have hpart : ∀ {part whole : List Token}, part ⊆ whole →
      (∀ mark ∈ parens, ∀ token ∈ whole, passes mark token → more mark token) →
      ∀ mark ∈ parens, ∀ token ∈ part, passes mark token → more mark token := by
    intro part whole hsubset hwhole mark hmark token htoken
    exact hwhole mark hmark token (hsubset htoken)
  induction hderives with
  | disjoin _ _ hleft hright =>
      exact .disjoin (hleft (hpart (by simp) hmore)) (hright (hpart (by simp) hmore))
  | ofConjunction _ hconjunction => exact .ofConjunction (hconjunction hmore)
  | conjoin _ _ hleft hright =>
      exact .conjoin (hleft (hpart (by simp) hmore)) (hright (hpart (by simp) hmore))
  | ofTerm _ hterm => exact .ofTerm (hterm hmore)
  | negate _ hinner => exact .negate (hinner (hpart (by simp) hmore))
  | group _ hclose hinner =>
      have hcloses := hmore .closeParen (by simp [parens]) _ (by simp) hclose
      exact .group (hinner (hpart (by simp) hmore)) hcloses
  | call hname hopening hclose =>
      have hopens := hmore .openParen (by simp [parens]) _ (by simp) hopening
      have hcloses := hmore .closeParen (by simp [parens]) _ (by simp) hclose
      exact .call hname hopens hcloses
  | callWith hname hopening hargument hclose =>
      have hopens := hmore .openParen (by simp [parens]) _ (by simp) hopening
      have hcloses := hmore .closeParen (by simp [parens]) _ (by simp) hclose
      exact .callWith hname hopens hargument hcloses

theorem Derives.length_pos (hderives : Derives passes level used condition) : 0 < used.length := by
  induction hderives with
  | disjoin _ _ hleft _ => rw [List.length_append]; omega
  | ofConjunction _ hconjunction => exact hconjunction
  | conjoin _ _ hleft _ => rw [List.length_append]; omega
  | ofTerm _ hterm => exact hterm
  | negate _ _ => exact Nat.succ_pos _
  | group _ _ _ => exact Nat.succ_pos _
  | call _ _ _ => exact Nat.succ_pos _
  | callWith _ _ _ _ => exact Nat.succ_pos _

/-! ## One step of reading -/

section Step

variable {fuel : Nat} {left : Condition} {rest : List Token}

theorem parseOrTail_join (fuel : Nat) (left : Condition) (rest : List Token) :
    parseOrTail (fuel + 1) left (.mark .or :: rest) =
      (do
        let (right, rest) ← parseAnd fuel rest
        parseOrTail fuel (or left right) rest) := by
  rw [parseOrTail]

theorem parseOrTail_stop (hrest : ¬ ∃ more, rest = .mark .or :: more) :
    parseOrTail (fuel + 1) left rest = .ok (left, rest) := by
  unfold parseOrTail
  split
  · next heq => cases heq
  · exact absurd ⟨_, rfl⟩ hrest
  · rfl

theorem parseAndTail_join (fuel : Nat) (left : Condition) (rest : List Token) :
    parseAndTail (fuel + 1) left (.mark .and :: rest) =
      (do
        let (right, rest) ← parseTerm fuel rest
        parseAndTail fuel (and left right) rest) := by
  rw [parseAndTail]

theorem parseAndTail_stop (hrest : ¬ ∃ more, rest = .mark .and :: more) :
    parseAndTail (fuel + 1) left rest = .ok (left, rest) := by
  unfold parseAndTail
  split
  · next heq => cases heq
  · exact absurd ⟨_, rfl⟩ hrest
  · rfl

theorem parseTerm_not (fuel : Nat) (rest : List Token) :
    parseTerm (fuel + 1) (.mark .not :: rest) =
      (do
        let (inner, rest) ← parseTerm fuel rest
        return (not inner, rest)) := by
  rw [parseTerm]

theorem parseTerm_group (fuel : Nat) (rest : List Token) :
    parseTerm (fuel + 1) (.mark .openParen :: rest) =
      (do
        let (inner, rest) ← parseOr fuel rest
        let rest ← takeText ")" rest
        return (inner, rest)) := by
  rw [parseTerm]

theorem parseTerm_call (hnot : ¬ ∃ more, rest = .mark .not :: more)
    (hgroup : ¬ ∃ more, rest = .mark .openParen :: more) :
    parseTerm (fuel + 1) rest = parseCall rest := by
  unfold parseTerm
  split
  · next heq => cases heq
  · exact absurd ⟨_, rfl⟩ hnot
  · exact absurd ⟨_, rfl⟩ hgroup
  · rfl

end Step

/-! ## What is read is derived -/

/-- Some tokens call a function with a quoted argument that is no pattern. -/
def CallsBadPattern (tokens : List Token) (error : PatternError) : Prop :=
  ∃ before name branchOnly opening argument close after,
    tokens = before ++ [.word name, opening, .quoted argument, close] ++ after ∧
    unary? name = some (ofPatternText branchOnly) ∧ ReadsAs .openParen opening ∧
    ReadsAs .closeParen close ∧ RefPattern.ofText argument = .error error

/-- What reading at some level gives: a condition that a front part of the tokens derives, or a
fault, which is about a pattern only where there is a bad one. -/
def Reads (level : Level) (tokens : List Token) :
    Except Fault (Condition × List Token) → Prop
  | .ok (condition, rest) => ∃ used, tokens = used ++ rest ∧ Derives ReadsAs level used condition
  | .error (.pattern error) => CallsBadPattern tokens error
  | .error _ => True

theorem reads_unexpected (found : List Token) : Reads level tokens (.error (unexpected found)) := by
  cases found with
  | nil => trivial
  | cons token rest => trivial

/-- Reading goes on behind what has been read at another level. -/
theorem Reads.bind {inner : Level} {front tail : List Token}
    {first : Except Fault (Condition × List Token)}
    {rest : Condition × List Token → Except Fault (Condition × List Token)}
    (htokens : tokens = front ++ tail) (hfirst : Reads inner tail first)
    (hrest : ∀ used condition more, tail = used ++ more → Derives ReadsAs inner used condition →
      Reads level tokens (rest (condition, more))) :
    Reads level tokens (first >>= rest) := by
  cases first with
  | ok result =>
      obtain ⟨used, htail, hderives⟩ := hfirst
      exact hrest used result.1 result.2 htail hderives
  | error fault =>
      cases fault with
      | pattern error =>
          obtain ⟨before, name, branchOnly, opening, argument, close, after, rfl, hbad⟩ := hfirst
          rw [htokens]
          exact ⟨front ++ before, name, branchOnly, opening, argument, close, after, by simp, hbad⟩
      | _ => trivial

theorem reads_takeText {text : String} {rest : List Token}
    {next : List Token → Except Fault (Condition × List Token)}
    (hnext : ∀ token more, rest = token :: more → token.text = text →
      Reads level tokens (next more)) :
    Reads level tokens (takeText text rest >>= next) := by
  cases rest with
  | nil => trivial
  | cons token more =>
      by_cases htext : token.text = text
      · simp only [takeText, htext, if_true, ok_bind]
        exact hnext token more rfl htext
      · simp only [takeText, htext, if_false]
        trivial

theorem unary?_ofPattern {name argument : String} {build : String → Except Fault Condition}
    {error : PatternError} (hname : unary? name = some build)
    (hfails : build argument = .error (.pattern error)) :
    ∃ branchOnly, unary? name = some (ofPatternText branchOnly) ∧
      RefPattern.ofText argument = .error error := by
  have hpattern : ∀ branchOnly, ofPatternText branchOnly argument = .error (.pattern error) →
      RefPattern.ofText argument = .error error := by
    intro branchOnly hfails
    unfold ofPatternText at hfails
    split at hfails
    · cases hfails
    · next hbad =>
        cases hfails
        exact hbad
  unfold unary? at hname ⊢
  split at hname
  · cases hname
    exact ⟨false, rfl, hpattern false hfails⟩
  · cases hname
    exact ⟨true, rfl, hpattern true hfails⟩
  · cases hname
    cases hfails
  · cases hname
    unfold ofKindName at hfails
    split at hfails
    · cases hfails
    · cases hfails
  · cases hname

/-- A call is read when its argument is a good one. -/
theorem reads_build {name argument : String} {build : String → Except Fault Condition}
    {opening close : Token} {more : List Token} (hname : unary? name = some build)
    (hopening : ReadsAs .openParen opening) (hclose : ReadsAs .closeParen close) :
    Reads .term (.word name :: opening :: .quoted argument :: close :: more)
      (build argument >>= fun condition => .ok (condition, more)) := by
  cases hbuild : build argument with
  | ok condition =>
      exact ⟨[.word name, opening, .quoted argument, close], rfl,
        .callWith hname hopening hbuild hclose⟩
  | error fault =>
      cases fault with
      | pattern error =>
          obtain ⟨branchOnly, hpattern, hbad⟩ := unary?_ofPattern hname hbuild
          exact ⟨[], name, branchOnly, opening, argument, close, more, rfl, hpattern, hopening,
            hclose, hbad⟩
      | _ => trivial

theorem takeWord_word (name : String) (rest : List Token) :
    takeWord (.word name :: rest) = .ok (name, rest) := rfl

theorem takeQuoted_quoted (content : String) (rest : List Token) :
    takeQuoted (.quoted content :: rest) = .ok (content, rest) := rfl

theorem parseCall_reads (tokens : List Token) : Reads .term tokens (parseCall tokens) := by
  cases tokens with
  | nil => exact reads_unexpected _
  | cons token rest =>
      cases token with
      | mark mark => exact reads_unexpected _
      | quoted content => exact reads_unexpected _
      | word name =>
          simp only [parseCall, takeWord_word, ok_bind]
          refine reads_takeText ?_
          rintro opening rest rfl hopening
          cases hnullary : nullary? name with
          | some condition =>
              refine reads_takeText ?_
              rintro close more rfl hclose
              exact ⟨[.word name, opening, close], rfl, .call hnullary hopening hclose⟩
          | none =>
              cases hunary : unary? name with
              | none => trivial
              | some build =>
                  cases rest with
                  | nil => exact reads_unexpected _
                  | cons token rest =>
                      cases token with
                      | mark mark => exact reads_unexpected _
                      | word other => exact reads_unexpected _
                      | quoted argument =>
                          simp only [takeQuoted_quoted, ok_bind]
                          refine reads_takeText ?_
                          rintro close more rfl hclose
                          exact reads_build hunary hopening hclose

/-- With any fuel each function of the parser reads at its level. The tails are given what has been
joined so far. -/
theorem parse_reads (fuel : Nat) :
    (∀ tokens, Reads .disjunction tokens (parseOr fuel tokens)) ∧
    (∀ used left rest, Derives ReadsAs .disjunction used left →
      Reads .disjunction (used ++ rest) (parseOrTail fuel left rest)) ∧
    (∀ tokens, Reads .conjunction tokens (parseAnd fuel tokens)) ∧
    (∀ used left rest, Derives ReadsAs .conjunction used left →
      Reads .conjunction (used ++ rest) (parseAndTail fuel left rest)) ∧
    (∀ tokens, Reads .term tokens (parseTerm fuel tokens)) := by
  induction fuel with
  | zero => simp [parseOr, parseOrTail, parseAnd, parseAndTail, parseTerm, Reads]
  | succ fuel ih =>
      obtain ⟨hor, horTail, hand, handTail, hterm⟩ := ih
      refine ⟨?_, ?_, ?_, ?_, ?_⟩
      · intro tokens
        rw [parseOr]
        refine Reads.bind (List.nil_append tokens).symm (hand tokens) ?_
        rintro used left more rfl hleft
        exact horTail used left more (.ofConjunction hleft)
      · intro used left rest hleft
        by_cases hjoin : ∃ more, rest = .mark .or :: more
        · obtain ⟨rest, rfl⟩ := hjoin
          rw [parseOrTail_join]
          refine Reads.bind (List.append_cons used (.mark .or) rest) (hand rest) ?_
          rintro more right rest rfl hright
          have hjoined := horTail _ (.or left right) rest (.disjoin hleft hright)
          rwa [List.append_assoc, List.cons_append] at hjoined
        · rw [parseOrTail_stop hjoin]
          exact ⟨used, rfl, hleft⟩
      · intro tokens
        rw [parseAnd]
        refine Reads.bind (List.nil_append tokens).symm (hterm tokens) ?_
        rintro used left more rfl hleft
        exact handTail used left more (.ofTerm hleft)
      · intro used left rest hleft
        by_cases hjoin : ∃ more, rest = .mark .and :: more
        · obtain ⟨rest, rfl⟩ := hjoin
          rw [parseAndTail_join]
          refine Reads.bind (List.append_cons used (.mark .and) rest) (hterm rest) ?_
          rintro more right rest rfl hright
          have hjoined := handTail _ (.and left right) rest (.conjoin hleft hright)
          rwa [List.append_assoc, List.cons_append] at hjoined
        · rw [parseAndTail_stop hjoin]
          exact ⟨used, rfl, hleft⟩
      · intro tokens
        by_cases hnot : ∃ more, tokens = .mark .not :: more
        · obtain ⟨rest, rfl⟩ := hnot
          rw [parseTerm_not]
          refine Reads.bind List.singleton_append.symm (hterm rest) ?_
          rintro used inner more rfl hinner
          exact ⟨_, rfl, .negate hinner⟩
        · by_cases hgroup : ∃ more, tokens = .mark .openParen :: more
          · obtain ⟨rest, rfl⟩ := hgroup
            rw [parseTerm_group]
            refine Reads.bind List.singleton_append.symm (hor rest) ?_
            rintro used inner more rfl hinner
            refine reads_takeText ?_
            rintro close after rfl hclose
            exact ⟨_, by simp, .group hinner hclose⟩
          · rw [parseTerm_call hnot hgroup]
            exact parseCall_reads tokens

/-! ## What is derived is read -/

/-- With enough fuel the parser reads what is derived, whatever follows. At a level that joins it goes
on with a tail, which has fuel left for as much as follows. -/
def IsRead : Level → List Token → Condition → Prop
  | .term, used, condition => ∀ fuel rest, 3 * used.length + 1 ≤ fuel →
    parseTerm fuel (used ++ rest) = .ok (condition, rest)
  | .conjunction, used, condition => ∀ fuel rest, 3 * used.length + 2 ≤ fuel →
    ∃ left, fuel ≤ left + used.length ∧
      parseAnd fuel (used ++ rest) = parseAndTail left condition rest
  | .disjunction, used, condition => ∀ fuel rest, 3 * used.length + 3 ≤ fuel →
    (¬ ∃ more, rest = .mark .and :: more) →
    ∃ left, fuel ≤ left + used.length ∧
      parseOr fuel (used ++ rest) = parseOrTail left condition rest

/-- A conjunction is over where no `&&` follows. -/
theorem IsRead.conjunction_stop (hread : IsRead .conjunction used condition) {fuel : Nat}
    {rest : List Token} (hfuel : 3 * used.length + 2 ≤ fuel)
    (hrest : ¬ ∃ more, rest = .mark .and :: more) :
    parseAnd fuel (used ++ rest) = .ok (condition, rest) := by
  obtain ⟨left, hleft, heq⟩ := hread fuel rest hfuel
  obtain ⟨more, rfl⟩ : ∃ more, left = more + 1 := ⟨left - 1, by omega⟩
  rw [heq, parseAndTail_stop hrest]

theorem takeText_opening {token : Token} (hopening : ReadsAs .openParen token)
    (rest : List Token) : takeText "(" (token :: rest) = .ok rest :=
  if_pos hopening

theorem takeText_close {token : Token} (hclose : ReadsAs .closeParen token) (rest : List Token) :
    takeText ")" (token :: rest) = .ok rest :=
  if_pos hclose

theorem nullary?_eq_none {name : String} {build : String → Except Fault Condition}
    (hname : unary? name = some build) : nullary? name = none := by
  unfold unary? at hname
  split at hname
  · rfl
  · rfl
  · rfl
  · rfl
  · cases hname

theorem ReadsAs.ne_mark {mark other : Mark} {token : Token} (hreads : ReadsAs mark token)
    (hne : mark.text ≠ other.text) : token ≠ .mark other := by
  rintro rfl
  exact hne hreads.symm

theorem Derives.isRead (hderives : Derives ReadsAs level used condition) :
    IsRead level used condition := by
  induction hderives with
  | @disjoin first second left right hfirst hsecond hleft hright =>
      intro fuel rest hfuel hrest
      rw [List.length_append, List.length_cons] at hfuel
      obtain ⟨fuel', hfuel', heq⟩ := hleft fuel (.mark .or :: (second ++ rest)) (by omega) (by simp)
      obtain ⟨more, rfl⟩ : ∃ more, fuel' = more + 1 := ⟨fuel' - 1, by omega⟩
      refine ⟨more, ?_, ?_⟩
      · rw [List.length_append, List.length_cons]
        omega
      · rw [List.append_assoc, List.cons_append, heq, parseOrTail_join,
          hright.conjunction_stop (by omega) hrest, ok_bind]
  | @ofConjunction used condition hconjunction hread =>
      intro fuel rest hfuel hrest
      obtain ⟨more, rfl⟩ : ∃ more, fuel = more + 1 := ⟨fuel - 1, by omega⟩
      have hpos := hconjunction.length_pos
      refine ⟨more, by omega, ?_⟩
      rw [parseOr, hread.conjunction_stop (by omega) hrest, ok_bind]
  | @conjoin first second left right hfirst hsecond hleft hright =>
      intro fuel rest hfuel
      rw [List.length_append, List.length_cons] at hfuel
      obtain ⟨fuel', hfuel', heq⟩ := hleft fuel (.mark .and :: (second ++ rest)) (by omega)
      obtain ⟨more, rfl⟩ : ∃ more, fuel' = more + 1 := ⟨fuel' - 1, by omega⟩
      refine ⟨more, ?_, ?_⟩
      · rw [List.length_append, List.length_cons]
        omega
      · rw [List.append_assoc, List.cons_append, heq, parseAndTail_join,
          hright more rest (by omega), ok_bind]
  | @ofTerm used condition hterm hread =>
      intro fuel rest hfuel
      obtain ⟨more, rfl⟩ : ∃ more, fuel = more + 1 := ⟨fuel - 1, by omega⟩
      have hpos := hterm.length_pos
      refine ⟨more, by omega, ?_⟩
      rw [parseAnd, hread more rest (by omega), ok_bind]
  | @negate used inner _ hinner =>
      intro fuel rest hfuel
      rw [List.length_cons] at hfuel
      obtain ⟨more, rfl⟩ : ∃ more, fuel = more + 1 := ⟨fuel - 1, by omega⟩
      rw [List.cons_append, parseTerm_not, hinner more rest (by omega), ok_bind]
      rfl
  | @group used close inner _ hclose hinner =>
      intro fuel rest hfuel
      rw [List.length_cons, List.length_append, List.length_singleton] at hfuel
      obtain ⟨more, rfl⟩ : ∃ more, fuel = more + 1 := ⟨fuel - 1, by omega⟩
      have hafter : ∀ other, Mark.closeParen.text ≠ other.text →
          ¬ ∃ more, close :: rest = .mark other :: more := by
        rintro other hne ⟨more, heq⟩
        exact hclose.ne_mark hne (List.cons.inj heq).1
      obtain ⟨fuel', hfuel', heq⟩ :=
        hinner more (close :: rest) (by omega) (hafter .and (by decide))
      obtain ⟨last, rfl⟩ : ∃ last, fuel' = last + 1 := ⟨fuel' - 1, by omega⟩
      rw [List.cons_append, List.append_assoc, List.singleton_append, parseTerm_group, heq,
        parseOrTail_stop (hafter .or (by decide)), ok_bind]
      simp only [takeText_close hclose, ok_bind]
      rfl
  | @call name opening close condition hname hopening hclose =>
      intro fuel rest hfuel
      obtain ⟨more, rfl⟩ : ∃ more, fuel = more + 1 := ⟨fuel - 1, by omega⟩
      simp only [List.cons_append, List.nil_append]
      rw [parseTerm_call (by simp) (by simp)]
      simp only [parseCall, takeWord_word, ok_bind, takeText_opening hopening, hname,
        takeText_close hclose]
      rfl
  | @callWith name argument opening close condition build hname hopening hargument hclose =>
      intro fuel rest hfuel
      obtain ⟨more, rfl⟩ : ∃ more, fuel = more + 1 := ⟨fuel - 1, by omega⟩
      simp only [List.cons_append, List.nil_append]
      rw [parseTerm_call (by simp) (by simp)]
      simp only [parseCall, takeWord_word, ok_bind, takeText_opening hopening,
        nullary?_eq_none hname, hname, takeQuoted_quoted, takeText_close hclose, hargument]
      rfl

/-! ## Parentheses -/

/-- Whatever the grammar derives has a group or a call, so a parenthesis. -/
theorem Derives.openParen_mem (hderives : Derives IsMark level used condition) :
    Token.mark .openParen ∈ used := by
  induction hderives with
  | disjoin _ _ hleft _ => exact List.mem_append_left _ hleft
  | ofConjunction _ hconjunction => exact hconjunction
  | conjoin _ _ hleft _ => exact List.mem_append_left _ hleft
  | ofTerm _ hterm => exact hterm
  | negate _ hinner => exact List.mem_cons_of_mem _ hinner
  | group _ _ _ => exact List.mem_cons_self
  | call _ hopening _ =>
      cases hopening
      simp
  | callWith _ hopening _ _ =>
      cases hopening
      simp

/-- A token of a text that has the text of a mark is the mark, or quotes it. -/
theorem ReadsAs.isMark_or_quoted {mark : Mark} {token : Token} {lexeme : List Char}
    (hreads : ReadsAs mark token) (hwritten : token.Written lexeme) :
    IsMark mark token ∨ token = .quoted mark.text := by
  cases hwritten with
  | mark other =>
      left
      change other.text = mark.text at hreads
      cases mark <;> cases other <;> first | rfl | exact absurd hreads (by decide)
  | quoted _ _ => exact Or.inr (congrArg Token.quoted hreads)
  | @word first tail hfirst _ =>
      have htext : mark.text.toList = first :: tail := by
        rw [← hreads]
        exact String.toList_ofList
      obtain ⟨c, rest, hmark, hcode⟩ := mark.exists_cons
      cases hmark.symm.trans htext
      exact absurd (code_of_wordStart hfirst) hcode

/-! ## Whole expressions -/

theorem ofTokens_eq_ok_iff :
    ofTokens tokens = .ok condition ↔ Derives ReadsAs .disjunction tokens condition := by
  have hsound := (parse_reads (sufficientFuel tokens.length)).1 tokens
  unfold ofTokens
  constructor
  · intro hok
    split at hok
    · cases hok
    · obtain ⟨⟨found, rest⟩, hparse, hok⟩ := bind_eq_ok_iff.mp hok
      rw [hparse] at hsound
      obtain ⟨used, htokens, hderives⟩ := hsound
      cases rest with
      | nil =>
          cases hok
          rw [htokens, List.append_nil]
          exact hderives
      | cons token rest => cases hok
  · intro hderives
    have hne : tokens.isEmpty = false := by
      rw [List.isEmpty_eq_false_iff, ← List.length_pos_iff]
      exact hderives.length_pos
    obtain ⟨left, hleft, hparse⟩ :=
      hderives.isRead (sufficientFuel tokens.length) [] (Nat.le_refl _) (by simp)
    rw [List.append_nil] at hparse
    obtain ⟨more, rfl⟩ : ∃ more, left = more + 1 := by
      unfold sufficientFuel at hleft
      exact ⟨left - 1, by omega⟩
    rw [hne, hparse, parseOrTail_stop (by simp)]
    rfl

theorem callsBadPattern_of_ofTokens {error : PatternError}
    (hfails : ofTokens tokens = .error (.pattern error)) : CallsBadPattern tokens error := by
  have hsound := (parse_reads (sufficientFuel tokens.length)).1 tokens
  unfold ofTokens at hfails
  split at hfails
  · cases hfails
  · cases hparse : parseOr (sufficientFuel tokens.length) tokens with
    | error fault =>
        rw [hparse] at hfails hsound
        cases hfails
        exact hsound
    | ok result =>
        obtain ⟨found, rest⟩ := result
        rw [hparse] at hfails
        cases rest with
        | nil => cases hfails
        | cons token rest => cases hfails

theorem parse_eq_ok_iff {expression : String} :
    parse expression = .ok condition ↔
      ∃ tokens, Spells expression.toList tokens ∧
        Derives ReadsAs .disjunction tokens condition := by
  unfold parse
  cases htokens : tokens expression with
  | error position =>
      constructor
      · rintro ⟨⟩
      · rintro ⟨found, hspells, _⟩
        cases htokens.symm.trans (tokens_eq_ok_iff.mpr hspells)
  | ok found =>
      have hspells := tokens_eq_ok_iff.mp htokens
      constructor
      · intro hok
        refine ⟨found, hspells, ofTokens_eq_ok_iff.mp ?_⟩
        simp only at hok
        split at hok
        · cases hok
          assumption
        · cases hok
        · cases hok
      · rintro ⟨other, hother, hderives⟩
        cases htokens.symm.trans (tokens_eq_ok_iff.mpr hother)
        simp only [ofTokens_eq_ok_iff.mpr hderives]

/-- Expressions are read by their grammar, but for quoted parentheses. A condition is read exactly
where the tokens of the expression derive it when each parenthesis of a call, and each that closes a
group, may be quoted. So whatever the grammar derives is read as it is derived, and where no
parenthesis is quoted nothing else is read. What is not read fails as no condition, or as a bad
pattern that stands as an argument. -/
theorem parse_reads_grammar (expression : String) :
    (∀ condition, parse expression = .ok condition ↔
      ∃ tokens, Spells expression.toList tokens ∧
        Derives ReadsAs .disjunction tokens condition) ∧
    (∀ tokens condition, Spells expression.toList tokens →
      Derives IsMark .disjunction tokens condition → parse expression = .ok condition) ∧
    (∀ tokens condition, Spells expression.toList tokens →
      (∀ mark ∈ parens, Token.quoted mark.text ∉ tokens) → parse expression = .ok condition →
        Derives IsMark .disjunction tokens condition) ∧
    (∀ error, parse expression = .error error →
      (∃ fault, error = .condition ⟨expression, fault⟩ ∧ ∀ other, fault ≠ .pattern other) ∨
      ∃ other tokens, error = .pattern other ∧ Spells expression.toList tokens ∧
        CallsBadPattern tokens other) := by
  refine ⟨fun _ => parse_eq_ok_iff, ?_, ?_, ?_⟩
  · intro tokens condition hspells hderives
    refine parse_eq_ok_iff.mpr ⟨tokens, hspells, hderives.mono ?_⟩
    rintro mark _ token _ rfl
    rfl
  · intro tokens condition hspells hunquoted hok
    obtain ⟨found, hfound, hderives⟩ := parse_eq_ok_iff.mp hok
    cases (tokens_eq_ok_iff.mpr hspells).symm.trans (tokens_eq_ok_iff.mpr hfound)
    refine hderives.mono ?_
    intro mark hmark token htoken hreads
    obtain ⟨lexeme, hwritten⟩ := hspells.exists_written htoken
    rcases hreads.isMark_or_quoted hwritten with hmatch | rfl
    · exact hmatch
    · exact absurd htoken (hunquoted mark hmark)
  · intro error hfails
    unfold parse at hfails
    split at hfails
    · cases hfails
      exact Or.inl ⟨_, rfl, by simp⟩
    · next tokens htokens =>
        split at hfails
        · cases hfails
        · next other hbad =>
            cases hfails
            exact Or.inr ⟨other, tokens, rfl, tokens_eq_ok_iff.mp htokens,
              callsBadPattern_of_ofTokens hbad⟩
        · next fault hnot hfault =>
            cases hfails
            exact Or.inl ⟨fault, rfl, hnot⟩

/-- Quoted parentheses make a call where the grammar has none. -/
theorem parse_accepts_quoted_parens :
    parse "success '(' ')'" = .ok (.status .success) ∧
      ¬ ∃ tokens condition, Spells "success '(' ')'".toList tokens ∧
        Derives IsMark .disjunction tokens condition := by
  refine ⟨by cbv, ?_⟩
  rintro ⟨found, condition, hspells, hderives⟩
  have htokens : tokens "success '(' ')'" = .ok [.word "success", .quoted "(", .quoted ")"] := by
    cbv
  cases htokens.symm.trans (tokens_eq_ok_iff.mpr hspells)
  simpa using hderives.openParen_mem

end CiPipeline.Condition
