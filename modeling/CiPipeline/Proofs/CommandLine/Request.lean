import CiPipeline.CommandLine.Request
import CiPipeline.Proofs.Except

/-!
The options of an event mean the same for both commands: words that are given to a plan are taken by a
run too, and what they leave open a run leaves to its settings.
-/

namespace CiPipeline.CommandLine

variable {forms more : List OptionForm} {mixed : Bool} {args : List String} {words : Words}

namespace Words

/-- More options that are known change nothing for words that were sorted without them. -/
theorem sort_append (hsort : sort forms mixed args = .ok words) :
    sort (forms ++ more) mixed args = .ok words := by
  fun_induction sort forms mixed args generalizing words with
  | case1 => rw [sort, hsort]
  | case2 rest => rw [sort, if_pos rfl, hsort]
  | case3 word rest hend hother hmixed ih =>
      obtain ⟨before, hbefore, rfl⟩ := map_eq_ok_iff.mp hsort
      rw [sort, if_neg hend, if_pos hother, if_pos hmixed, ih hbefore]
      rfl
  | case4 word rest hend hother hmixed =>
      rw [sort, if_neg hend, if_pos hother, if_neg hmixed, hsort]
  | case5 | case6 | case9 => cases hsort
  | case7 word hend hoption name form rest hform hname ih =>
      obtain ⟨before, hbefore, rfl⟩ := map_eq_ok_iff.mp hsort
      rw [sort, if_neg hend, if_neg hoption]
      simp only [hname, List.find?_append, hform, Option.some_or, ih hbefore]
      rfl
  | case8 word hend hoption name form value rest htakes hform hname ih =>
      obtain ⟨before, hbefore, rfl⟩ := map_eq_ok_iff.mp hsort
      rw [sort, if_neg hend, if_neg hoption]
      simp only [hname, List.find?_append, hform, Option.some_or, ih hbefore]
      rfl
  | case10 word hend hoption name form value rest htakes hform hname ih =>
      obtain ⟨before, hbefore, rfl⟩ := map_eq_ok_iff.mp hsort
      rw [sort, if_neg hend, if_neg hoption]
      simp only [hname, List.find?_append, hform, Option.some_or, ih hbefore]
      rfl

/-- Only known options are given. -/
theorem exists_form_of_sort (hsort : sort forms mixed args = .ok words) {option : Given}
    (hgiven : option ∈ words.given) : ∃ form ∈ forms, form.name = option.name := by
  have hfirst : ∀ {name form value} {before : Words},
      forms.find? (·.name == name) = some form →
      (option ∈ before.given → ∃ form ∈ forms, form.name = option.name) →
      option ∈ (before.withOption { name, value }).given →
      ∃ form ∈ forms, form.name = option.name := by
    intro name form value before hform hrest hoption
    rcases List.mem_cons.mp hoption with rfl | hoption
    · exact ⟨form, List.mem_of_find?_eq_some hform, by simpa using List.find?_some hform⟩
    · exact hrest hoption
  fun_induction sort forms mixed args generalizing words with
  | case1 | case2 | case4 =>
      cases hsort
      cases hgiven
  | case3 word rest hend hother hmixed ih =>
      obtain ⟨before, hbefore, rfl⟩ := map_eq_ok_iff.mp hsort
      exact ih hbefore hgiven
  | case5 | case6 | case9 => cases hsort
  | case7 word hend hoption name form rest hform hname ih =>
      obtain ⟨before, hbefore, rfl⟩ := map_eq_ok_iff.mp hsort
      exact hfirst hform (ih hbefore) hgiven
  | case8 word hend hoption name form value rest htakes hform hname ih =>
      obtain ⟨before, hbefore, rfl⟩ := map_eq_ok_iff.mp hsort
      exact hfirst hform (ih hbefore) hgiven
  | case10 word hend hoption name form value rest htakes hform hname ih =>
      obtain ⟨before, hbefore, rfl⟩ := map_eq_ok_iff.mp hsort
      exact hfirst hform (ih hbefore) hgiven

theorem last?_eq_none {names : List String}
    (hnames : ∀ option ∈ words.given, option.name ∉ names) : words.last? names = none := by
  rw [last?, List.getLast?_eq_none_iff, List.filter_eq_nil_iff]
  simpa using hnames

end Words

/-! ## Words of an event -/

section Event

variable (hsort : Words.sort eventForms true args = .ok words)

include hsort

/-- None of the options that are those of a run alone has been given. -/
theorem Words.last?_eq_none_of_sort {names : List String}
    (hnames : ∀ form ∈ eventForms, form.name ∉ names) : words.last? names = none := by
  apply last?_eq_none
  intro option hgiven
  obtain ⟨form, hform, hname⟩ := exists_form_of_sort hsort hgiven
  exact hname ▸ hnames form hform

/-- Words of an event leave everything else about a run open. -/
theorem RunOptions.ofWords_eq : RunOptions.ofWords words = { event := EventOptions.ofWords words } := by
  simp (disch := decide) only [RunOptions.ofWords, Words.value?, Words.switch?, Words.has,
    Words.last?_eq_none_of_sort hsort]
  rfl

/-- A bad value of an event option is a bad use of the program. -/
theorem exists_usage_of_wordsFault? {workspace : Workspace} {fault : RequestFault}
    (hfault : wordsFault? workspace words = some fault) : ∃ usage, fault = .usage usage := by
  obtain ⟨option, hgiven, hfault⟩ := List.exists_of_findSome?_eq_some hfault
  obtain ⟨form, hform, hname⟩ := Words.exists_form_of_sort hsort hgiven
  have hreport : ∀ form ∈ eventForms, form.name ≠ reportOption := by decide
  have hother : option.name ≠ reportOption := hname ▸ hreport form hform
  obtain ⟨text, _, hrefused⟩ := Option.bind_eq_some_iff.mp hfault
  simp only [if_neg hother] at hrefused
  -- each of the other options has a value that is read, or it has none that could be wrong
  split at hrefused
  case h_4 => cases hrefused
  all_goals
    split at hrefused
    · cases hrefused
    · exact ⟨_, (Option.some.inj hrefused).symm⟩

/-- Words of an event are no request to either command, and for the same reason, or they make the
requests for the same event to both. -/
theorem Request.ofWords_cases (hhelp : words.has helpForm.name = false) (workspace : Workspace) :
    (∃ fault, ∀ command, Request.ofWords workspace command args = .error (.usage fault)) ∨
      (Request.ofWords workspace .plan args = .ok (.plan (EventOptions.ofWords words)) ∧
        Request.ofWords workspace .run args = .ok (.run { event := EventOptions.ofWords words })) := by
  have hforms : ∀ command : CommandName, Words.sort command.forms true args = .ok words := by
    intro command
    cases command with
    | plan => exact hsort
    | run => exact Words.sort_append hsort
  cases hfault : wordsFault? workspace words with
  | some fault =>
      obtain ⟨usage, rfl⟩ := exists_usage_of_wordsFault? hsort hfault
      refine .inl ⟨usage, fun command => ?_⟩
      simp only [Request.ofWords, hforms, Except.mapError, ok_bind, hhelp, hfault]
      rfl
  | none =>
      cases hothers : words.others with
      | cons word rest =>
          refine .inl ⟨.needlessWord word, fun command => ?_⟩
          simp only [Request.ofWords, hforms, Except.mapError, ok_bind, hhelp, hfault, hothers]
          rfl
      | nil =>
          simp only [Request.ofWords, hforms, Except.mapError, ok_bind, hhelp, hfault, hothers,
            RunOptions.ofWords_eq hsort]
          exact .inr ⟨rfl, rfl⟩

end Event
end CiPipeline.CommandLine
