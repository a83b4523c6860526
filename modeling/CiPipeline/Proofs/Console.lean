import CiPipeline.Console
import CiPipeline.Proofs.Text.Occurrence

/-!
What can be read on the console. Each line that is shown comes from one notice, and cutting an output
to its end adds nothing to it that could be read in a line.
-/

namespace CiPipeline

/-- A value stands in a line of what is printed. -/
def Printed.Shows (printed : Printed) (value : String) : Prop :=
  '\n' ∉ value.toList ∧
    (Text.Occurs value (textOf printed.out) ∨ Text.Occurs value (textOf printed.err))

namespace Printed

variable {printed : Printed} {value line : String}

theorem toList_textOf (lines : List String) :
    (textOf lines).toList = (lines.map String.toList).flatMap (· ++ ['\n']) := by
  simp [textOf, String.toList_join, List.flatMap_map]

theorem occurs_textOf_of_mem {lines : List String} (hline : line ∈ lines)
    (hoccurs : Text.Occurs value line) : Text.Occurs value (textOf lines) := by
  rw [Text.Occurs, toList_textOf, List.flatMap_def]
  have hpiece : line.toList ++ ['\n'] ∈ (lines.map String.toList).map (· ++ ['\n']) :=
    List.mem_map_of_mem (List.mem_map_of_mem hline)
  exact (hoccurs.trans (List.prefix_append _ _).isInfix).trans (List.infix_of_mem_flatten hpiece)

theorem exists_occurs_of_textOf (hend : '\n' ∉ value.toList) (hvalue : value ≠ "")
    {lines : List String} (hoccurs : Text.Occurs value (textOf lines)) :
    ∃ line ∈ lines, Text.Occurs value line := by
  have hne : value.toList ≠ [] := fun hnil => hvalue (String.toList_eq_nil_iff.mp hnil)
  rw [Text.Occurs, toList_textOf] at hoccurs
  obtain ⟨_, hpiece, hoccurs⟩ := Text.exists_infix_of_flatMap hend hne hoccurs
  obtain ⟨line, hline, rfl⟩ := List.mem_map.mp hpiece
  exact ⟨line, hline, hoccurs⟩

theorem Shows.exists_line (hshows : printed.Shows value) (hvalue : value ≠ "") :
    ∃ line, (line ∈ printed.out ∨ line ∈ printed.err) ∧ Text.Occurs value line := by
  obtain ⟨hend, hout | herr⟩ := hshows
  · obtain ⟨line, hline, hoccurs⟩ := exists_occurs_of_textOf hend hvalue hout
    exact ⟨line, Or.inl hline, hoccurs⟩
  · obtain ⟨line, hline, hoccurs⟩ := exists_occurs_of_textOf hend hvalue herr
    exact ⟨line, Or.inr hline, hoccurs⟩

theorem out_append (a b : Printed) : (a ++ b).out = a.out ++ b.out := rfl

theorem err_append (a b : Printed) : (a ++ b).err = a.err ++ b.err := rfl

theorem append_assoc (a b c : Printed) : a ++ b ++ c = a ++ (b ++ c) := by
  change Printed.mk (a.out ++ b.out ++ c.out) (a.err ++ b.err ++ c.err) = _
  rw [List.append_assoc, List.append_assoc]
  rfl

theorem empty_append (printed : Printed) : ({} : Printed) ++ printed = printed := rfl

theorem foldl_append_eq (first : Printed) (outputs : List Printed) :
    outputs.foldl append first =
      ⟨first.out ++ outputs.flatMap Printed.out, first.err ++ outputs.flatMap Printed.err⟩ := by
  induction outputs generalizing first with
  | nil => simp
  | cons output rest ih => simp [ih, append]

theorem concat_eq (outputs : List Printed) :
    concat outputs = ⟨outputs.flatMap Printed.out, outputs.flatMap Printed.err⟩ := by
  rw [concat, foldl_append_eq]
  rfl

end Printed

namespace Console

variable {console : Console} {showSteps : Bool} {value line output : String}

theorem mem_out_notices_iff {log : List Notice} :
    line ∈ (console.notices showSteps log).out ↔
      ∃ notice ∈ log, line ∈ (console.notice showSteps notice).out := by
  rw [notices, Printed.concat_eq, List.flatMap_map, List.mem_flatMap]

theorem err_notice (notice : Notice) : (console.notice showSteps notice).err = [] := by
  cases notice with
  | stepBegun id name => cases showSteps <;> rfl
  | _ => rfl

/-- Nothing about a run is a complaint. -/
theorem err_notices (log : List Notice) : (console.notices showSteps log).err = [] := by
  rw [notices, Printed.concat_eq]
  simp only [List.flatMap_eq_nil_iff]
  intro printed hprinted
  obtain ⟨notice, _, rfl⟩ := List.mem_map.mp hprinted
  exact err_notice notice

theorem occurs_of_trimEnd (hoccurs : Text.Occurs value (trimEnd output)) :
    Text.Occurs value output := by
  have hkept : (trimEnd output).toList <+: output.toList := by
    rw [trimEnd, String.toList_ofList, ← List.reverse_suffix, List.reverse_reverse]
    exact List.dropWhile_suffix Text.isBlank
  exact List.IsInfix.trans hoccurs hkept.isInfix

/-- What stands in a line of the end of an output stands in the output. -/
theorem occurs_of_tailOf (hend : '\n' ∉ value.toList) (hvalue : value ≠ "")
    (hoccurs : Text.Occurs value (tailOf output)) : Text.Occurs value output := by
  have hne : value.toList ≠ [] := fun hnil => hvalue (String.toList_eq_nil_iff.mp hnil)
  rw [Text.Occurs, tailOf, String.toList_intercalate] at hoccurs
  obtain ⟨piece, hpiece, hoccurs⟩ := Text.exists_infix_of_intercalate hend hne hoccurs
  obtain ⟨line, hline, rfl⟩ := List.mem_map.mp hpiece
  obtain ⟨cut, hcut, rfl⟩ := List.mem_map.mp (List.mem_of_mem_drop hline)
  rw [String.toList_ofList] at hoccurs
  exact hoccurs.trans (Text.infix_of_mem_cutLines hcut)

/-- The lines that may stand in the result of a job. -/
inductive ResultLine (console : Console) (record : JobRecord) : String → Prop
  | outcome : ResultLine console record ("JOB " ++ record.outcome.title ++ ": " ++ record.id.text)
  | title : ResultLine console record ("Name: " ++ record.title)
  | reason (hreason : record.reason ≠ "") : ResultLine console record ("Reason: " ++ record.reason)
  | duration {seconds : Number.Binary64} (hseconds : record.duration = some seconds) :
      ResultLine console record ("Duration: " ++ seconds.tenths ++ "s")
  | stepName {step : StepRecord} (hstep : step ∈ record.steps) :
      ResultLine console record ("--- " ++ step.name ++ " ---")
  | stepOutput {step : StepRecord} (hstep : step ∈ record.steps) :
      ResultLine console record
        (trimEnd (if console.debug then step.output else tailOf step.output))

theorem resultLine_of_mem {record : JobRecord} (hline : line ∈ (console.jobResult record).out) :
    console.ResultLine record line := by
  simp only [jobResult, emit, List.cons_append, List.mem_cons, List.mem_append] at hline
  rcases hline with rfl | ((htitle | hreason) | hduration) | houtput
  · exact .outcome
  · split at htitle
    · rw [List.mem_singleton] at htitle
      exact htitle ▸ .title
    · cases htitle
  · split at hreason
    · next hshown =>
        rw [List.mem_singleton] at hreason
        exact hreason ▸ .reason (by rintro hempty; simp [hempty] at hshown)
    · cases hreason
  · obtain ⟨seconds, hseconds, rfl⟩ := List.mem_map.mp hduration
    exact .duration (Option.mem_toList.mp hseconds)
  · split at houtput
    · obtain ⟨step, hstep, hline⟩ := List.mem_flatMap.mp houtput
      unfold stepOutput at hline
      split at hline
      · cases hline
      · rw [List.mem_cons, List.mem_singleton] at hline
        rcases hline with rfl | rfl
        · exact .stepName hstep
        · exact .stepOutput hstep
    · cases houtput

end Console
end CiPipeline
