import CiPipeline.Proofs.Graph.Overtaken
import CiPipeline.Proofs.Schedule.Course
import CiPipeline.Proofs.Schedule.Stop

/-!
Why instances are cancelled. A reason is written at one of three moments: when a stop cancels what was
not started, when an end takes others along, and when the gate refuses. Main statement: whatever a
reason blames has come to the end that it is blamed for, in every order in which jobs may be done.
-/

namespace CiPipeline

/-- An instance is recorded with an outcome. -/
def RunState.EndedAs (state : RunState) (id : InstanceId) (outcome : Outcome) : Prop :=
  ∃ record, state.records.get? id = some record ∧ record.outcome = outcome

namespace Scheduler

section Definitions

variable (scheduler : Scheduler)

/-- Going from an instance to something that it waits for, and on by way of cancelled instances only,
leads to a culprit. -/
inductive TracesTo (state : RunState) : InstanceId → InstanceId → Prop
  | direct {id culprit : InstanceId} (hneed : culprit ∈ scheduler.graph.dependencies id) :
      TracesTo state id culprit
  | through {id between culprit : InstanceId}
      (hneed : between ∈ scheduler.graph.dependencies id)
      (hcancelled : state.EndedAs between .cancelled) (htraces : TracesTo state between culprit) :
      TracesTo state id culprit

/-- The wordings that blame the right instances for the cancellation of an instance. -/
inductive Blames (state : RunState) (id : InstanceId) : String → Prop
  /-- A failure has stopped the run. -/
  | failFast (hstrict : scheduler.failFast = true) (hfailed : state.Failed) :
      Blames state id "fail-fast"
  /-- Something that the instance waits for, directly or not, did not succeed. -/
  | upstream {culprit : InstanceId} {outcome : Outcome}
      (htraces : scheduler.TracesTo state id culprit) (hended : state.EndedAs culprit outcome)
      (hfailed : outcome ≠ .success) :
      Blames state id ("upstream " ++ culprit.text ++ " ended " ++ outcome.name)
  /-- Some of the needs did not succeed. Each that is listed stands there with how it ended. -/
  | needs {listed : List (InstanceId × Outcome)} (hsome : listed ≠ [])
      (hlisted : ∀ need outcome, (need, outcome) ∈ listed →
        need ∈ scheduler.graph.dependencies id ∧ state.EndedAs need outcome ∧
          outcome ≠ .success) :
      Blames state id ("needs " ++ ", ".intercalate
        (listed.map fun (need, outcome) => need.text ++ " (" ++ outcome.name ++ ")"))

/-- Every record of a cancelled instance blames the right ones. -/
def Blamed (state : RunState) : Prop :=
  ∀ id record, state.records.get? id = some record → record.outcome = .cancelled →
    scheduler.Blames state id record.reason

end Definitions

variable {scheduler : Scheduler} {state next : RunState} {id : InstanceId} {reason : String}

/-! ## Blame stays right -/

theorem TracesTo.mono {culprit : InstanceId} (htraces : scheduler.TracesTo state id culprit)
    (hended : ∀ id outcome, state.EndedAs id outcome → next.EndedAs id outcome) :
    scheduler.TracesTo next id culprit := by
  induction htraces with
  | direct hneed => exact .direct hneed
  | through hneed hcancelled _ ih => exact .through hneed (hended _ _ hcancelled) ih

theorem Blames.mono (hblames : scheduler.Blames state id reason)
    (hended : ∀ id outcome, state.EndedAs id outcome → next.EndedAs id outcome) :
    scheduler.Blames next id reason := by
  cases hblames with
  | failFast hstrict hfailed =>
      obtain ⟨failed, hfailed⟩ := hfailed
      exact .failFast hstrict ⟨failed, hended failed .failure hfailed⟩
  | upstream htraces hculprit hfailed =>
      exact .upstream (htraces.mono hended) (hended _ _ hculprit) hfailed
  | needs hsome hlisted =>
      refine .needs hsome ?_
      intro need outcome hmem
      obtain ⟨hneed, hneeded, hfailed⟩ := hlisted need outcome hmem
      exact ⟨hneed, hended need outcome hneeded, hfailed⟩

theorem Blamed.of_records_eq (hblamed : scheduler.Blamed state)
    (hrecords : next.records = state.records) : scheduler.Blamed next := by
  intro id record hrecord hcancelled
  rw [hrecords] at hrecord
  refine (hblamed id record hrecord hcancelled).mono ?_
  rintro need outcome ⟨found, hfound, houtcome⟩
  exact ⟨found, hrecords ▸ hfound, houtcome⟩

/-- Jobs may end whose cancellations are put down to the right ones. -/
theorem Blamed.settle {records : List JobRecord} (hblamed : scheduler.Blamed state)
    (hrecords : ∀ record ∈ records, record.outcome = .cancelled →
      scheduler.Blames (state.settle records) record.id record.reason) :
    scheduler.Blamed (state.settle records) := by
  have hended : ∀ id outcome, state.EndedAs id outcome →
      (state.settle records).EndedAs id outcome := by
    rintro id outcome ⟨record, hrecord, houtcome⟩
    exact ⟨record, by rw [RunState.get?_records_settle, hrecord, Option.some_or], houtcome⟩
  intro id record hrecord hcancelled
  rw [RunState.get?_records_settle, Option.or_eq_some_iff] at hrecord
  rcases hrecord with hold | ⟨_, hfound⟩
  · exact (hblamed id record hold hcancelled).mono hended
  · have hid : record.id = id := by simpa using List.find?_some hfound
    subst hid
    exact hrecords record (List.mem_of_find?_eq_some hfound) hcancelled

theorem endedAs_iff (hstate : scheduler.Coherent state) {outcome : Outcome} :
    state.EndedAs id outcome ↔ state.progress.get? id = some (.ended outcome) :=
  (hstate.accounted.ended_iff id outcome).symm

/-! ## What an end takes along -/

theorem tracesTo_of_onChainBehind (hgraph : scheduler.graph.WellFormed) {record : JobRecord}
    (hcoherent : scheduler.Coherent (scheduler.completed state record))
    (hrecord : record.id ∈ scheduler.graph.ids) (hfailed : record.outcome ≠ .success)
    (hchain : scheduler.graph.OnChainBehind state.progress record.id id) :
    scheduler.TracesTo (scheduler.completed state record) id record.id := by
  induction hchain with
  | single hstep => exact .direct ((Graph.mem_dependents_iff hgraph.nodup_ids).mp hstep.1)
  | tail hbefore hstep ih =>
      have hovertaken := (Graph.mem_overtaken_iff hgraph hrecord hfailed).mpr hbefore
      refine .through ((Graph.mem_dependents_iff hgraph.nodup_ids).mp hstep.1) ?_ ih
      rw [endedAs_iff hcoherent, get?_completed, if_pos hovertaken]

/-- Whatever an end takes along is put down to that end. -/
theorem Blamed.completed (hgraph : scheduler.graph.WellFormed) {record : JobRecord}
    (hblamed : scheduler.Blamed state)
    (hcoherent : scheduler.Coherent (scheduler.completed state record))
    (hself : record.outcome = .cancelled →
      scheduler.Blames (scheduler.completed state record) record.id record.reason) :
    scheduler.Blamed (scheduler.completed state record) := by
  apply hblamed.settle
  intro other hother hcancelled
  rcases List.mem_cons.mp hother with rfl | hother
  · exact hself hcancelled
  · obtain ⟨child, hchild, rfl⟩ := List.mem_map.mp hother
    have hended : (scheduler.completed state record).progress.get? record.id =
        some (.ended record.outcome) := get?_completed_self hgraph.nodup_ids
    have hfailed := (Graph.of_mem_overtaken hgraph.nodup_ids hchild).1
    refine .upstream ?_ ((endedAs_iff hcoherent).mpr hended) hfailed
    apply tracesTo_of_onChainBehind hgraph hcoherent (hcoherent.mem_keys hended) hfailed
    exact Graph.onChainBehind_of_mem_overtaken hgraph hchild

/-! ## What the gate refuses -/

/-- A job that the gate cancels has needs that did not succeed, and all that are listed did not. -/
theorem blames_of_refusal (hstate : scheduler.Coherent state) {job : JobInstance}
    {refusal : Refusal} (hverdict : scheduler.gate.decide job
      (scheduler.needOutcomes state.progress id) = .refuse refusal)
    (hcancelled : refusal.outcome = .cancelled) :
    scheduler.Blames state id refusal.reason := by
  have hended : ∀ need outcome,
      (scheduler.needOutcomes state.progress id).get? need = some outcome →
      need ∈ scheduler.graph.dependencies id ∧ state.EndedAs need outcome := by
    intro need outcome hneed
    obtain ⟨hmem, hprogress⟩ := of_get?_needOutcomes hneed
    exact ⟨hmem, (endedAs_iff hstate).mpr hprogress⟩
  have hdecides := scheduler.gate.decides_decide job (scheduler.needOutcomes state.progress id)
  rw [hverdict] at hdecides
  cases hdecides with
  | needsFailed _ hsome =>
      refine .needs hsome ?_
      intro need outcome hlisted
      obtain ⟨hneed, hfailed⟩ := Gate.mem_unsuccessful_iff.mp hlisted
      obtain ⟨hmem, hneeded⟩ := hended need outcome hneed
      exact ⟨hmem, hneeded, hfailed⟩
  | needsCancelled hobstructs =>
      have hreason : Refusal.reason (.needsCancelled
          (Gate.cancelledNeeds (scheduler.needOutcomes state.progress id))) =
          "needs " ++ ", ".intercalate (((Gate.cancelledNeeds
            (scheduler.needOutcomes state.progress id)).map (·, Outcome.cancelled)).map
              fun (need, outcome) => need.text ++ " (" ++ outcome.name ++ ")") := by
        rw [List.map_map]
        rfl
      rw [hreason]
      refine .needs (by simpa using hobstructs.2.2) ?_
      intro need outcome hlisted
      obtain ⟨own, hown, heq⟩ := List.mem_map.mp hlisted
      cases heq
      obtain ⟨hmem, hneeded⟩ := hended _ .cancelled (Gate.mem_cancelledNeeds_iff.mp hown)
      exact ⟨hmem, hneeded, by decide⟩
  | conditionFalse _ => cases hcancelled

/-! ## Along a run -/

theorem Blamed.stop (hblamed : scheduler.Blamed state) (hstrict : scheduler.failFast = true)
    (hfailed : (scheduler.stop state).Failed) : scheduler.Blamed (scheduler.stop state) := by
  have hstopped : scheduler.Blamed { state with stopped := true, queue := [] } :=
    hblamed.of_records_eq rfl
  rw [stop_eq] at hfailed ⊢
  apply hstopped.settle
  intro record hrecord _
  obtain ⟨child, _, rfl⟩ := List.mem_map.mp hrecord
  exact .failFast hstrict hfailed

/-- A worker that is done with a job does not say that it was cancelled. -/
theorem ne_cancelled_of_recordOf? (hdecided : Decided scheduler.execute)
    (hstate : scheduler.Coherent state) {flight : Flight} (hflight : flight ∈ state.inFlight)
    {record : JobRecord} (hrecord : scheduler.recordOf? flight = some record) :
    record.outcome ≠ .cancelled := by
  obtain ⟨job, steps, _, hresult⟩ := hstate.flown flight hflight
  unfold recordOf? at hrecord
  split at hrecord
  · next hok =>
      cases hrecord
      rcases hdecided job steps record (hresult.symm.trans hok) with houtcome | houtcome <;>
        simp [houtcome]
  · cases hrecord
    simp [crashedRecord]
  · cases hrecord

theorem Step.blamed (hgraph : scheduler.graph.WellFormed) (hown : OwnRecords scheduler.execute)
    (hdecided : Decided scheduler.execute) (hstep : scheduler.Step state next)
    (hstate : scheduler.Coherent state) (hblamed : scheduler.Blamed state) :
    scheduler.Blamed next := by
  cases hstep with
  | enqueue _ _ _ _ => exact hblamed.of_records_eq rfl
  | start _ _ _ => exact hblamed.of_records_eq rfl
  | elapse _ _ _ => exact hblamed.of_records_eq rfl
  | @refuse id job refusal _ hready hjob hverdict =>
      have hpending := ((Graph.mem_ready_iff hgraph.nodup_ids).mp hready).2.1
      have hcoherent := hstate.refused hgraph hpending refusal
      refine hblamed.completed hgraph hcoherent ?_
      intro hcancelled
      refine (blames_of_refusal hstate hverdict hcancelled).mono ?_
      rintro need outcome ⟨record, hrecord, houtcome⟩
      exact ⟨record, get?_records_completed hrecord, houtcome⟩
  | @collect flight rest record hflight hrecord =>
      have hmem : flight ∈ state.inFlight := by simp [hflight]
      have hcoherent := hstate.landed hgraph hown hflight hrecord
      have hlanded : scheduler.Blamed { state with inFlight := rest } :=
        hblamed.of_records_eq rfl
      have hcompleted := hlanded.completed hgraph hcoherent fun hcancelled =>
        absurd hcancelled (ne_cancelled_of_recordOf? hdecided hstate hmem hrecord)
      rcases scheduler.collected_cases { state with inFlight := rest } record with
        heq | ⟨heq, hfailure, hstrict, _⟩
      · rw [heq]
        exact hcompleted
      · have hself : (scheduler.collected { state with inFlight := rest } record).records.get?
            record.id = some record :=
          get?_records_collected_self (hstate.get?_record_eq_none hown hmem hrecord)
        rw [heq] at hself ⊢
        exact hcompleted.stop hstrict ⟨record.id, record, hself, hfailure⟩

theorem Steps.blamed (hgraph : scheduler.graph.WellFormed) (hown : OwnRecords scheduler.execute)
    (hdecided : Decided scheduler.execute) {last : RunState}
    (hsteps : scheduler.Steps scheduler.initial last) : scheduler.Blamed last := by
  induction hsteps with
  | refl =>
      intro id record hrecord
      cases hrecord
  | tail hbefore hstep ih =>
      exact hstep.blamed hgraph hown hdecided (Steps.coherent_of_initial hgraph hown hbefore) ih

/-- The words of a stop are used for a stop only. -/
theorem Blames.of_failFast (hblames : scheduler.Blames state id "fail-fast") :
    scheduler.failFast = true ∧ state.Failed := by
  generalize hreason : "fail-fast" = reason at hblames
  cases hblames with
  | failFast hstrict hfailed => exact ⟨hstrict, hfailed⟩
  | upstream _ _ _ =>
      have hletters := congrArg String.toList hreason
      simp [String.toList_append] at hletters
  | needs _ _ =>
      have hletters := congrArg String.toList hreason
      simp [String.toList_append] at hletters

/-- The reason of every cancellation blames a culprit. On a graph that was built, in whatever order
the jobs are done: when a run has ended, each instance that is recorded as cancelled was cancelled by
a stop, for which fail-fast is on and something failed; or behind an instance that ended as is said,
without success, to which a chain of needs leads by way of cancelled instances only; or because of
needs, of which one at least is listed, and all that are listed ended as is said, without success. -/
theorem cancellations_blame_culprits {jobs : List JobInstance}
    {needs : Option (Table String (List String))}
    (hbuild : Graph.build jobs needs = .ok scheduler.graph)
    (hown : OwnRecords scheduler.execute) (hdecided : Decided scheduler.execute) :
    (∀ last, scheduler.run = .ok last → scheduler.Ends last) ∧
    ∀ last, scheduler.Ends last → ∀ id record, last.records.get? id = some record →
      record.outcome = .cancelled →
      scheduler.Blames last id record.reason ∧
        (record.reason = "fail-fast" → scheduler.failFast = true ∧ last.Failed) := by
  have hgraph := Graph.build_wellFormed hbuild
  refine ⟨fun last => ends_of_run_eq_ok hgraph hown, ?_⟩
  intro last hends id record hrecord hcancelled
  have hblames := hends.1.blamed hgraph hown hdecided id record hrecord hcancelled
  refine ⟨hblames, ?_⟩
  intro hreason
  rw [hreason] at hblames
  exact hblames.of_failFast

/-- The small run behind a gate that lets no job pass that needs something cancelled. -/
def unforgivingScheduler : Scheduler :=
  { smallScheduler 1 Nat.one_pos false with gate := ⟨{ kind := .manual, ref := "main" }, false⟩ }

/-- The build fails, which takes the test along. With fail-fast on, the report is cancelled by the
stop; with fail-fast off, an unforgiving gate refuses it, and the refusal names the test with its
outcome. -/
theorem cancellations_blame_culprits_small :
    (∃ last, (smallScheduler 1 (by decide) true).run = .ok last ∧
      (smallScheduler 1 (by decide) true).Blames last ⟨"test", []⟩
        "upstream build ended failure" ∧
      (smallScheduler 1 (by decide) true).Blames last ⟨"report", []⟩ "fail-fast" ∧
      last.Failed) ∧
    ∃ last, unforgivingScheduler.run = .ok last ∧
      unforgivingScheduler.Blames last ⟨"report", []⟩ "needs test (cancelled)" := by
  constructor
  · have hbuild : Graph.build smallJobs none =
        .ok (smallScheduler 1 (by decide) true).graph := build_smallJobs
    have hreasons : (smallScheduler 1 (by decide) true).run.toOption.map (fun last =>
        (last.records.get? ⟨"test", []⟩, last.records.get? ⟨"report", []⟩)) = some
          (some ((smallScheduler 1 (by decide) true).cancelledRecord
              "upstream build ended failure" ⟨"test", []⟩),
            some ((smallScheduler 1 (by decide) true).cancelledRecord
              "fail-fast" ⟨"report", []⟩)) := by
      cbv
    obtain ⟨last, hlast, hrecords⟩ := Option.map_eq_some_iff.mp hreasons
    obtain ⟨htest, hreport⟩ := Prod.mk.inj hrecords
    have hrun := toOption_eq_some_iff.mp hlast
    obtain ⟨hends, hall⟩ := cancellations_blame_culprits hbuild failingBuild_ownRecords
      failingBuild_decided
    have hblamed := hall last (hends last hrun)
    obtain ⟨hreportBlames, hstopped⟩ := hblamed ⟨"report", []⟩ _ hreport rfl
    exact ⟨last, hrun, (hblamed ⟨"test", []⟩ _ htest rfl).1, hreportBlames, (hstopped rfl).2⟩
  · have hbuild : Graph.build smallJobs none = .ok unforgivingScheduler.graph := build_smallJobs
    have hreason : unforgivingScheduler.run.toOption.map (fun last =>
        (last.records.get? ⟨"report", []⟩).map fun record => (record.outcome, record.reason)) =
          some (some (.cancelled, "needs test (cancelled)")) := by
      cbv
    obtain ⟨last, hlast, hreport⟩ := Option.map_eq_some_iff.mp hreason
    obtain ⟨record, hrecord, hended⟩ := Option.map_eq_some_iff.mp hreport
    obtain ⟨hcancelled, hwording⟩ := Prod.mk.inj hended
    have hrun := toOption_eq_some_iff.mp hlast
    obtain ⟨hends, hall⟩ := cancellations_blame_culprits hbuild failingBuild_ownRecords
      failingBuild_decided
    have hblames := (hall last (hends last hrun) ⟨"report", []⟩ record hrecord hcancelled).1
    exact ⟨last, hrun, hwording ▸ hblames⟩

end Scheduler
end CiPipeline
