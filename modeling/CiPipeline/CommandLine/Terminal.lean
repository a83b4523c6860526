import CiPipeline.Run
import CiPipeline.Text.Encoding

/-!
What a terminal can show. It takes texts as bytes: a line about the run that its encoding refuses cannot be
shown, nor is anything after it. A step that cannot be announced crashes its job, for it is the worker that
announces it. In a complaint the characters are spelled out that are lacking.
-/

namespace CiPipeline.CommandLine

/-- What is shown before the first line that cannot be, and that line. -/
def unshowable? (terminal : Encoding) (printed : Printed) : Option (Printed × String) :=
  (printed.out.find? terminal.rejects).map fun line =>
    ({ printed with out := printed.out.takeWhile (!terminal.rejects ·) }, line)

/-- A job of which every step is announced as it is begun. -/
def announce (terminal : Encoding) (id : InstanceId) (run : JobRun) : JobRun :=
  let lines := run.begun.flatMap fun name => (Console.step id.text name).out
  match lines.findIdx? terminal.rejects, lines.find? terminal.rejects with
  | some index, some line =>
    -- each step before this one has made its call, for only the last one that is begun may make none
    { begun := run.begun.take index
      calls := run.calls.take index
      result := .error (.crashed (terminal.crash line)) }
  | _, _ => run

/-- A scheduler whose workers announce the steps that they begin. -/
def announced (terminal : Encoding) (scheduler : Scheduler) : Scheduler :=
  { scheduler with
    execute := fun job selected => announce terminal job.id (scheduler.execute job selected) }

end CiPipeline.CommandLine

namespace CiPipeline

open CommandLine (unshowable?)

/-- What there is of a run up to the first line about it that cannot be shown. -/
def RunResult.shown (result : RunResult) (terminal : Encoding) (console : Console) : RunResult :=
  let decided := { result with log := [] }
  if (unshowable? terminal (decided.printed console true)).isSome then decided
  else
    { result with
      log := result.log.takeWhile fun notice =>
        (unshowable? terminal (console.notice true notice)).isNone }

end CiPipeline
