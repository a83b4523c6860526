import CiPipeline.Report

/-!
The report of a run as a document value, for other programs to read. Jobs stand under the text of their
identity.
-/

namespace CiPipeline

/-- A text that may be absent. -/
def Value.ofText? : Option String → Value
  | some s => .text s
  | none => .null

/-- A moment that may be absent. -/
def Value.ofMoment? (moment : Option Timestamp) : Value :=
  .ofText? (moment.map Timestamp.text)

/-- A step record as a value. -/
def StepRecord.toValue (record : StepRecord) : Value :=
  .ofFields [
    ("name", .text record.name),
    ("outcome", .text record.outcome.name),
    ("exit_code", (record.exitCode.map Value.int).getD .null),
    ("started_at", .ofMoment? record.startedAt),
    ("finished_at", .ofMoment? record.finishedAt),
    ("output", .text record.output),
    ("error", .ofText? record.error)]

/-- A job record as a value. -/
def JobRecord.toValue (record : JobRecord) : Value :=
  .ofFields [
    ("job", .text record.id.template),
    ("name", .text (if record.title.isEmpty then record.id.text else record.title)),
    ("matrix", .ofFields (record.id.coordinate.map fun (axis, value) => (axis, .text value))),
    ("outcome", .text record.outcome.name),
    ("reason", .text record.reason),
    ("started_at", .ofMoment? record.startedAt),
    ("finished_at", .ofMoment? record.finishedAt),
    ("steps", .list (record.steps.map StepRecord.toValue))]

/-- The jobs of a report, each under the text of its identity. -/
def RunReport.jobsValue (report : RunReport) : Value :=
  .ofFields (report.jobs.entries.map fun (id, record) => (id.text, record.toValue))

/-- A report as a value. -/
def RunReport.toValue (report : RunReport) : Value :=
  .ofFields [
    ("pipeline", .text report.pipeline),
    ("event", .ofFields [
      ("kind", .text report.event.kind.name),
      ("ref", .text report.event.ref),
      ("base_ref", .ofText? report.event.baseRef),
      ("action", .ofText? report.event.action)]),
    ("triggered", .bool report.triggered),
    ("trigger_reason", .text report.triggerReason),
    ("outcome", .text report.outcome.name),
    ("exit_code", .int report.exitCode),
    ("started_at", .ofMoment? report.startedAt),
    ("finished_at", .ofMoment? report.finishedAt),
    ("jobs", report.jobsValue)]

end CiPipeline
