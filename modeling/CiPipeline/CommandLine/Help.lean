import CiPipeline.CommandLine.Request

/-!
The help on the program and on its commands: how each is used, what it does, and its options in a table of
two columns. The words of the second column are filled into lines.
-/

namespace CiPipeline.CommandLine

/-- A row of a table: what is explained, and what it means. -/
structure HelpRow where
  label : String
  meaning : String

/-- The number of columns of a line. -/
def helpWidth : Nat := 78

/-- The greatest number of columns of a label that has its meaning beside it. -/
def widestLabel : Nat := 30

/-- The columns in front of a row, and between its two parts. -/
def helpMargin : Nat := 2

/-- So many spaces. -/
def spaces (count : Nat) : String :=
  String.ofList (List.replicate count ' ')

/-- Some words after those of a line; a word for which there is no room begins another line. -/
def fillAfter (width : Nat) (line : String) : List String → List String
  | [] => [line]
  | word :: rest =>
    let longer := line ++ " " ++ word
    if longer.length ≤ width then fillAfter width longer rest
    else line :: fillAfter width word rest

/-- Some words, filled into lines. -/
def fillLines (width : Nat) : List String → List String
  | [] => []
  | word :: rest => fillAfter width word rest

namespace HelpRow

/-- The lines of a row whose second part begins so many columns after its label. -/
def lines (column : Nat) (row : HelpRow) : List String :=
  let margin := spaces (helpMargin + column)
  match fillLines (helpWidth - column - helpMargin) (row.meaning.splitOn " ") with
  | [] => [spaces helpMargin ++ row.label]
  | first :: rest =>
    let label := spaces helpMargin ++ row.label
    (if row.label.length + helpMargin ≤ column then
      [label ++ spaces (column - row.label.length) ++ first]
    else [label, margin ++ first]) ++ rest.map (margin ++ ·)

/-- The lines of a table under its heading. -/
def table (heading : String) (rows : List HelpRow) : List String :=
  let widest := rows.foldl (fun width row => max width row.label.length) 0
  ["", heading ++ ":"] ++ rows.flatMap (lines (min widest widestLabel + helpMargin))

end HelpRow

/-- The row of the option that asks for help. -/
def helpRow : HelpRow := ⟨helpForm.name, "Show this message and exit."⟩

/-- The options before the command. -/
def groupRows : List HelpRow :=
  [⟨"--debug", "Enable debug mode (show stack traces and detailed output)"⟩, helpRow]

/-- The commands. -/
def commandRows : List HelpRow :=
  [⟨"plan", "Show the trigger decision and execution stages without running..."⟩,
    ⟨"run", "Run a cigraph workflow for one event."⟩]

/-- The options of both commands. -/
def eventRows : List HelpRow :=
  [⟨"--workflow TEXT", "Workflow file (.yml/.yaml/.py); defaults to cigraph.yml if present"⟩,
    ⟨"--event [push|pull_request|manual]", "Kind of triggering event  [default: push]"⟩,
    ⟨"--ref TEXT", "Ref being built (defaults to the local checkout)"⟩,
    ⟨"--tag", "Treat a bare --ref as a tag"⟩,
    ⟨"--branch", "Treat a bare --ref as a branch"⟩,
    ⟨"--base TEXT", "Pull request target branch"⟩,
    ⟨"--action TEXT", "Pull request action (default: opened)"⟩]

/-- The options of a run alone. -/
def runRows : List HelpRow :=
  [⟨"--workers INTEGER", "Maximum concurrently running jobs"⟩,
    ⟨"--fail-fast / --no-fail-fast", "Stop dispatching new jobs after the first failure"⟩,
    ⟨"--cancelled-satisfies-needs / --cancelled-blocks-needs",
      "Whether always()/failure() jobs still run when an upstream job was cancelled"⟩,
    ⟨"--timeout FLOAT", "Per-step timeout in seconds"⟩,
    ⟨"--secrets-file TEXT", "YAML mapping of secret names to values"⟩,
    ⟨"--secret-prefix TEXT", "Environment prefix for secret lookups"⟩,
    ⟨"--show-output", "Print step output for every job"⟩,
    ⟨"--report-json FILE", "Write the run report as JSON"⟩]

/-- The first lines of a help: how something is used, and what it does. -/
def helpHead (use purpose : String) : List String :=
  ["Usage: " ++ use, "", spaces helpMargin ++ purpose]

/-- How the program is used, which is called by some name. -/
def groupUse (program : String) : String :=
  program ++ " [OPTIONS] COMMAND [ARGS]..."

/-- The lines of the help on the program. -/
def groupHelp (program : String) : List String :=
  helpHead (groupUse program) "cigraph: dependency-aware CI pipeline orchestrator." ++
    HelpRow.table "Options" groupRows ++ HelpRow.table "Commands" commandRows

/-- The lines of the help on a command. -/
def CommandName.help (program : String) : CommandName → List String
  | plan =>
    helpHead (program ++ " plan [OPTIONS]")
        "Show the trigger decision and execution stages without running anything." ++
      HelpRow.table "Options" (eventRows ++ [helpRow])
  | run =>
    helpHead (program ++ " run [OPTIONS]") "Run a cigraph workflow for one event." ++
      HelpRow.table "Options" (eventRows ++ runRows ++ [helpRow])

end CiPipeline.CommandLine
