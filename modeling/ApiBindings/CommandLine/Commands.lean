import ApiBindings.CommandLine.Arguments

/-!
# Commands

What each command prints, and the exit code it ends with.
-/

namespace ApiBindings.CommandLine

/-- What a command leaves behind besides files. Log events, which also go to the standard error, are
left out. -/
structure Output where
  code : Nat := 0
  stdout : String := ""
  stderr : String := ""
  deriving Repr, DecidableEq

/-- The exit code of a command that failed or left models behind. -/
def failureCode : Nat := 1

/-- The exit code for arguments and settings that cannot be used. -/
def settingsCode : Nat := 2

/-- A line of output. -/
def line (text : String) : String :=
  text ++ "\n"

/-- Lines of output. -/
def lines (texts : List String) : String :=
  String.join (texts.map line)

/-- A line about a model that failed. -/
def failedLine (id : ModelId) (reason : String) : String :=
  "  failed " ++ id.text ++ ": " ++ reason

/-- A line about a model that is written. -/
def wroteLine (id : ModelId) (path : Path) : String :=
  "  wrote " ++ id.text ++ ": " ++ path.text

/-- The line that says what is generated into what. -/
def openingLine (settings : Settings) : String :=
  "Generating TypeScript from " ++ settings.source.text ++ " into " ++
    settings.context.layout.root.text

/-- What is printed about a run. -/
def reportRun (summary : Run.Summary) : Output :=
  let report := summary.report
  let total := report.outcomes.length
  let wrote := report.succeeded.map fun (id, path) => wroteLine id path
  let failed := report.failures.map fun (id, failure) => failedLine id failure.message
  if failed.isEmpty then
    let closing :=
      "Generated " ++ toString total ++ " files in " ++ toString summary.elapsed ++ "ms"
    { stdout := lines (wrote ++ [closing]) }
  else
    let closing := toString failed.length ++ " of " ++ toString total ++ " models failed"
    { code := failureCode, stdout := lines wrote, stderr := lines (failed ++ [closing]) }

/-- What is printed about the run of a command with settings. -/
def reportGenerate (settings : Settings) : Except Source.LoadError Run.Summary → Output
  | .error error =>
      { code := failureCode, stdout := line (openingLine settings)
        stderr := line (Run.failureMessage error) }
  | .ok summary =>
      let output := reportRun summary
      { output with stdout := line (openingLine settings) ++ output.stdout }

/-- What is printed about a plan. -/
def reportPlan (plan : List Plan.Entry) : Output :=
  let requests := plan.filterMap (·.request.toOption)
  let failed := plan.filterMap fun entry =>
    match entry.request with
    | .ok _ => none
    | .error error => some (failedLine entry.id error.message)
  let stdout := line (Json.array (requests.map Request.toJson)).indented
  if failed.isEmpty then { stdout }
  else
    let closing := toString failed.length ++ " models failed to translate"
    { code := failureCode, stdout, stderr := lines (failed ++ [closing]) }

/-- What is printed about the plan for a graph with settings. -/
def reportTranslate (settings : Settings) : Except Source.LoadError Source.Graph → Output
  | .error error => { code := failureCode, stderr := line error.message }
  | .ok graph => reportPlan (Plan.ofGraph settings.context graph)

section Running

variable {m : Type → Type} [Monad m] [MonadFiles m]
  (perform : Settings → List Plan.Entry → m Run.Summary)

/-- Do something with the settings that flags lead to, if they lead to any. -/
def withSettings (flags : Settings.Flags) (action : Settings → m Output) : m Output := do
  match ← Settings.resolve flags with
  | .error error => return { code := settingsCode, stderr := line error.message }
  | .ok settings => action settings

/-- What a command does with settings. -/
def Command.work (settings : Settings) : Command → m Output
  | .generate =>
      return reportGenerate settings
        (← Run.ofFile (perform settings) settings.context settings.source)
  | .translate => return reportTranslate settings (← Source.Graph.load settings.source)

/-- Run a command. The way to perform a plan depends on the settings. -/
def Command.run (command : Command) (flags : Settings.Flags) : m Output :=
  withSettings flags (Command.work perform · command)

end Running

end ApiBindings.CommandLine
