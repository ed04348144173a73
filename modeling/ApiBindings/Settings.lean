import ApiBindings.Files
import ApiBindings.Rendering
import ApiBindings.Run
import ApiBindings.Settings.File

/-!
# Settings

The settings of a program from the flags it is called with and a settings file. Flags win over the
file, and defaults fill the gaps.
-/

namespace ApiBindings

/-- What a program works with. -/
structure Settings where
  /-- The file that holds the graph. -/
  source : Path
  context : Binding.Context
  renderer : Settings.RendererKind
  /-- The address of the rendering service. -/
  url : String
  options : Run.Options
  deriving Repr, DecidableEq

namespace Settings

/-- The settings file that is read when no other is named. -/
def defaultFile : String := "typesync.toml"

/-- The root of generated files when no other is chosen. -/
def defaultOutput : String := "generated"

/-- What the flags of a command say. -/
structure Flags where
  config : Option String := none
  source : Option String := none
  output : Option String := none
  renderer : Option RendererKind := none
  rendererUrl : Option String := none
  deriving Repr, DecidableEq

/-- Why there are no settings to work with. -/
inductive Error where
  | noSource
  /-- A directory that is nothing but blanks. -/
  | emptyDirectory (category : Category)
  | noAttempts
  | noConcurrency
  | unreadable (path : Path) (cause : FileError)
  | malformed
  deriving Repr, DecidableEq

/-- The text shown for a fault. -/
def Error.message : Error → String
  | .noSource => "No source given. Pass --source or set `source` in " ++ defaultFile
  | .emptyDirectory category => "Empty directory configured for " ++ category.text ++ " files"
  | .noAttempts => "renderer.max_attempts must be at least 1"
  | .noConcurrency => "renderer.concurrency must be at least 1"
  | .unreadable path cause =>
      "Failed to read config file " ++ path.text ++ ": " ++ cause.message
  | .malformed => "Failed to parse config file"

/-- The directory of a category, with a default. -/
def chosenDirectory (category : Category) : Option String → Except Error String
  | none => .ok category.defaultDirectory
  | some directory =>
      if Text.isBlankText directory then .error (.emptyDirectory category) else .ok directory

/-- The layout of a root and choices of directories. -/
def chosenLayout (root : Path) (choices : DirectoryChoices) : Except Error Layout := do
  let models ← chosenDirectory .model choices.models
  let enums ← chosenDirectory .enum choices.enums
  let services ← chosenDirectory .service choices.services
  return { root, models, enums, services }

/-- The options of runs. -/
def chosenOptions (choices : RenderingChoices) : Except Error Run.Options := do
  let default : Run.Options := {}
  let maxAttempts := choices.maxAttempts.getD default.retry.maxAttempts
  let concurrency := choices.concurrency.getD default.concurrency
  if maxAttempts == 0 then throw .noAttempts
  if concurrency == 0 then throw .noConcurrency
  return {
    retry := {
      maxAttempts
      timeout := (choices.timeoutSeconds.map (1000 * ·)).getD default.retry.timeout
      retryDelay := choices.retryDelay.getD default.retry.retryDelay }
    concurrency }

/-- Bring flags and a settings file together. -/
def ofFlags (flags : Flags) (file : File) : Except Error Settings := do
  let source ← match flags.source <|> file.source with
    | some source => pure source
    | none => throw .noSource
  let root := (flags.output <|> file.output).getD defaultOutput
  let layout ← chosenLayout ⟨root⟩ file.directories
  let options ← chosenOptions file.rendering
  return {
    source := ⟨source⟩
    context := { layout, dates := file.dates }
    renderer := (flags.renderer <|> file.rendering.kind).getD .http
    url := (flags.rendererUrl <|> file.rendering.url).getD Rendering.Service.defaultUrl
    options }

section Loading

variable {m : Type → Type} [Monad m] [MonadFiles m]

/-- Read a settings file. -/
def loadFile (path : Path) : m (Except Error File) := do
  match ← MonadFiles.readText path with
  | .error cause => return .error (.unreadable path cause)
  | .ok text =>
      match File.ofToml? text with
      | some file => return .ok file
      | none => return .error .malformed

/-- Read the settings file that flags name, or else the default one if it is there. -/
def loadChosenFile (flags : Flags) : m (Except Error File) := do
  match flags.config with
  | some path => loadFile ⟨path⟩
  | none =>
      if ← MonadFiles.hasPath ⟨defaultFile⟩ then loadFile ⟨defaultFile⟩ else return .ok {}

/-- The settings that flags lead to. -/
def resolve (flags : Flags) : m (Except Error Settings) := do
  return (← loadChosenFile flags).bind (ofFlags flags)

end Loading

end Settings

end ApiBindings
