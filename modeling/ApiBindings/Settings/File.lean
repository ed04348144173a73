import ApiBindings.Binding.TypeMapping
import ApiBindings.Json.Reader
import ApiBindings.Settings.Document
import ApiBindings.Toml.Reader

/-!
# Settings files

The choices a settings file makes. It may leave open any of them, and may not have others.
-/

namespace ApiBindings.Settings

/-- What renders requests. -/
inductive RendererKind where
  /-- The rendering service. -/
  | http
  /-- The printer of this library. -/
  | «local»
  deriving Repr, DecidableEq

/-- The renderers by their names. -/
def RendererKind.names : List (String × RendererKind) :=
  [("http", .http), ("local", .local)]

/-- The renderer with a name. -/
def RendererKind.ofText? (name : String) : Option RendererKind :=
  names.lookup name

/-- The name of a renderer. -/
def RendererKind.text : RendererKind → String
  | .http => "http"
  | .local => "local"

/-- The date mappings by their names. -/
def dateMappings : List (String × Binding.DateMapping) :=
  [("date", .date), ("string", .string)]

/-- Choices of directories for the categories. -/
structure DirectoryChoices where
  models : Option String := none
  enums : Option String := none
  services : Option String := none
  deriving Repr, DecidableEq

/-- Choices about rendering. -/
structure RenderingChoices where
  kind : Option RendererKind := none
  url : Option String := none
  /-- The time for one attempt, in seconds. -/
  timeoutSeconds : Option Nat := none
  maxAttempts : Option Nat := none
  /-- The time between attempts, in milliseconds. -/
  retryDelay : Option Nat := none
  concurrency : Option Nat := none
  deriving Repr, DecidableEq

/-- What a settings file says. -/
structure File where
  source : Option String := none
  output : Option String := none
  directories : DirectoryChoices := {}
  dates : Binding.DateMapping := .date
  rendering : RenderingChoices := {}
  deriving Repr, DecidableEq

namespace File

open Document

variable (dialect : Dialect)

/-- The choices in a `layout` record. -/
def directories? (document : Document) : Option DirectoryChoices := do
  match ← fields? dialect ["models", "enums", "services"] document with
  | [models, enums, services] =>
      return ⟨← optional? text? models, ← optional? text? enums, ← optional? text? services⟩
  | _ => none

/-- The choice in a `types` record. -/
def dates? (document : Document) : Option Binding.DateMapping := do
  match ← fields? dialect ["date"] document with
  | [date] => withDefault? .date (choice? dialect dateMappings) date
  | _ => none

/-- The choices in a `renderer` record. -/
def rendering? (document : Document) : Option RenderingChoices := do
  let names :=
    ["kind", "url", "timeout_secs", "max_attempts", "retry_delay_ms", "concurrency"]
  match ← fields? dialect names document with
  | [kind, url, timeout, attempts, delay, concurrency] =>
      return {
        kind := ← optional? (choice? dialect RendererKind.names) kind
        url := ← optional? text? url
        timeoutSeconds := ← optional? (naturalOfBits? 64) timeout
        maxAttempts := ← optional? (naturalOfBits? 32) attempts
        retryDelay := ← optional? (naturalOfBits? 64) delay
        concurrency := ← optional? (naturalOfBits? 64) concurrency }
  | _ => none

/-- The choices in a whole document. -/
def ofDocument? (document : Document) : Option File := do
  match ← fields? dialect ["source", "output", "layout", "types", "renderer"] document with
  | [source, output, layout, types, renderer] =>
      return {
        source := ← optional? text? source
        output := ← optional? text? output
        directories := ← withDefault? {} (directories? dialect) layout
        dates := ← withDefault? .date (dates? dialect) types
        rendering := ← withDefault? {} (rendering? dialect) renderer }
  | _ => none

/-- Read a settings file in TOML. -/
def ofToml? (text : String) : Option File := do
  ofDocument? .toml (.table (entriesOfToml (← Toml.parse? text)))

/-- Read a settings file in JSON. -/
def ofJson? (text : String) : Option File := do
  ofDocument? .json (ofJson (← Json.parse? text))

end File

end ApiBindings.Settings
