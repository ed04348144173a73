import ApiBindings.CommandLine
import ApiBindings.Proofs.Run.Regeneration

/-!
# Commands at a site

A command run on a file tree, with plans performed by the renderer that the settings name.  To find
the settings and to load the graph is only to read, so that a command which fails in one of the two
leaves everything as it was.
-/

namespace ApiBindings

namespace Settings

/-! ## Settings -/

/-- The settings file at a path of a tree. -/
def fileAt (tree : FileTree) (path : Path) : Except Error File :=
  match tree.readText path with
  | .error cause => .error (.unreadable path cause)
  | .ok text =>
      match File.ofToml? text with
      | some file => .ok file
      | none => .error .malformed

/-- The settings file that flags name, or else the default one if a tree has it. -/
def chosenFile (tree : FileTree) (flags : Flags) : Except Error File :=
  match flags.config with
  | some path => fileAt tree ⟨path⟩
  | none => if tree.hasPath ⟨defaultFile⟩ then fileAt tree ⟨defaultFile⟩ else .ok {}

/-- The settings that flags lead to on a tree. -/
def resolved (tree : FileTree) (flags : Flags) : Except Error Settings :=
  (chosenFile tree flags).bind (ofFlags flags)

variable {σ : Type} (site : Run.Site σ)

theorem run_loadFile (path : Path) :
    StateT.run (m := Id) (loadFile path) site = (fileAt site.files path, site) := by
  have text : StateT.run (m := Id) (MonadFiles.readText path) site =
      (site.files.readText path, site) := rfl
  rw [loadFile, fileAt, FileTree.run_bind, text]
  rcases site.files.readText path with cause | content
  · rfl
  · cases read : File.ofToml? content <;> simp only [read] <;> rfl

theorem run_loadChosenFile (flags : Flags) :
    StateT.run (m := Id) (loadChosenFile flags) site = (chosenFile site.files flags, site) := by
  rw [loadChosenFile, chosenFile]
  cases flags.config with
  | some path => exact run_loadFile site ⟨path⟩
  | none =>
      have there : StateT.run (m := Id) (MonadFiles.hasPath ⟨defaultFile⟩) site =
          (site.files.hasPath ⟨defaultFile⟩, site) := rfl
      simp only
      rw [FileTree.run_bind, there]
      cases site.files.hasPath ⟨defaultFile⟩ with
      | true => exact run_loadFile site ⟨defaultFile⟩
      | false => rfl

/-- To resolve settings at a site leaves the site as it is. -/
theorem run_resolve (flags : Flags) :
    StateT.run (m := Id) (resolve flags) site = (resolved site.files flags, site) := by
  rw [resolve, FileTree.run_bind, run_loadChosenFile]
  rfl

end Settings

namespace CommandLine

open Run (Site Summary)

variable {σ : Type}

/-! ## Commands -/

/-- Perform a plan as settings say, with posts to the rendering service sent by given means. -/
def performAt (send : Http.Post → StateM σ Http.Exchange) (settings : Settings) :
    List Plan.Entry → StateM (Site σ) Summary :=
  let render : Renderer σ := match settings.renderer with
    | .http => Rendering.Service.renderer settings.url send
    | .local => Renderer.inProcess
  Site.perform render settings.context.layout settings.options

/-- What a command comes to when it is run on a site, and the site after it. -/
def Command.ran (command : Command) (flags : Settings.Flags)
    (send : Http.Post → StateM σ Http.Exchange) (site : Site σ) : Output × Site σ :=
  StateT.run (m := Id) (command.run (performAt send) flags) site

/-- What a command comes to with settings, and the site after it. -/
def Command.worked (command : Command) (settings : Settings)
    (send : Http.Post → StateM σ Http.Exchange) (site : Site σ) : Output × Site σ :=
  StateT.run (m := Id) (Command.work (performAt send) settings command) site

variable {command : Command} {flags : Settings.Flags} {settings : Settings}
  {send : Http.Post → StateM σ Http.Exchange} {site : Site σ}

theorem Command.ran_of_error {error : Settings.Error}
    (failed : Settings.resolved site.files flags = .error error) :
    command.ran flags send site =
      ({ code := settingsCode, stderr := line error.message }, site) := by
  rw [Command.ran, Command.run, withSettings, FileTree.run_bind, Settings.run_resolve, failed]
  rfl

theorem Command.ran_of_ok (resolved : Settings.resolved site.files flags = .ok settings) :
    command.ran flags send site = command.worked settings send site := by
  rw [Command.ran, Command.run, withSettings, FileTree.run_bind, Settings.run_resolve, resolved]
  rfl

theorem Command.worked_translate :
    Command.worked .translate settings send site =
      (reportTranslate settings (Source.Graph.loaded site.files settings.source), site) := by
  rw [Command.worked, Command.work, FileTree.run_bind, Source.Graph.run_load]
  rfl

theorem Command.worked_generate_of_error {error : Source.LoadError}
    (failed : Source.Graph.loaded site.files settings.source = .error error) :
    Command.worked .generate settings send site =
      (reportGenerate settings (.error error), site) := by
  rw [Command.worked, Command.work, FileTree.run_bind, Run.ofFile, FileTree.run_bind,
    Source.Graph.run_load, failed]
  rfl

theorem Command.worked_generate_of_ok {graph : Source.Graph}
    (loaded : Source.Graph.loaded site.files settings.source = .ok graph) :
    Command.worked .generate settings send site =
      let ran := StateT.run (m := Id)
        (performAt send settings (Plan.ofGraph settings.context graph)) site
      (reportGenerate settings (.ok ran.1), ran.2) := by
  rw [Command.worked, Command.work, FileTree.run_bind, Run.ofFile, FileTree.run_bind,
    Source.Graph.run_load, loaded]
  rfl

end CommandLine

end ApiBindings
