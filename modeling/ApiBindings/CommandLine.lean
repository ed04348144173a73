import ApiBindings.CommandLine.Commands

/-!
# The program

From the arguments of the program to what it prints.
-/

namespace ApiBindings.CommandLine

/-- The version of the program. -/
def version : String := "0.1.0"

/-- What a command is for. -/
def Command.summary : Command → String
  | .generate => "Translate, render and write every model"
  | .translate => "Print the generation requests as JSON without rendering"

/-- The help on the program. -/
def programHelp : String :=
  lines
    ["Generate TypeScript from analyzed C# models", "",
      "Usage: " ++ programName ++ " [COMMAND]", "",
      "Commands:",
      "  generate   " ++ Command.summary .generate,
      "  translate  " ++ Command.summary .translate,
      "  help       Print this message or the help of the given subcommand(s)", "",
      "Options:",
      "  -h, --help     Print help",
      "  -V, --version  Print version"]

/-- The help on a command. -/
def commandHelp (command : Command) : String :=
  lines
    [command.summary, "",
      "Usage: " ++ programName ++ " " ++ command.text ++ " [OPTIONS]", "",
      "Options:",
      "      --config <FILE>        Path to the config file. Defaults to ./" ++
        Settings.defaultFile ++ " when present",
      "      --source <PATH>        Analyzer output (JSON model graph)",
      "      --output <DIR>         Root directory for generated files",
      "      --renderer <RENDERER>  Renderer to use [possible values: http, local]",
      "      --renderer-url <URL>   Rendering service base URL",
      "  -h, --help                 Print help"]

/-- What is printed about arguments that make no sense. -/
def usageOutput (error : UsageError) : Output where
  code := settingsCode
  stderr :=
    lines
      ["error: " ++ error.message, "", "Usage: " ++ programName ++ " [COMMAND]", "",
        "For more information, try '--help'."]

variable {m : Type → Type} [Monad m] [MonadFiles m]

/-- Run the program on its arguments. -/
def run (perform : Settings → List Plan.Entry → m Run.Summary) (arguments : List String) :
    m Output :=
  match parse arguments with
  | .error error => return usageOutput error
  | .ok .version => return { stdout := line (programName ++ " " ++ version) }
  | .ok (.help none) => return { stdout := programHelp }
  | .ok (.help (some command)) => return { stdout := commandHelp command }
  | .ok (.run command flags) => command.run perform flags

end ApiBindings.CommandLine
