import ApiBindings.Settings

/-!
# Arguments

What a user asks for by the arguments of the program.  Arguments are taken from left to right, and
the first fault or the first question for help decides.
-/

namespace ApiBindings.CommandLine

/-- The name of the program. -/
def programName : String := "typesync"

/-- What the program can do. -/
inductive Command where
  /-- Generate the files. -/
  | generate
  /-- Print the requests. -/
  | translate
  deriving Repr, DecidableEq

namespace Command

/-- The commands by their names. -/
def names : List (String × Command) :=
  [("generate", .generate), ("translate", .translate)]

/-- The name of a command. -/
def text : Command → String
  | .generate => "generate"
  | .translate => "translate"

end Command

/-- What a user asks for. -/
inductive Invocation where
  | run (command : Command) (flags : Settings.Flags)
  /-- Help on the program or on a command. -/
  | help (command : Option Command)
  | version
  deriving Repr, DecidableEq

/-- Arguments that make no sense. -/
inductive UsageError where
  | unknownCommand (name : String)
  | unexpectedArgument (argument : String)
  | unexpectedValue (value flag : String)
  | missingValue (flag : String)
  | invalidValue (value flag : String)
  | repeatedFlag (flag : String)
  deriving Repr, DecidableEq

/-- The text shown for a fault. -/
def UsageError.message : UsageError → String
  | .unknownCommand name => "unrecognized subcommand '" ++ name ++ "'"
  | .unexpectedArgument argument => "unexpected argument '" ++ argument ++ "' found"
  | .unexpectedValue value flag =>
      "unexpected value '" ++ value ++ "' for '--" ++ flag ++ "' found; no more were expected"
  | .missingValue flag => "a value is required for '--" ++ flag ++ "' but none was supplied"
  | .invalidValue value flag => "invalid value '" ++ value ++ "' for '--" ++ flag ++ "'"
  | .repeatedFlag flag => "the argument '--" ++ flag ++ "' cannot be used multiple times"

/-! ### Words -/

/-- The form of an argument. -/
inductive Word where
  /-- Two dashes: only plain words may follow. -/
  | escape
  /-- Two dashes and a name, and what follows an equals sign. -/
  | long (name : String) (value : Option String)
  /-- One dash and letters. -/
  | short (letters : List Char)
  /-- Anything else, a single dash included. -/
  | plain

/-- Split a long flag at its first equals sign. -/
def Word.ofLong (characters : List Char) : Word :=
  let name := String.ofList (characters.takeWhile (· != '='))
  match characters.dropWhile (· != '=') with
  | [] => .long name none
  | _ :: value => .long name (some (String.ofList value))

/-- The form of an argument. -/
def Word.ofArgument (argument : String) : Word :=
  match argument.toList with
  | ['-', '-'] => .escape
  | '-' :: '-' :: rest => ofLong rest
  | '-' :: c :: rest => .short (c :: rest)
  | _ => .plain

/-! ### Flags -/

/-- Set a flag that must not be set yet. -/
def setOnce {α : Type} (flag : String) (old : Option α) (value : α) :
    Except UsageError (Option α) :=
  if old.isSome then .error (.repeatedFlag flag) else .ok (some value)

/-- A value that is a path. -/
def checkPath (flag value : String) : Except UsageError String :=
  if value.isEmpty then .error (.missingValue flag) else .ok value

/-- A value that is the name of a renderer. -/
def checkRenderer (flag value : String) : Except UsageError Settings.RendererKind :=
  match Settings.RendererKind.ofText? value with
  | some kind => .ok kind
  | none => .error (.invalidValue value flag)

/-- Whether there is a flag with a name. -/
def isFlag (name : String) : Bool :=
  ["config", "source", "output", "renderer", "renderer-url"].contains name

/-- Give a flag a value. -/
def setFlag (flags : Settings.Flags) (name value : String) : Except UsageError Settings.Flags := do
  match name with
  | "config" =>
      return { flags with config := ← setOnce name flags.config (← checkPath name value) }
  | "source" =>
      return { flags with source := ← setOnce name flags.source (← checkPath name value) }
  | "output" =>
      return { flags with output := ← setOnce name flags.output (← checkPath name value) }
  | "renderer" =>
      return { flags with renderer := ← setOnce name flags.renderer (← checkRenderer name value) }
  | "renderer-url" =>
      return { flags with rendererUrl := ← setOnce name flags.rendererUrl value }
  | _ => throw (.unexpectedArgument ("--" ++ name))

/-! ### Invocations -/

/-- Nothing may be left. -/
def finish (invocation : Invocation) : List String → Except UsageError Invocation
  | [] => .ok invocation
  | argument :: _ => .error (.unexpectedArgument argument)

/-- Take the arguments of a command. -/
def takeFlags (command : Command) (flags : Settings.Flags) :
    List String → Except UsageError Invocation
  | [] => .ok (.run command flags)
  | argument :: rest =>
      match Word.ofArgument argument with
      | .escape => finish (.run command flags) rest
      | .plain => .error (.unexpectedArgument argument)
      | .short letters =>
          if letters.head? == some 'h' then .ok (.help (some command))
          else .error (.unexpectedArgument argument)
      | .long "help" none => .ok (.help (some command))
      | .long "help" (some value) => .error (.unexpectedValue value "help")
      | .long name (some value) => do
          takeFlags command (← setFlag flags name value) rest
      | .long name none =>
          if !isFlag name then .error (.unexpectedArgument argument)
          else
            match rest with
            | [] => .error (.missingValue name)
            | value :: rest =>
                match Word.ofArgument value with
                | .plain => do takeFlags command (← setFlag flags name value) rest
                | _ => .error (.missingValue name)

/-- Take the arguments of a question for help. -/
def takeHelp : List String → Except UsageError Invocation
  | [] | ["help"] => .ok (.help none)
  | name :: rest =>
      match Command.names.lookup name, rest with
      | some command, [] => .ok (.help (some command))
      | some _, other :: _ => .error (.unknownCommand other)
      | none, _ => .error (.unknownCommand name)

/-- What the arguments of the program ask for. -/
def parse : List String → Except UsageError Invocation
  | [] => .ok (.help none)
  | argument :: rest =>
      match Word.ofArgument argument with
      | .escape => finish (.help none) rest
      | .short letters =>
          if letters.head? == some 'h' then .ok (.help none)
          else if letters.head? == some 'V' then .ok .version
          else .error (.unexpectedArgument argument)
      | .long "help" none => .ok (.help none)
      | .long "version" none => .ok .version
      | .long _ _ => .error (.unexpectedArgument argument)
      | .plain =>
          if argument == "help" then takeHelp rest
          else
            match Command.names.lookup argument with
            | some command => takeFlags command {} rest
            | none => .error (.unknownCommand argument)

end ApiBindings.CommandLine
