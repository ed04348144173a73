import ApiBindings.CommandLine
import ApiBindings.Http.Wire
import ApiBindings.Run.Report
import Std.Async.DNS
import Std.Async.TCP
import Std.Async.Timer

/-!
# The program on a machine

Files, connections and clocks of the machine.  What is done with them is decided elsewhere.
-/

namespace ApiBindings.Machine

/-! ### Files -/

/-- The fault that the system reports by a number. -/
def faultOfCode (code : UInt32) (error : IO.Error) : FileError :=
  match code.toNat with
  | 2 => .notFound
  | 17 => .alreadyExists
  | 20 => .notADirectory
  | 21 => .isADirectory
  | 36 => .nameTooLong
  | _ => .other error.toString

/-- The fault that the system reports. -/
def faultOf (error : IO.Error) : FileError :=
  match error with
  | .noFileOrDirectory .. => .notFound
  | .alreadyExists _ code _ | .inappropriateType _ code _ | .invalidArgument _ code _
  | .resourceExhausted _ code _ | .permissionDenied _ code _ | .noSuchThing _ code _ =>
      faultOfCode code error
  | .otherError code _ | .resourceBusy code _ | .illegalOperation code _ =>
      faultOfCode code error
  | _ => .other error.toString

/-- Do something with the file at a path. -/
def atPath {α : Type} (path : Path) (action : IO α) : IO (Except FileError α) := do
  match FileTree.checkPath path with
  | .error error => return .error error
  | .ok () =>
      try return .ok (← action)
      catch error => return .error (faultOf error)

/-- Whether a path can be opened. -/
def opens (path : Path) : IO Bool := do
  return (← atPath path (IO.FS.Handle.mk path.text .read)).isOk

instance : MonadFiles IO where
  hasPath := opens
  hasDirectory path := opens (path.join ".")
  readText path := do
    return (← atPath path (IO.FS.readBinFile path.text)).bind fun bytes =>
      match String.fromUTF8? bytes with
      | some text => .ok text
      | none => .error .notText
  createDirectory path := atPath path (IO.FS.createDir path.text)
  writeText path text := atPath path (IO.FS.writeFile path.text text)

/-! ### Connections -/

open Std.Async

/-- The largest number of bytes that are taken from a connection at once. -/
def packet : UInt64 := 65536

/-- The bytes that come until the other side closes the connection. -/
partial def receiveAll (client : TCP.Socket.Client) (received : ByteArray) : Async ByteArray := do
  match ← client.recv? packet with
  | some bytes => receiveAll client (received ++ bytes)
  | none => return received

/-- An address and a port of the machine that an address names. -/
def socketAddress (ip : Std.Net.IPAddr) (port : UInt16) : Std.Net.SocketAddress :=
  match ip with
  | .v4 addr => .v4 ⟨addr, port⟩
  | .v6 addr => .v6 ⟨addr, port⟩

/-- Connect to the first of several addresses that can be reached. -/
def connectTo (port : UInt16) : List Std.Net.IPAddr → Async TCP.Socket.Client
  | [] => throw (IO.userError "no address")
  | ip :: rest => do
      let client ← TCP.Socket.Client.mk
      try
        client.connect (socketAddress ip port)
        return client
      catch error =>
        if rest.isEmpty then throw error else connectTo port rest

/-- Post to a server and wait for what becomes of it. -/
def exchange (post : Http.Post) : Async Http.Exchange := do
  match Http.Address.parse? post.url with
  | none => return .dropped
  | some address =>
      try
        let found ← DNS.getAddrInfo address.host ""
        let client ← connectTo address.port.toUInt16 found.toList
        client.send (post.bytes address)
        match Http.Answer.ofBytes? (← receiveAll client .empty).toList with
        | some answer => return .answered 0 answer
        | none => return .dropped
      catch _ => return .dropped

/-- The longest time in milliseconds that a clock is set to. -/
def longestTime : Nat := Nat.pow 2 31

/-- Wait for a number of milliseconds, and find that nothing came. -/
def silence (milliseconds : Nat) : Async Http.Exchange := do
  sleep (.ofNat (min milliseconds longestTime))
  return .silent

instance : Inhabited Http.Exchange := ⟨.silent⟩

/-- Post to a server and wait for some time at most. -/
def send (limit : Nat) (post : Http.Post) : IO Http.Exchange :=
  (Async.race (exchange post) (silence limit)).block

/-! ### Runs -/

/-- Have a request rendered as settings say. -/
def render (settings : Settings) (request : Request) : IO Rendered := do
  let retry := settings.options.retry
  match settings.renderer with
  | .local => return .ok request.declaration.text
  | .http =>
      let post := Rendering.Service.post settings.url request
      let attempt : IO Rendered := do
        let reply := Rendering.Service.reply post.url (← send retry.timeout post)
        return (reply.within retry.timeout).rendered
      attemptWithRetries attempt (IO.sleep (min retry.retryDelay longestTime).toUInt32)
        retry.retries

/-- Work on entries with a number of slots, and wait for them in their order. -/
partial def workOnAll (slots : Nat) (work : Plan.Entry → IO Outcome)
    (started : List (Task (Except IO.Error Outcome))) (waiting : List Plan.Entry) :
    IO (List Outcome) := do
  match started, waiting with
  | [], [] => return []
  | first :: others, [] =>
      let outcome ← IO.ofExcept (← IO.wait first)
      return outcome :: (← workOnAll slots work others [])
  | started, entry :: waiting =>
      if started.length < slots then
        let task ← (work entry).asTask
        workOnAll slots work (started ++ [task]) waiting
      else
        match started with
        | [] => return []
        | first :: others =>
            let outcome ← IO.ofExcept (← IO.wait first)
            return outcome :: (← workOnAll slots work others (entry :: waiting))

/-- Perform a plan as settings say. -/
def perform (settings : Settings) (plan : List Plan.Entry) : IO Run.Summary := do
  let start ← IO.monoMsNow
  let work := Run.workOn settings.context.layout (render settings)
  let outcomes ← workOnAll settings.options.slots work [] plan
  return { report := ⟨outcomes⟩, elapsed := (← IO.monoMsNow) - start }

end ApiBindings.Machine

/-- Run the program. -/
def main (arguments : List String) : IO UInt32 := do
  let output ← ApiBindings.CommandLine.run ApiBindings.Machine.perform arguments
  IO.print output.stdout
  IO.eprint output.stderr
  return output.code.toUInt32
