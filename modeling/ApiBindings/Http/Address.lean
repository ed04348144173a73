import ApiBindings.Path
import ApiBindings.Text.Basic

/-!
# Addresses

An address as a user writes it, taken apart into the server to connect to and the target to ask for
there.  Dot segments of a target are resolved, and characters that it cannot hold are written as
percent signs and digits.
-/

namespace ApiBindings.Http

/-- The parts of an address: whom to connect to, and what to ask there. -/
structure Address where
  host : String
  port : Nat
  target : String
  deriving Repr, DecidableEq

namespace Address

/-! ### Characters -/

/-- Write a byte as a percent sign and two digits. -/
def percent (byte : UInt8) : List Char :=
  ['%', Text.hexDigit (byte.toNat / 16), Text.hexDigit (byte.toNat % 16)].map Char.toUpper

/-- Write the characters that no target can hold, and some others, as percent signs and digits. -/
def encode (others : List Char) (text : List Char) : List Char :=
  text.flatMap fun c =>
    if c.toNat ≤ 0x20 || 0x7F ≤ c.toNat || ['"', '<', '>'].contains c || others.contains c then
      c.toString.toUTF8.toList.flatMap percent
    else [c]

/-- A text without what is ignored in an address: control characters and spaces around it, tabs and
line ends anywhere. -/
def strip (text : List Char) : List Char :=
  let isEdge (c : Char) : Bool := c.toNat ≤ 0x20
  let inner := ((text.dropWhile isEdge).reverse.dropWhile isEdge).reverse
  inner.filter fun c => c != '\t' && c != '\n' && c != '\r'

/-- Slashes may be written either way. -/
def isSlash (c : Char) : Bool :=
  c == '/' || c == '\\'

/-! ### Targets -/

/-- A segment for the directory it stands in. -/
def isDot (segment : List Char) : Bool :=
  [".", "%2e"].contains (String.ofList segment).toLower

/-- A segment for the directory above. -/
def isDoubleDot (segment : List Char) : Bool :=
  ["..", ".%2e", "%2e.", "%2e%2e"].contains (String.ofList segment).toLower

/-- Resolve the dot segments of a path, behind segments in reverse. A dot segment at the end stands
for a directory, whose name is empty. -/
def resolveDots (before : List (List Char)) : List (List Char) → List (List Char)
  | [] => before.reverse
  | segment :: rest =>
      let ending : List (List Char) := if rest.isEmpty then [[]] else []
      if isDoubleDot segment then resolveDots (ending ++ before.drop 1) rest
      else if isDot segment then resolveDots (ending ++ before) rest
      else resolveDots (segment :: before) rest

/-- The path of a target. It starts with a slash, whether that is written or not. -/
def targetPath (written : List Char) : List Char :=
  let slashed := written.map fun c => if isSlash c then '/' else c
  let relative := if slashed.head? == some '/' then slashed.drop 1 else slashed
  let segments := (resolveDots [] (Path.splitSlashes relative)).map
    (encode ['\x60', '\x7b', '\x7d'])
  '/' :: Path.joinSlashes segments

/-- The target that an address ends with. What follows a number sign is not sent. -/
def targetOf (written : List Char) : List Char :=
  let sent := written.takeWhile (· != '#')
  targetPath (sent.takeWhile (· != '?')) ++ encode ['\''] (sent.dropWhile (· != '?'))

/-! ### Addresses -/

/-- The value of decimal digits, of which there is at least one. -/
def decimal? (digits : List Char) : Option Nat :=
  if digits.isEmpty || !digits.all Char.isDigit then none else some (Text.decimalValue digits)

/-- The host and the port of a server. The name of a user in front of them is left out. -/
def server? (written : List Char) : Option (String × Nat) := do
  let named := (written.reverse.takeWhile (· != '@')).reverse
  let host := named.takeWhile (· != ':')
  let port ← match named.dropWhile (· != ':') with
    | [] | [':'] => some 80
    | _ :: digits => decimal? digits
  if host.isEmpty || 65536 ≤ port then none
  else return ((String.ofList host).toLower, port)

/-- Take the address of a plain connection apart. -/
def parse? (url : String) : Option Address := do
  let text := strip url.toList
  if (text.take 5).map Char.toLower != "http:".toList then none
  else
    let rest := (text.drop 5).dropWhile isSlash
    let isServer (c : Char) : Bool := !(isSlash c || c == '?' || c == '#')
    let (host, port) ← server? (rest.takeWhile isServer)
    return ⟨host, port, String.ofList (targetOf (rest.dropWhile isServer))⟩

/-- The server as it wants to be named. -/
def authority (address : Address) : String :=
  if address.port == 80 then address.host else address.host ++ ":" ++ toString address.port

end Address

end ApiBindings.Http
