import ApiBindings.Http
import ApiBindings.Http.Address
import ApiBindings.Text.Utf8

/-!
# HTTP on the wire

The bytes of a post, and the answer in the bytes that come back until the server closes the
connection.
-/

namespace ApiBindings.Http

/-! ### Posts -/

/-- The bytes of a post. The server is asked to close the connection after its answer. -/
def Post.bytes (post : Post) (address : Address) : ByteArray :=
  let body := post.body.toUTF8
  let lines :=
    ["POST " ++ address.target ++ " HTTP/1.1", "host: " ++ address.authority,
      "accept: " ++ post.accept, "content-type: " ++ post.contentType,
      "content-length: " ++ toString body.size, "connection: close", "", ""]
  ("\r\n".intercalate lines).toUTF8 ++ body

/-! ### Answers -/

/-- The head of an answer, its lines apart. -/
structure Head where
  status : Status
  fields : List (String × String)

/-- Split at the first line end. -/
def splitLine? : List Char → Option (List Char × List Char)
  | [] => none
  | '\r' :: '\n' :: rest => some ([], rest)
  | c :: rest => (splitLine? rest).map fun (line, after) => (c :: line, after)

/-- A text without the blanks around it. -/
def trimBlanks (text : List Char) : List Char :=
  let isBlank (c : Char) : Bool := c == ' ' || c == '\t'
  ((text.dropWhile isBlank).reverse.dropWhile isBlank).reverse

/-- The status in the first line of an answer: `HTTP/1.1 200 OK`. -/
def statusOfLine? (line : List Char) : Option Status := do
  let rest ← "HTTP/1.".toList.isPrefixOf? line
  let digits := (rest.drop 2).take 3
  let code ← Address.decimal? digits
  if digits.length == 3 then return ⟨code⟩ else none

/-- The name, in small letters, and the value of a field. -/
def fieldOfLine (line : List Char) : String × String :=
  ((String.ofList (line.takeWhile (· != ':'))).toLower,
    String.ofList (trimBlanks ((line.dropWhile (· != ':')).drop 1)))

/-- The fields up to an empty line, and what follows it. Each field takes one of the `rounds`. -/
def takeFields? : (rounds : Nat) → List Char → Option (List (String × String) × List Char)
  | 0, _ => none
  | rounds + 1, text => do
      let (line, after) ← splitLine? text
      if line.isEmpty then return ([], after)
      else
        let (fields, rest) ← takeFields? rounds after
        return (fieldOfLine line :: fields, rest)

/-- The head of an answer and what follows it. -/
def takeHead? (text : List Char) : Option (Head × List Char) := do
  let (line, after) ← splitLine? text
  let status ← statusOfLine? line
  let (fields, rest) ← takeFields? text.length after
  return (⟨status, fields⟩, rest)

/-- The value of the digits that a chunk starts with. -/
def chunkSize? (line : List Char) : Option Nat :=
  let digits := line.takeWhile Text.isHexDigit
  if digits.isEmpty then none
  else some (digits.foldl (fun size c => 16 * size + (Text.hexValue? c).getD 0) 0)

/-- The body in chunks, each behind its size, up to a chunk of size zero. Each chunk takes one of
the `rounds`. -/
def unchunk? : (rounds : Nat) → List Char → Option (List Char)
  | 0, _ => none
  | rounds + 1, text => do
      let (line, after) ← splitLine? text
      let size ← chunkSize? line
      if size == 0 then return []
      else if after.length < size + 2 then none
      else return after.take size ++ (← unchunk? rounds (after.drop (size + 2)))

/-- The body that follows a head, if all of it is there. -/
def bodyOf? (head : Head) (rest : List Char) : Option (List Char) :=
  if !head.status.hasBody then some []
  else if (head.fields.lookup "transfer-encoding").any (·.toLower == "chunked") then
    unchunk? (rest.length + 1) rest
  else
    match (head.fields.lookup "content-length").bind (Address.decimal? ·.toList) with
    | some size => if rest.length < size then none else some (rest.take size)
    | none => some rest

/-- The answer in a text whose characters stand for the bytes received. Heads that only announce the
answer are passed over. -/
def answerIn? : (rounds : Nat) → List Char → Option Answer
  | 0, _ => none
  | rounds + 1, text => do
      let (head, rest) ← takeHead? text
      if head.status.isProvisional then answerIn? rounds rest
      else
        let body ← bodyOf? head rest
        let bytes := body.map fun c => UInt8.ofNat c.toNat
        return Answer.ofSent head.status (String.ofList (Text.decodeLossy bytes))

/-- The answer in the bytes received, if there is a whole one. -/
def Answer.ofBytes? (bytes : List UInt8) : Option Answer :=
  answerIn? (bytes.length + 1) (bytes.map fun byte => Char.ofNat byte.toNat)

end ApiBindings.Http
