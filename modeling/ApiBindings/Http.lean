/-!
# HTTP

The verbs of requests, the status codes of answers, and what becomes of a body that a client posts
to a server.
-/

namespace ApiBindings.Http

/-! ## Verbs -/

/-- The verb of a request. -/
inductive Verb where
  | get
  | post
  | put
  | patch
  | delete
  deriving Repr, DecidableEq

namespace Verb

/-- The name of a verb on the wire. -/
def text : Verb → String
  | .get => "GET"
  | .post => "POST"
  | .put => "PUT"
  | .patch => "PATCH"
  | .delete => "DELETE"

/-- The name of a verb as a method of a client. -/
def methodName : Verb → String
  | .get => "get"
  | .post => "post"
  | .put => "put"
  | .patch => "patch"
  | .delete => "delete"

/-- Whether requests with this verb carry a body. -/
def hasBody : Verb → Bool
  | .post | .put | .patch => true
  | .get | .delete => false

/-- A verb may be written in capitals, in small letters, or with a capital in front. -/
def ofText? (name : String) : Option Verb :=
  if name == "GET" || name == "get" || name == "Get" then some .get
  else if name == "POST" || name == "post" || name == "Post" then some .post
  else if name == "PUT" || name == "put" || name == "Put" then some .put
  else if name == "PATCH" || name == "patch" || name == "Patch" then some .patch
  else if name == "DELETE" || name == "delete" || name == "Delete" then some .delete
  else none

end Verb

/-! ## Status codes -/

/-- The number that an answer starts with. -/
structure Status where
  code : Nat
  deriving Repr, DecidableEq

namespace Status

/-- The phrases of the status codes that have one. -/
def phrases : List (Nat × String) := [
  (100, "Continue"), (101, "Switching Protocols"), (102, "Processing"), (103, "Early Hints"),
  (200, "OK"), (201, "Created"), (202, "Accepted"), (203, "Non Authoritative Information"),
  (204, "No Content"), (205, "Reset Content"), (206, "Partial Content"), (207, "Multi-Status"),
  (208, "Already Reported"), (226, "IM Used"),
  (300, "Multiple Choices"), (301, "Moved Permanently"), (302, "Found"), (303, "See Other"),
  (304, "Not Modified"), (305, "Use Proxy"), (307, "Temporary Redirect"),
  (308, "Permanent Redirect"),
  (400, "Bad Request"), (401, "Unauthorized"), (402, "Payment Required"), (403, "Forbidden"),
  (404, "Not Found"), (405, "Method Not Allowed"), (406, "Not Acceptable"),
  (407, "Proxy Authentication Required"), (408, "Request Timeout"), (409, "Conflict"),
  (410, "Gone"), (411, "Length Required"), (412, "Precondition Failed"),
  (413, "Payload Too Large"), (414, "URI Too Long"), (415, "Unsupported Media Type"),
  (416, "Range Not Satisfiable"), (417, "Expectation Failed"), (418, "I'm a teapot"),
  (421, "Misdirected Request"), (422, "Unprocessable Entity"), (423, "Locked"),
  (424, "Failed Dependency"), (425, "Too Early"), (426, "Upgrade Required"),
  (428, "Precondition Required"), (429, "Too Many Requests"),
  (431, "Request Header Fields Too Large"), (451, "Unavailable For Legal Reasons"),
  (500, "Internal Server Error"), (501, "Not Implemented"), (502, "Bad Gateway"),
  (503, "Service Unavailable"), (504, "Gateway Timeout"), (505, "HTTP Version Not Supported"),
  (506, "Variant Also Negotiates"), (507, "Insufficient Storage"), (508, "Loop Detected"),
  (510, "Not Extended"), (511, "Network Authentication Required")]

/-- The phrase of a status, or a remark that it has none. -/
def phrase (status : Status) : String :=
  (phrases.lookup status.code).getD "<unknown status code>"

/-- A status as it is shown: its code and its phrase. -/
def text (status : Status) : String :=
  toString status.code ++ " " ++ status.phrase

/-- Whether a status tells of success. -/
def isSuccess (status : Status) : Bool :=
  200 ≤ status.code && status.code < 300

/-- Whether a status tells of a fault of the server. -/
def isServerError (status : Status) : Bool :=
  500 ≤ status.code && status.code < 600

/-- Whether a status asks the client to slow down. -/
def isTooManyRequests (status : Status) : Bool :=
  status.code == 429

/-- Whether a status only announces the answer. The one for another protocol is an answer. -/
def isProvisional (status : Status) : Bool :=
  status.code < 200 && status.code != 101

/-- Whether an answer has a body. Some never have one, whatever follows their head. -/
def hasBody (status : Status) : Bool :=
  !(status.code < 200 || status.code == 204 || status.code == 304)

end Status

/-! ## Exchanges -/

/-- A body posted to an address. -/
structure Post where
  url : String
  accept : String
  contentType : String
  body : String
  deriving Repr, DecidableEq

/-- An answer of a server. -/
structure Answer where
  status : Status
  body : String
  deriving Repr, DecidableEq

/-- The answer to which a text is sent as the body. A byte order mark in front of the text says how
it is encoded and is no part of the body. -/
def Answer.ofSent (status : Status) (text : String) : Answer :=
  if !status.hasBody then ⟨status, ""⟩
  else
    match text.toList with
    | '\ufeff' :: rest => ⟨status, String.ofList rest⟩
    | _ => ⟨status, text⟩

/-- What a server does with a post. -/
inductive Exchange where
  /-- It answers after some milliseconds. -/
  | answered (delay : Nat) (answer : Answer)
  /-- It cannot be reached, or closes the connection without an answer. -/
  | dropped
  /-- It keeps the connection open and never answers. -/
  | silent
  deriving Repr, DecidableEq

/-- What a post comes to when a server sends a status and a text and closes the connection. An
announcement alone is no answer. -/
def Exchange.ofSent (delay : Nat) (status : Status) (text : String) : Exchange :=
  if status.isProvisional then .dropped else .answered delay (.ofSent status text)

end ApiBindings.Http
