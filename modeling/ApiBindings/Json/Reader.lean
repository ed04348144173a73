import ApiBindings.Json.Token

/-!
# Reading JSON

The reader takes one token after the other.  Between tokens it knows the containers that are still
open and what may come next, so that a document is a fold of `step` over its tokens.
-/

namespace ApiBindings.Json

namespace Reader

/-- A container that waits for a value. Its contents so far are in reverse. -/
inductive Frame where
  | array (done : List Json)
  | object (done : List (List Char × Json)) (key : List Char)
  deriving Repr

/-- What may come next. -/
inductive Expects where
  | value
  /-- The first item of an array or its end. -/
  | firstItem
  /-- A comma or the end of an array with these items. -/
  | nextItem (done : List Json)
  /-- The first key of an object or its end. -/
  | firstKey
  /-- A comma or the end of an object with these members. -/
  | nextMember (done : List (List Char × Json))
  | key (done : List (List Char × Json))
  | colon (done : List (List Char × Json)) (key : List Char)
  /-- Nothing: the document is complete. -/
  | nothing (value : Json)
  deriving Repr

/-- Where the reader stands between two tokens. -/
structure State where
  stack : List Frame
  expects : Expects
  deriving Repr

/-- Go on after a complete value. -/
def complete (value : Json) : List Frame → State
  | [] => ⟨[], .nothing value⟩
  | .array done :: stack => ⟨stack, .nextItem (value :: done)⟩
  | .object done key :: stack => ⟨stack, .nextMember ((key, value) :: done)⟩

/-- Take the first token of a value. -/
def beginValue (stack : List Frame) : Token → Option State
  | .word value => some (complete value stack)
  | .text spelling => some (complete (.string spelling) stack)
  | .openArray => some ⟨stack, .firstItem⟩
  | .openObject => some ⟨stack, .firstKey⟩
  | _ => none

/-- Take one token. -/
def step (state : State) (token : Token) : Option State :=
  match state.expects, token with
  | .value, token => beginValue state.stack token
  | .firstItem, .closeArray => some (complete (.array []) state.stack)
  | .firstItem, token => beginValue (.array [] :: state.stack) token
  | .nextItem done, .comma => some ⟨.array done :: state.stack, .value⟩
  | .nextItem done, .closeArray => some (complete (.array done.reverse) state.stack)
  | .firstKey, .closeObject => some (complete (.object []) state.stack)
  | .firstKey, .text key => some ⟨state.stack, .colon [] key⟩
  | .nextMember done, .comma => some ⟨state.stack, .key done⟩
  | .nextMember done, .closeObject => some (complete (.object done.reverse) state.stack)
  | .key done, .text key => some ⟨state.stack, .colon done key⟩
  | .colon done key, .colon => some ⟨.object done key :: state.stack, .value⟩
  | _, _ => none

/-- The value a complete document has. -/
def State.result? : State → Option Json
  | ⟨[], .nothing value⟩ => some value
  | _ => none

/-- The value that a row of tokens spells. -/
def read? (tokens : List Token) : Option Json := do
  (← tokens.foldlM step ⟨[], .value⟩).result?

end Reader

/-- The value of a document: one value with nothing but gaps around it. -/
def parse? (text : String) : Option Json := do
  Reader.read? (← Token.tokenize? text.toList)

end ApiBindings.Json
