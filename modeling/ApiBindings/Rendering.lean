import ApiBindings.Http
import ApiBindings.Request
import ApiBindings.Text.Basic

/-!
# Rendering

A renderer turns requests into text.  What it does with a request is a reply: an answer and the time
it takes, or no answer at all.  Time is counted in milliseconds.
-/

namespace ApiBindings

/-! ## Faults -/

/-- A fault of one attempt to render a request. -/
inductive RenderError where
  /-- The service was not reached, or its answer could not be read. -/
  | transport (reason : String)
  /-- There was no answer within a number of milliseconds. -/
  | timeout (milliseconds : Nat)
  /-- The service answered that it failed. -/
  | rejected (status : Http.Status) (body : String)
  /-- The service answered with nothing. -/
  | emptyResponse
  /-- The request could not be put on the wire. -/
  | unwritable (reason : String)
  deriving Repr, DecidableEq

namespace RenderError

/-- The text shown for a fault. -/
def message : RenderError → String
  | .transport reason => "renderer request failed: " ++ reason
  | .timeout milliseconds =>
      "renderer request timed out after " ++ toString milliseconds ++ " ms"
  | .rejected status _ => "renderer responded with status " ++ status.text
  | .emptyResponse => "renderer returned an empty response"
  | .unwritable reason => "failed to serialize generation request: " ++ reason

/-- Whether another attempt may succeed. -/
def isTransient : RenderError → Bool
  | .transport _ | .timeout _ => true
  | .rejected status _ => status.isServerError || status.isTooManyRequests
  | .emptyResponse | .unwritable _ => false

end RenderError

/-! ## Renderers -/

/-- What an attempt to render comes to. -/
abbrev Rendered := Except RenderError String

/-- What a renderer does with one request. -/
inductive Reply where
  /-- An answer that comes after some time. -/
  | answer (delay : Nat) (rendered : Rendered)
  /-- No answer ever. -/
  | never

/-- A renderer whose replies may depend on what it was asked before. -/
abbrev Renderer (σ : Type) := Request → StateM σ Reply

/-- The renderer that prints the declaration on the spot. -/
def Renderer.inProcess {σ : Type} : Renderer σ := fun request =>
  return .answer 0 (.ok request.declaration.text)

/-- An attempt that is over: what it came to, and the time it took. -/
structure Attempt where
  rendered : Rendered
  duration : Nat

/-- Wait for a reply up to a limit. An answer that comes right at the limit still counts. -/
def Reply.within (limit : Nat) : Reply → Attempt
  | .answer delay rendered =>
      if delay ≤ limit then ⟨rendered, delay⟩ else ⟨.error (.timeout limit), limit⟩
  | .never => ⟨.error (.timeout limit), limit⟩

/-- How often and how long to try. -/
structure RetryPolicy where
  /-- All attempts for one request. There is always at least one. -/
  maxAttempts : Nat := 3
  /-- The time for one attempt. -/
  timeout : Nat := 10000
  /-- The time between two attempts. -/
  retryDelay : Nat := 200
  deriving Repr, DecidableEq

/-- The attempts that may follow the first. -/
def RetryPolicy.retries (policy : RetryPolicy) : Nat :=
  policy.maxAttempts - 1

/-!
## Attempts and retries

A request is attempted until an attempt succeeds or fails for good, or no retry is left.  Between
two attempts there is a rest.
-/

/-- Whether an attempt calls for another one. -/
def wantsRetry : Rendered → Bool
  | .ok _ => false
  | .error error => error.isTransient

/-- Attempt something, with a number of retries left. -/
def attemptWithRetries {m : Type → Type} [Monad m] (attempt : m Rendered) (rest : m Unit) :
    Nat → m Rendered
  | 0 => attempt
  | retries + 1 => do
      let rendered ← attempt
      if wantsRetry rendered then
        rest
        attemptWithRetries attempt rest retries
      else return rendered

/-- What was spent on a request, next to the state of the renderer. -/
structure Effort (σ : Type) where
  renderer : σ
  calls : Nat := 0
  elapsed : Nat := 0

namespace Effort

variable {σ : Type}

/-- Call a renderer once. -/
def call (render : Renderer σ) (limit : Nat) (request : Request) : StateM (Effort σ) Rendered :=
  fun effort =>
    let (reply, renderer) := (render request).run effort.renderer
    let attempt := reply.within limit
    (attempt.rendered, ⟨renderer, effort.calls + 1, effort.elapsed + attempt.duration⟩)

/-- Let time pass. -/
def rest (duration : Nat) : StateM (Effort σ) Unit :=
  modify fun effort => { effort with elapsed := effort.elapsed + duration }

end Effort

/-- Have a request rendered under a policy. -/
def dispatch {σ : Type} (render : Renderer σ) (policy : RetryPolicy) (request : Request) :
    StateM (Effort σ) Rendered :=
  attemptWithRetries (Effort.call render policy.timeout request) (Effort.rest policy.retryDelay)
    policy.retries

end ApiBindings

namespace ApiBindings.Rendering.Service

/-!
## The rendering service

A server that renders requests posted to it.  Only an answer that tells of success and holds more
than blanks counts as text.
-/

/-- The address that is used unless another one is given. -/
def defaultUrl : String := "http://localhost:8080"

/-- The media type of requests and of answers asked for. -/
def mediaType : String := "application/json"

/-- An address without the slashes at its end. -/
def trimUrl (url : String) : String :=
  String.ofList (url.toList.reverse.dropWhile (· == '/')).reverse

/-- What is posted for a request. -/
def post (baseUrl : String) (request : Request) : Http.Post :=
  { url := trimUrl baseUrl ++ request.endpoint, accept := mediaType, contentType := mediaType
    body := request.wire }

/-- What an answer of the service comes to. -/
def rendered (answer : Http.Answer) : Rendered :=
  if !answer.status.isSuccess then .error (.rejected answer.status answer.body)
  else if Text.isBlankText answer.body then .error .emptyResponse
  else .ok answer.body

/-- The fault of a post that got no answer. -/
def lost (url : String) : RenderError :=
  .transport ("error sending request for url (" ++ url ++ ")")

/-- What an exchange with the service comes to. -/
def reply (url : String) : Http.Exchange → Reply
  | .answered delay answer => .answer delay (rendered answer)
  | .dropped => .answer 0 (.error (lost url))
  | .silent => .never

/-- The renderer that posts requests to the service. -/
def renderer {σ : Type} (baseUrl : String) (send : Http.Post → StateM σ Http.Exchange) :
    Renderer σ := fun request =>
  let post := post baseUrl request
  return reply post.url (← send post)

end ApiBindings.Rendering.Service
