import Nausicaa.Executor.Checks
import Nausicaa.Openai.Budget
import Nausicaa.Openai.Curl
import Nausicaa.Text.Split

/-! # Transports

`CurlTransport` of `transport.rs` and `ReqwestTransport` of `native.rs`: `Program`s over what they ask
of the operating system and of the HTTP client.  The timings that they take are left out.  Curl is
killed if it is left running, and not when it is reaped (`Curl.curlPost_guarded`). -/

namespace Nausicaa.Openai

open Executor (ensure tries_ensure tries_ofExcept)
open Interaction (Contract Fallible outcome request)
open Json (Value)

def maxBody : Nat := 8 * 1024 * 1024

/-- What is printed and read: `to_string`, `from_str` and `from_slice` of JSON, and
`String::from_utf8_lossy`. -/
structure Wire where
  serialize : Value → String
  parse : Parser
  parseSlice : Bytes → Except String Value
  lossy : Bytes → String

/-- The body asks for a stream. -/
def HttpRequest.streams (http : HttpRequest) : Bool :=
  match http.body.get "stream" with
  | some (.bool streams) => streams
  | _ => false

/-- In seconds. -/
def HttpRequest.timeout (http : HttpRequest) : Nat := max http.timeoutSeconds 1

def isSuccess (status : Nat) : Bool := 200 ≤ status && status < 300

/-- The body of an error, at most 4096 characters of it. -/
def excerpt (body : String) : String := String.ofList (body.toList.take 4096)

/-! ## Curl -/

/-- How a process ended, with the text that this is displayed as. -/
structure ExitStatus where
  success : Bool
  text : String

/-- What comes out of the channel of the thread that reads the output. -/
inductive Received where
  | chunk (bytes : Bytes)
  | failed (message : String)
  | timeout
  | disconnected

inductive CurlOp where
  | isCancelled
  /-- In its own group, with the configuration as its input. -/
  | spawn (config : String)
  /-- In whole seconds. -/
  | elapsed
  | receive
  | tryWait
  | sleep
  /-- What was read of the other output, if its reader has finished. -/
  | errors
  /-- The group is killed, and waited for on a thread of its own. -/
  | kill
  /-- One more turn than are run. -/
  | more

abbrev CurlOp.Answer : CurlOp → Type
  | .isCancelled => Bool
  | .spawn _ => Except String Unit
  | .elapsed => Nat
  | .receive => Received
  | .tryWait => Except String (Option ExitStatus)
  | .errors => Bytes
  | .sleep | .kill => Unit
  | .more => Empty

abbrev CurlCode := Fallible CurlOp CurlOp.Answer TransportError

namespace Curl

def check : CurlCode Unit := do
  let cancelled : Bool ← request CurlOp.isCancelled
  ensure (cancelled = false) (.io "request cancelled")

/-- What every turn of a loop begins with. -/
def proceed (http : HttpRequest) : CurlCode Unit := do
  check
  let elapsed : Nat ← request CurlOp.elapsed
  ensure (elapsed < http.timeout) (.io "request deadline exceeded")

/-- `map_err(io_error)?`. -/
def orIo {α : Type} : Except String α → CurlCode α
  | .ok value => pure value
  | .error message => throw (.io message)

section Loops

variable (wire : Wire) (http : HttpRequest)

/-- What the decoder makes of a chunk, if there is a stream. -/
def feed (decoder : Decoder) (chunk : Bytes) : Except TransportError Decoder :=
  if http.streams then decoder.push wire.parse chunk else .ok decoder

/-- A chunk joins the output, and the decoder takes it in. -/
def take (bytes : Bytes) (decoder : Decoder) (chunk : Bytes) : CurlCode (Bytes × Decoder) := do
  ensure (bytes.length + chunk.length ≤ maxBody) (.protocol "response exceeds 8 MiB")
  let decoder ← Executor.ofExcept (feed wire http decoder chunk)
  return (bytes ++ chunk, decoder)

/-- The loop over the output, of which some turns are run. -/
def receiveLoop : Nat → Bytes → Decoder → CurlCode (Bytes × Decoder)
  | 0, _, _ => do
    let never : Empty ← request CurlOp.more
    nomatch never
  | turns + 1, bytes, decoder => do
    proceed http
    let received : Received ← request CurlOp.receive
    match received with
    | .chunk chunk =>
      let (bytes, decoder) ← take wire http bytes decoder chunk
      receiveLoop turns bytes decoder
    | .failed message => throw (.io message)
    | .timeout => receiveLoop turns bytes decoder
    | .disconnected => return (bytes, decoder)

def waitLoop : Nat → CurlCode ExitStatus
  | 0 => do
    let never : Empty ← request CurlOp.more
    nomatch never
  | turns + 1 => do
    proceed http
    match ← orIo (← request CurlOp.tryWait) with
    | some status => return status
    | none =>
      request CurlOp.sleep
      waitLoop turns

/-- Until the process is reaped. -/
def transfer (turns : Nat) : CurlCode ((Bytes × Decoder) × ExitStatus) := do
  let received ← receiveLoop wire http turns [] {}
  let status ← waitLoop http turns
  return (received, status)

end Loops

/-- The line in front of the numbers that curl prints behind the body. -/
def separator (turnId : String) : String := "\n__NAUSICAA_" ++ turnId ++ "__ "

/-- The body, and the status that curl was told. -/
def splitOutput (turnId : String) (bytes : Bytes) : Except TransportError (String × Nat) :=
  match Text.decode bytes with
  | none => error "non-UTF-8 response"
  | some output =>
    match Text.splitLast (separator turnId).toList output.toList with
    | none => error "missing curl metrics"
    | some (body, metrics) =>
      let values := Text.words Core.isWhitespace (String.ofList metrics)
      if values.length ≠ 5 then error "invalid curl metrics"
      else
        match Text.parseUnsigned 65535 (values.headD "") with
        | none => error "invalid HTTP status"
        | some status => .ok (String.ofList body, status)

/-- What the process says when it has not succeeded. -/
def exitError (wire : Wire) (status : ExitStatus) (errors : Bytes) : TransportError :=
  .io ("curl " ++ status.text ++ ": " ++ Text.trim Core.isWhitespace (wire.lossy errors))

def respond (wire : Wire) (http : HttpRequest) (decoder : Decoder) (body : String) (status : Nat) :
    Except TransportError HttpResponse :=
  if isSuccess status then do
    let value ← (if http.streams then decoder.finish wire.parse
      else (wire.parse body).mapError .protocol)
    return ⟨status, value⟩
  else .error (.http status (excerpt body))

/-- Behind the loops. -/
def finish (wire : Wire) (http : HttpRequest) (turnId : String) (bytes : Bytes)
    (decoder : Decoder) (exit : ExitStatus) : CurlCode HttpResponse := do
  let (body, status) ← Executor.ofExcept (splitOutput turnId bytes)
  if exit.success then Executor.ofExcept (respond wire http decoder body status)
  else
    let errors : Bytes ← request CurlOp.errors
    throw (exitError wire exit errors)

end Curl

/-- `CurlTransport::post_json_controlled`, in at most this many turns of each loop.  Whoever leaves
before the process is reaped drops its guard. -/
def curlPost (wire : Wire) (turns : Nat) (turnId : String) (http : HttpRequest) :
    CurlCode HttpResponse := do
  Curl.check
  let config ← Executor.ofExcept (curlConfig wire.serialize turnId http)
  Curl.orIo (← request (CurlOp.spawn config))
  let result ← outcome (Curl.transfer wire http turns)
  match result with
  | .ok ((bytes, decoder), exit) => Curl.finish wire http turnId bytes decoder exit
  | .error failure =>
    request CurlOp.kill
    throw failure

/-! ### The process -/

/-- What became of the process. -/
inductive Process where
  | none
  | running
  | reaped (success : Bool)
  | killed
  deriving DecidableEq

/-- Whatever is answered, the process is started once, read and waited for while it runs, and killed
only then, since its number may be another one's later. -/
def Process.guard : Contract CurlOp CurlOp.Answer Process where
  permit
    | process, .spawn _ => process = .none
    | process, .receive | process, .tryWait | process, .sleep | process, .kill => process = .running
    | process, .errors => process = .reaped false
    | _, _ => True
  step
    | _, .spawn _, .ok _, process' => process' = .running
    | _, .tryWait, .ok (some status), process' => process' = .reaped status.success
    | _, .kill, _, process' => process' = .killed
    | process, _, _, process' => process' = process

namespace Curl

open Process (guard)

variable {wire : Wire} {http : HttpRequest} {turns : Nat} {process : Process}

theorem proceed_guarded : guard.Carries (· = process) (fun _ => (· = process)) (proceed http) := by
  rw [proceed, check]
  refine .bind (.bind ?_ fun cancelled => ?_) fun _ => .bind ?_ fun elapsed => ?_
  · rintro _ rfl
    exact Contract.Tries.request trivial fun _ _ step => step
  · rintro _ rfl
    exact tries_ensure (fun _ => rfl) fun _ => rfl
  · rintro _ rfl
    exact Contract.Tries.request trivial fun _ _ step => step
  · rintro _ rfl
    exact tries_ensure (fun _ => rfl) fun _ => rfl

theorem take_guarded {bytes chunk : Bytes} {decoder : Decoder} :
    guard.Carries (· = process) (fun _ => (· = process)) (take wire http bytes decoder chunk) := by
  rw [take]
  refine .bind ?_ fun _ => .bind ?_ fun decoder => .pure _
  · rintro _ rfl
    exact tries_ensure (fun _ => rfl) fun _ => rfl
  · rintro _ rfl
    exact tries_ofExcept (fun _ _ => rfl) fun _ _ => rfl

/-- The process still runs behind the loop over its output. -/
theorem receiveLoop_guarded {bytes : Bytes} {decoder : Decoder} :
    guard.Carries (· = .running) (fun _ => (· = .running))
      (receiveLoop wire http turns bytes decoder) := by
  induction turns generalizing bytes decoder with
  | zero =>
    rw [receiveLoop]
    refine .bind ?_ fun never => nomatch never
    rintro _ rfl
    exact Contract.Tries.request trivial fun _ _ step => step
  | succ turns ih =>
    rw [receiveLoop]
    refine .bind proceed_guarded fun _ => .bind ?_ fun received => ?_
    · rintro _ rfl
      exact Contract.Tries.request rfl fun _ _ step => step
    · cases received with
      | chunk chunk => exact .bind take_guarded fun _ => ih
      | failed message => exact .throw fun _ running => running
      | timeout => exact ih
      | disconnected => exact .pure _

/-- The loop that waits goes on until the process is reaped. -/
theorem waitLoop_guarded : guard.Tries (waitLoop http turns)
    (fun status process => process = .reaped status.success) (fun _ process => process = .running)
    .running := by
  induction turns with
  | zero =>
    rw [waitLoop]
    apply Contract.Tries.bind
    exact Contract.Tries.request trivial fun never _ _ => nomatch never
  | succ turns ih =>
    rw [waitLoop]
    refine proceed_guarded.then_tries ?_ rfl
    rintro _ _ rfl
    apply Contract.Tries.bind
    apply Contract.Tries.request rfl
    intro answer process step
    apply Contract.Tries.bind
    cases answer with
    | error message =>
      cases step
      exact Contract.Tries.throw rfl
    | ok answer =>
      apply Contract.Tries.pure
      cases answer with
      | some status => exact Contract.Tries.pure step
      | none =>
        cases step
        apply Contract.Tries.bind
        apply Contract.Tries.request rfl
        rintro _ _ rfl
        exact ih

theorem finish_guarded {turnId : String} {bytes : Bytes} {decoder : Decoder} {exit : ExitStatus} :
    guard.Tries (finish wire http turnId bytes decoder exit)
      (fun _ process => process = .reaped true) (fun _ process => process ≠ .running)
      (.reaped exit.success) := by
  rw [finish]
  apply Contract.Tries.bind
  apply tries_ofExcept _ (by intro _ _; rintro ⟨⟩)
  intro output _
  cases exit.success with
  | true => exact tries_ofExcept (fun _ _ => rfl) (by intro _ _; rintro ⟨⟩)
  | false =>
    apply Contract.Tries.bind
    apply Contract.Tries.request rfl
    rintro _ _ rfl
    apply Contract.Tries.throw
    rintro ⟨⟩

/-- A response comes from a process that succeeded and is reaped; with an error none is left running. -/
theorem curlPost_guarded (wire : Wire) (turns : Nat) (turnId : String) (http : HttpRequest) :
    guard.Tries (curlPost wire turns turnId http) (fun _ process => process = .reaped true)
      (fun _ process => process ≠ .running) .none := by
  rw [curlPost, check]
  apply Contract.Tries.bind
  apply Contract.Tries.bind
  apply Contract.Tries.request trivial
  rintro cancelled _ rfl
  apply tries_ensure _ (by intro _; rintro ⟨⟩)
  intro _
  apply Contract.Tries.bind
  apply tries_ofExcept _ (by intro _ _; rintro ⟨⟩)
  intro config _
  apply Contract.Tries.bind
  apply Contract.Tries.request rfl
  intro spawned process step
  apply Contract.Tries.bind
  cases spawned with
  | error message =>
    cases step
    apply Contract.Tries.throw
    rintro ⟨⟩
  | ok =>
    cases step
    apply Contract.Tries.pure
    apply Contract.Tries.bind
    apply Contract.Tries.outcome
    -- Whoever leaves a loop leaves the process running, and the guard kills it.
    have dropped : ∀ failure, guard.Tries
        (do
          request CurlOp.kill
          throw failure : CurlCode HttpResponse)
        (fun _ process => process = .reaped true) (fun _ process => process ≠ .running)
        .running := by
      intro failure
      apply Contract.Tries.bind
      apply Contract.Tries.request rfl
      rintro _ _ rfl
      apply Contract.Tries.throw
      rintro ⟨⟩
    rw [transfer]
    apply Contract.Tries.bind
    apply Contract.Tries.mono (receiveLoop_guarded _ rfl)
    · rintro ⟨bytes, decoder⟩ _ rfl
      apply Contract.Tries.bind
      apply Contract.Tries.mono waitLoop_guarded
      · rintro status _ rfl
        apply Contract.Tries.pure
        exact finish_guarded
      · rintro failure _ rfl
        exact dropped failure
    · rintro failure _ rfl
      exact dropped failure

end Curl

/-! ## The native client -/

/-- What is read of a URL. -/
structure Endpoint where
  scheme : String
  username : String
  password : Option String

/-- What the client's types take. -/
structure ClientRules where
  url : String → Option Endpoint
  headerName : String → Bool
  headerValue : String → Bool

/-- The head of a response. -/
structure Head where
  status : Nat
  contentLength : Option Nat

/-- What is awaited, unless the clock or the token comes first. -/
inductive Awaited (α : Type) where
  | ready (value : α)
  | cancelled
  | late

inductive ClientOp where
  | isCancelled
  /-- There is a runtime for the client. -/
  | runtime
  /-- The time so many seconds from now can be told. -/
  | deadline (seconds : Nat)
  | send (http : HttpRequest)
  | chunk
  /-- One more turn than are run. -/
  | more

abbrev ClientOp.Answer : ClientOp → Type
  | .isCancelled | .runtime | .deadline _ => Bool
  | .send _ => Awaited (Except String Head)
  | .chunk => Awaited (Except String (Option Bytes))
  | .more => Empty

abbrev ClientCode := Fallible ClientOp ClientOp.Answer TransportError

namespace Client

def check : ClientCode Unit := do
  let cancelled : Bool ← request ClientOp.isCancelled
  ensure (cancelled = false) (.io "request cancelled")

/-- One await inside the `select!`, and `map_err(io_error)?`. -/
def await {α : Type} : Awaited (Except String α) → ClientCode α
  | .ready (.ok value) => pure value
  | .ready (.error message) => throw (.io message)
  | .cancelled => throw (.io "request cancelled")
  | .late => throw (.io "request timed out")

/-- What can be refused before anything is sent. -/
def checkRequest (rules : ClientRules) (http : HttpRequest) : Except TransportError Unit :=
  match rules.url http.url with
  | none => error "invalid HTTP endpoint"
  | some endpoint =>
    if !(endpoint.scheme == "http" || endpoint.scheme == "https") || endpoint.username ≠ "" ||
        endpoint.password.isSome then
      error "endpoint must use HTTP(S) without URL credentials"
    else
      match http.headers.toList.find? fun header =>
        !rules.headerName header.1 || !rules.headerValue header.2 with
      | none => .ok ()
      | some header =>
        if rules.headerName header.1 then error "invalid HTTP header value"
        else error "invalid HTTP header name"

section Reading

variable (wire : Wire) (http : HttpRequest) (status : Nat)

/-- What the loop over the chunks has so far. -/
structure Reading where
  received : Nat
  body : Bytes
  decoder : Decoder

def take (reading : Reading) (chunk : Bytes) : Except TransportError Reading :=
  let received := reading.received + chunk.length
  if maxBody < received then error "HTTP response exceeds 8 MiB"
  else if http.streams && isSuccess status then do
    let decoder ← reading.decoder.push wire.parse chunk
    return { reading with received, decoder }
  else .ok { reading with received, body := reading.body ++ chunk }

/-- The loop over the chunks, of which some turns are run. -/
def chunks : Nat → Reading → ClientCode Reading
  | 0, _ => do
    let never : Empty ← request ClientOp.more
    nomatch never
  | turns + 1, reading => do
    let next ← await (← request ClientOp.chunk)
    match next with
    | none => return reading
    | some chunk =>
      check
      let reading ← Executor.ofExcept (take wire http status reading chunk)
      chunks turns reading

def respond (reading : Reading) : Except TransportError HttpResponse :=
  if isSuccess status then do
    let value ← (if http.streams then reading.decoder.finish wire.parse
      else (wire.parseSlice reading.body).mapError .protocol)
    return ⟨status, value⟩
  else .error (.http status (excerpt (wire.lossy reading.body)))

end Reading

/-- `ReqwestTransport::send`. -/
def send (wire : Wire) (rules : ClientRules) (turns : Nat) (http : HttpRequest) :
    ClientCode HttpResponse := do
  Executor.ofExcept (checkRequest rules http)
  let head ← await (← request (ClientOp.send http))
  ensure (head.contentLength.all (· ≤ maxBody)) (.protocol "HTTP response exceeds 8 MiB")
  let reading ← chunks wire http head.status turns ⟨0, [], {}⟩
  check
  Executor.ofExcept (respond wire http head.status reading)

end Client

/-- `ReqwestTransport::post_json_controlled`. -/
def reqwestPost (wire : Wire) (rules : ClientRules) (turns : Nat) (http : HttpRequest) :
    ClientCode HttpResponse := do
  Client.check
  let runtime : Bool ← request ClientOp.runtime
  ensure (runtime = true)
    (.protocol "ReqwestTransport requires a Tokio runtime with I/O and time enabled")
  let fits : Bool ← request (ClientOp.deadline http.timeout)
  ensure (fits = true) (.protocol "request timeout is too large")
  let result ← outcome (Client.send wire rules turns http)
  Client.check
  Executor.ofExcept result

end Nausicaa.Openai
