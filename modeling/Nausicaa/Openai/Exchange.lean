import Nausicaa.Executor.Checks
import Nausicaa.Openai.Agreement
import Nausicaa.Openai.Trailer

/-! # What a transport returns

A server answers with a status and a text.  Whatever the pieces in which the text arrives and however
long the pauses between them are, both transports return the `exchange`, but that curl decodes the
text of an error as well (`transports_exchange`). -/

namespace Nausicaa.Openai

open Executor (ensure tries_ensure tries_ofExcept)
open Fallible (bind_ok)
open Interaction (Contract Fallible)
open Json (Value)
open Text (encode)

/-- What a server answers. -/
structure Reply where
  status : Nat
  text : String

/-- What there is to return of it. -/
def exchange (parse : Parser) (streams : Bool) (reply : Reply) :
    Except TransportError HttpResponse :=
  if isSuccess reply.status then do
    let value ← (if streams then decode parse [encode reply.text]
      else (parse reply.text).mapError .protocol)
    return ⟨reply.status, value⟩
  else .error (.http reply.status (excerpt reply.text))

/-- The same, if what is a stream can be decoded, with a newline behind it. -/
def curlExchange (parse : Parser) (streams : Bool) (reply : Reply) :
    Except TransportError HttpResponse :=
  if streams then do
    discard (Decoder.push parse {} (encode reply.text ++ [newline]))
    exchange parse streams reply
  else exchange parse streams reply

/-! ## Quiet surroundings -/

/-- What is still to come of an output, and how often it is waited for. -/
structure Transit where
  rest : Bytes
  pauses : Nat

/-- A piece of the output. -/
def Transit.Brings (transit : Transit) (chunk : Bytes) (transit' : Transit) : Prop :=
  chunk ≠ [] ∧ transit.rest = chunk ++ transit'.rest ∧ transit'.pauses = transit.pauses

def Transit.Waits (transit transit' : Transit) : Prop :=
  transit'.rest = transit.rest ∧ transit.pauses = transit'.pauses + 1

/-- Nobody cancels, and curl prints what is to come within the time, and succeeds. -/
def Curl.quiet (http : HttpRequest) : Contract CurlOp CurlOp.Answer Transit where
  permit _ op := op ≠ .more
  step
    | transit, .isCancelled, answer, transit' => answer = false ∧ transit' = transit
    | transit, .spawn _, answer, transit' => answer = .ok () ∧ transit' = transit
    | transit, .elapsed, answer, transit' => answer < http.timeout ∧ transit' = transit
    | transit, .receive, .chunk bytes, transit' => transit.Brings bytes transit'
    | transit, .receive, .timeout, transit' => transit.Waits transit'
    | transit, .receive, .disconnected, transit' => transit.rest = [] ∧ transit' = transit
    | transit, .tryWait, .ok none, transit' => transit.Waits transit'
    | transit, .tryWait, .ok (some status), transit' => status.success = true ∧ transit' = transit
    | transit, .sleep, _, transit' | transit, .kill, _, transit' => transit' = transit
    | _, _, _, _ => False

namespace Curl

variable {wire : Wire} {http : HttpRequest} {transit : Transit} {turns : Nat}

theorem proceed_tries {ok : Unit → Transit → Prop} {failed : TransportError → Transit → Prop}
    (holds : ok () transit) : (quiet http).Tries (proceed http) ok failed transit := by
  rw [proceed, check]
  apply Contract.Tries.bind
  apply Contract.Tries.bind
  apply Contract.Tries.request (by rintro ⟨⟩)
  rintro cancelled _ ⟨rfl, rfl⟩
  apply tries_ensure _ (fun other => absurd rfl other)
  intro _
  apply Contract.Tries.bind
  apply Contract.Tries.request (by rintro ⟨⟩)
  rintro elapsed _ ⟨early, rfl⟩
  apply tries_ensure _ (fun late => absurd early late)
  intro _
  exact holds

theorem feed_append (decoder : Decoder) (bytes more : Bytes) :
    feed wire http decoder (bytes ++ more) = (do
      let decoder ← feed wire http decoder bytes
      feed wire http decoder more) := by
  rw [feed, feed]
  split
  next => simp only [feed, Decoder.push_append, ↓reduceIte, *]
  next => simp only [feed, Bool.false_eq_true, ↓reduceIte, *]; rfl

theorem take_tries {bytes chunk : Bytes} {decoder : Decoder} {ok : Bytes × Decoder → Transit → Prop}
    {failed : TransportError → Transit → Prop} (fits : bytes.length + chunk.length ≤ maxBody)
    (holds : ∀ decoder', feed wire http decoder chunk = .ok decoder' →
      ok (bytes ++ chunk, decoder') transit)
    (fails : ∀ failure, feed wire http decoder chunk = .error failure → failed failure transit) :
    (quiet http).Tries (take wire http bytes decoder chunk) ok failed transit := by
  rw [take]
  apply Contract.Tries.bind
  apply tries_ensure _ (fun large => absurd fits large)
  intro _
  apply Contract.Tries.bind
  exact tries_ofExcept (fun _ fed => Contract.Tries.pure (holds _ fed)) fails

/-- The loop reads what is to come. -/
theorem receiveLoop_tries {bytes : Bytes} {decoder : Decoder}
    (enough : transit.rest.length + transit.pauses < turns)
    (fits : bytes.length + transit.rest.length ≤ maxBody) :
    (quiet http).Tries (receiveLoop wire http turns bytes decoder)
      (fun read transit' => read.1 = bytes ++ transit.rest ∧
        feed wire http decoder transit.rest = .ok read.2 ∧ transit'.pauses ≤ transit.pauses)
      (fun failure _ => feed wire http decoder transit.rest = .error failure) transit := by
  induction turns generalizing bytes decoder transit with
  | zero => omega
  | succ turns ih =>
    rw [receiveLoop]
    apply Contract.Tries.bind
    apply proceed_tries
    apply Contract.Tries.bind
    apply Contract.Tries.request (by rintro ⟨⟩)
    intro received transit' step
    cases received with
    | chunk chunk =>
      obtain ⟨filled, split, same⟩ := step
      have length := congrArg List.length split
      have some := List.length_pos_iff.mpr filled
      rw [List.length_append] at length
      apply Contract.Tries.bind
      apply take_tries (by omega)
      · intro decoder' fed
        apply Contract.Tries.mono (ih (by omega) (by rw [List.length_append]; omega))
        · intro read last ended
          obtain ⟨whole, fed', fewer⟩ := ended
          rw [split, feed_append, fed, whole, List.append_assoc]
          exact ⟨rfl, fed', same ▸ fewer⟩
        · intro failure last failed
          rw [split, feed_append, fed]
          exact failed
      · intro failure failed
        rw [split, feed_append, failed]
        rfl
    | failed message => cases step
    | timeout =>
      obtain ⟨same, fewer⟩ := step
      rw [← same] at enough fits ⊢
      apply Contract.Tries.mono (ih (by omega) fits)
      · intro read last ended
        exact ⟨ended.1, ended.2.1, by omega⟩
      · intro failure last failed
        exact failed
    | disconnected =>
      obtain ⟨none, rfl⟩ := step
      rw [none]
      apply Contract.Tries.pure
      refine ⟨(List.append_nil bytes).symm, ?_, Nat.le_refl _⟩
      rw [feed]
      split <;> rfl

theorem waitLoop_tries {ok : ExitStatus → Transit → Prop}
    {failed : TransportError → Transit → Prop} (enough : transit.pauses < turns)
    (holds : ∀ status transit', status.success = true → ok status transit') :
    (quiet http).Tries (waitLoop http turns) ok failed transit := by
  induction turns generalizing transit with
  | zero => omega
  | succ turns ih =>
    rw [waitLoop]
    apply Contract.Tries.bind
    apply proceed_tries
    apply Contract.Tries.bind
    apply Contract.Tries.request (by rintro ⟨⟩)
    intro answer transit' step
    cases answer with
    | error message => cases step
    | ok answer =>
      apply Contract.Tries.bind
      apply Contract.Tries.pure
      cases answer with
      | some status => exact holds status transit' step.1
      | none =>
        obtain ⟨_, fewer⟩ := step
        apply Contract.Tries.bind
        apply Contract.Tries.request (by rintro ⟨⟩)
        rintro _ _ rfl
        exact ih (by omega)

/-- What there is to return when the output is a body and its metrics. -/
theorem respond_exchange {turnId : String} {reply : Reply} {metrics : Metrics}
    (clean : '\n' ∉ turnId.toList) (shown : metrics.Printed)
    (fits : (encode (printed turnId "" metrics)).length ≤ maxFrame) :
    (do
      let decoder ← feed wire http {} (encode (printed turnId reply.text metrics))
      respond wire http decoder reply.text reply.status) =
      curlExchange wire.parse http.streams reply := by
  rw [feed, curlExchange, exchange]
  by_cases streams : http.streams = true
  · rw [if_pos streams, if_pos streams, push_printed wire.parse clean shown fits, ← finish_text]
    cases Decoder.push wire.parse {} (encode reply.text ++ [newline]) with
    | error => rfl
    | ok decoder =>
      simp only [respond, streams, ↓reduceIte]
      rfl
  · simp only [respond, streams, Bool.false_eq_true, ↓reduceIte]
    rfl

theorem finish_tries {turnId : String} {reply : Reply} {metrics : Metrics} {decoder : Decoder}
    {exit : ExitStatus} {ok : HttpResponse → Transit → Prop}
    {failed : TransportError → Transit → Prop}
    (clean : '\n' ∉ turnId.toList) (shown : metrics.Printed) (same : metrics.status = reply.status)
    (succeeds : exit.success = true)
    (holds : ∀ response, respond wire http decoder reply.text reply.status = .ok response →
      ok response transit)
    (fails : ∀ failure, respond wire http decoder reply.text reply.status = .error failure →
      failed failure transit) :
    (quiet http).Tries
      (finish wire http turnId (encode (printed turnId reply.text metrics)) decoder exit) ok failed
      transit := by
  rw [finish, splitOutput_printed clean shown, same]
  apply Contract.Tries.bind
  apply Contract.Tries.pure
  rw [succeeds]
  exact tries_ofExcept holds fails

/-- `curlPost` returns the exchange. -/
theorem curlPost_tries {turnId config : String} {reply : Reply} {metrics : Metrics} {pauses : Nat}
    (accepted : curlConfig wire.serialize turnId http = .ok config)
    (clean : '\n' ∉ turnId.toList) (shown : metrics.Printed) (same : metrics.status = reply.status)
    (short : (encode (printed turnId "" metrics)).length ≤ maxFrame)
    (fits : (encode (printed turnId reply.text metrics)).length ≤ maxBody)
    (enough : (encode (printed turnId reply.text metrics)).length + pauses < turns) :
    (quiet http).Tries (curlPost wire turns turnId http)
      (fun response _ => curlExchange wire.parse http.streams reply = .ok response)
      (fun failure _ => curlExchange wire.parse http.streams reply = .error failure)
      ⟨encode (printed turnId reply.text metrics), pauses⟩ := by
  have responded := @respond_exchange wire http turnId reply metrics clean shown short
  rw [curlPost, check, accepted]
  apply Contract.Tries.bind
  apply Contract.Tries.bind
  apply Contract.Tries.request (by rintro ⟨⟩)
  rintro cancelled _ ⟨rfl, rfl⟩
  apply tries_ensure _ (fun other => absurd rfl other)
  intro _
  apply Contract.Tries.bind
  apply Contract.Tries.pure
  apply Contract.Tries.bind
  apply Contract.Tries.request (by rintro ⟨⟩)
  rintro spawned _ ⟨rfl, rfl⟩
  apply Contract.Tries.bind
  apply Contract.Tries.pure
  apply Contract.Tries.bind
  apply Contract.Tries.outcome
  rw [transfer]
  apply Contract.Tries.bind
  apply Contract.Tries.mono (receiveLoop_tries enough (by simpa using fits))
  · intro read transit ended
    obtain ⟨whole, fed, fewer⟩ := ended
    rw [fed] at responded
    apply Contract.Tries.bind
    have enough' : transit.pauses < turns := by
      have := Nat.le_add_left pauses (encode (printed turnId reply.text metrics)).length
      have fewer' : transit.pauses ≤ pauses := fewer
      omega
    apply waitLoop_tries enough'
    intro exit transit' succeeds
    apply Contract.Tries.pure
    obtain ⟨bytes, decoder⟩ := read
    subst whole
    apply finish_tries clean shown same succeeds
    · intro response done
      exact responded ▸ done
    · intro failure done
      exact responded ▸ done
  · intro failure transit fed
    rw [fed] at responded
    apply Contract.Tries.bind
    apply Contract.Tries.request (by rintro ⟨⟩)
    rintro _ _ rfl
    exact Contract.Tries.throw responded.symm

end Curl

namespace Client

/-- Nobody cancels, and the server answers with a status and with what is to come, within the time. -/
def quiet (status : Nat) : Contract ClientOp ClientOp.Answer Transit where
  permit _ op := op ≠ .more
  step
    | transit, .isCancelled, answer, transit' => answer = false ∧ transit' = transit
    | transit, .runtime, answer, transit' => answer = true ∧ transit' = transit
    | transit, .deadline _, answer, transit' => answer = true ∧ transit' = transit
    | transit, .send _, .ready (.ok head), transit' =>
      head.status = status ∧ head.contentLength.all (· = transit.rest.length) ∧ transit' = transit
    | transit, .chunk, .ready (.ok (some chunk)), transit' =>
      transit.Brings chunk transit' ∨ chunk = [] ∧ transit.Waits transit'
    | transit, .chunk, .ready (.ok none), transit' => transit.rest = [] ∧ transit' = transit
    | _, _, _, _ => False

variable {wire : Wire} {rules : ClientRules} {http : HttpRequest} {status turns : Nat}
variable {transit : Transit} {reading reading' : Reading}

theorem check_tries {ok : Unit → Transit → Prop} {failed : TransportError → Transit → Prop}
    (holds : ok () transit) : (quiet status).Tries check ok failed transit := by
  rw [check]
  apply Contract.Tries.bind
  apply Contract.Tries.request (by rintro ⟨⟩)
  rintro cancelled _ ⟨rfl, rfl⟩
  exact tries_ensure (fun _ => holds) fun other => absurd rfl other

/-- What is taken within the limit. -/
theorem take_fits {chunk : Bytes} (fits : reading.received + chunk.length ≤ maxBody) :
    take wire http status reading chunk =
      if http.streams && isSuccess status then do
        let decoder ← reading.decoder.push wire.parse chunk
        return { reading with received := reading.received + chunk.length, decoder }
      else .ok { reading with
        received := reading.received + chunk.length, body := reading.body ++ chunk } := by
  rw [take]
  exact if_neg (Nat.not_lt.mpr fits)

theorem take_nil (fits : reading.received ≤ maxBody) :
    take wire http status reading [] = .ok reading := by
  rw [take_fits (by simpa using fits)]
  simp only [List.length_nil, Nat.add_zero, List.append_nil]
  split <;> rfl

theorem take_received {chunk : Bytes} (fits : reading.received + chunk.length ≤ maxBody)
    (taken : take wire http status reading chunk = .ok reading') :
    reading'.received = reading.received + chunk.length := by
  rw [take_fits fits] at taken
  split at taken
  next =>
    obtain ⟨decoder, _, made⟩ := bind_ok.mp taken
    cases made
    rfl
  next =>
    cases taken
    rfl

theorem take_append {chunk more : Bytes}
    (fits : reading.received + (chunk ++ more).length ≤ maxBody) :
    take wire http status reading (chunk ++ more) = (do
      let reading ← take wire http status reading chunk
      take wire http status reading more) := by
  have lengths := fits
  rw [List.length_append, ← Nat.add_assoc] at lengths
  have first : reading.received + chunk.length ≤ maxBody := by omega
  rw [take_fits fits, take_fits first, List.length_append, ← Nat.add_assoc]
  by_cases decodes : (http.streams && isSuccess status) = true
  · rw [if_pos decodes, if_pos decodes, Decoder.push_append]
    cases reading.decoder.push wire.parse chunk with
    | error => rfl
    | ok decoder =>
      let next : Reading := { reading with received := reading.received + chunk.length, decoder }
      have rest := @take_fits wire http status next more lengths
      rw [if_pos decodes] at rest
      exact rest.symm
  · rw [if_neg decodes, if_neg decodes, ← List.append_assoc]
    let next : Reading := { reading with
      received := reading.received + chunk.length, body := reading.body ++ chunk }
    have rest := @take_fits wire http status next more lengths
    rw [if_neg decodes] at rest
    exact rest.symm

/-- The loop takes what is to come. -/
theorem chunks_tries (enough : transit.rest.length + transit.pauses < turns)
    (fits : reading.received + transit.rest.length ≤ maxBody) :
    (quiet status).Tries (chunks wire http status turns reading)
      (fun reading' _ => take wire http status reading transit.rest = .ok reading')
      (fun failure _ => take wire http status reading transit.rest = .error failure) transit := by
  induction turns generalizing reading transit with
  | zero => omega
  | succ turns ih =>
    rw [chunks]
    apply Contract.Tries.bind
    apply Contract.Tries.request (by rintro ⟨⟩)
    intro answer transit' step
    apply Contract.Tries.bind
    -- A chunk that is taken, with or without bytes, leaves the rest to the loop.
    have taking : ∀ {chunk : Bytes}, transit.rest = chunk ++ transit'.rest →
        transit'.rest.length + transit'.pauses < turns →
        (quiet status).Tries
          (do
            check
            let reading ← Executor.ofExcept (take wire http status reading chunk)
            chunks wire http status turns reading)
          (fun reading' _ => take wire http status reading transit.rest = .ok reading')
          (fun failure _ => take wire http status reading transit.rest = .error failure)
          transit' := by
      intro chunk split fewer
      have whole := fits
      rw [split] at whole
      rw [split, take_append whole]
      rw [List.length_append] at whole
      apply Contract.Tries.bind
      apply check_tries
      apply Contract.Tries.bind
      apply tries_ofExcept
      · intro next taken
        have received := take_received (by omega) taken
        rw [taken]
        exact ih fewer (by omega)
      · intro failure failed
        rw [failed]
        rfl
    cases answer with
    | cancelled | late => cases step
    | ready answer =>
      cases answer with
      | error => cases step
      | ok next =>
        apply Contract.Tries.pure
        cases next with
        | none =>
          obtain ⟨none, rfl⟩ := step
          rw [none]
          exact Contract.Tries.pure (take_nil (by omega))
        | some chunk =>
          cases step with
          | inl brings =>
            obtain ⟨filled, split, same⟩ := brings
            have length := congrArg List.length split
            have some := List.length_pos_iff.mpr filled
            rw [List.length_append] at length
            exact taking split (by omega)
          | inr waits =>
            obtain ⟨rfl, same, fewer⟩ := waits
            exact taking (by rw [same, List.nil_append]) (by rw [same]; omega)

/-- What there is to return when the whole text is taken. -/
theorem respond_exchange {reply : Reply} (fits : (encode reply.text).length ≤ maxBody)
    (lossy : wire.lossy (encode reply.text) = reply.text)
    (parses : wire.parseSlice (encode reply.text) = wire.parse reply.text) :
    (do
      let reading ← take wire http reply.status ⟨0, [], {}⟩ (encode reply.text)
      respond wire http reply.status reading) = exchange wire.parse http.streams reply := by
  rw [take_fits (by simpa using fits), exchange]
  by_cases success : isSuccess reply.status = true
  · by_cases streams : http.streams = true
    · simp only [respond, success, streams, Bool.and_self, ↓reduceIte, decode,
        Decoder.pushes_flatten, List.flatten_singleton]
      cases Decoder.push wire.parse {} (encode reply.text) with
      | error => rfl
      | ok decoder => rfl
    · simp only [respond, success, streams, Bool.false_and, Bool.false_eq_true, ↓reduceIte]
      rw [← parses]
      rfl
  · simp only [respond, success, Bool.and_false, Bool.false_eq_true, ↓reduceIte]
    rw [← congrArg excerpt lossy]
    rfl

/-- `reqwestPost` returns the exchange. -/
theorem reqwestPost_tries {reply : Reply} {pauses : Nat}
    (accepted : checkRequest rules http = .ok ())
    (lossy : wire.lossy (encode reply.text) = reply.text)
    (parses : wire.parseSlice (encode reply.text) = wire.parse reply.text)
    (fits : (encode reply.text).length ≤ maxBody)
    (enough : (encode reply.text).length + pauses < turns) :
    (quiet reply.status).Tries (reqwestPost wire rules turns http)
      (fun response _ => exchange wire.parse http.streams reply = .ok response)
      (fun failure _ => exchange wire.parse http.streams reply = .error failure)
      ⟨encode reply.text, pauses⟩ := by
  have responded := @respond_exchange wire http reply fits lossy parses
  rw [reqwestPost]
  apply Contract.Tries.bind
  apply check_tries
  apply Contract.Tries.bind
  apply Contract.Tries.request (by rintro ⟨⟩)
  rintro runtime _ ⟨rfl, rfl⟩
  apply Contract.Tries.bind
  apply tries_ensure _ (fun other => absurd rfl other)
  intro _
  apply Contract.Tries.bind
  apply Contract.Tries.request (by rintro ⟨⟩)
  rintro fitting _ ⟨rfl, rfl⟩
  apply Contract.Tries.bind
  apply tries_ensure _ (fun other => absurd rfl other)
  intro _
  apply Contract.Tries.bind
  apply Contract.Tries.outcome
  -- Whatever is sent, nobody cancels behind it.
  have returned : ∀ {result : Except TransportError HttpResponse} {transit : Transit},
      exchange wire.parse http.streams reply = result →
      (quiet reply.status).Tries
        (do
          check
          Executor.ofExcept result)
        (fun response _ => exchange wire.parse http.streams reply = .ok response)
        (fun failure _ => exchange wire.parse http.streams reply = .error failure) transit := by
    intro result transit same
    apply Contract.Tries.bind
    apply check_tries
    apply tries_ofExcept
    · rintro response rfl
      exact same
    · rintro failure rfl
      exact same
  rw [send, accepted]
  apply Contract.Tries.bind
  apply Contract.Tries.pure
  apply Contract.Tries.bind
  apply Contract.Tries.request (by rintro ⟨⟩)
  intro answer transit step
  apply Contract.Tries.bind
  cases answer with
  | cancelled | late => cases step
  | ready answer =>
    cases answer with
    | error => cases step
    | ok head =>
      obtain ⟨status, length, rfl⟩ := step
      apply Contract.Tries.pure
      apply Contract.Tries.bind
      have announced : head.contentLength.all (· ≤ maxBody) = true := by
        cases told : head.contentLength with
        | none => rfl
        | some size =>
          rw [told] at length
          have same : size = (encode reply.text).length := by simpa using length
          simpa [same] using fits
      apply tries_ensure _ (fun large => absurd announced large)
      intro _
      have whole : (⟨0, [], {}⟩ : Reading).received + (encode reply.text).length ≤ maxBody := by
        simpa using fits
      rw [status]
      apply Contract.Tries.bind
      apply Contract.Tries.mono (chunks_tries enough whole)
      · intro reading transit taken
        rw [show take wire http reply.status _ (encode reply.text) = _ from taken] at responded
        apply Contract.Tries.bind
        apply check_tries
        apply tries_ofExcept
        · intro response done
          exact returned (responded.symm.trans done)
        · intro failure done
          exact returned (responded.symm.trans done)
      · intro failure transit failed
        rw [show take wire http reply.status _ (encode reply.text) = _ from failed] at responded
        exact returned responded.symm

end Client

/-! ## Both transports -/

/-- Curl decodes the text of an error. -/
theorem curlExchange_eq {parse : Parser} {streams : Bool} {reply : Reply} :
    curlExchange parse streams reply = exchange parse streams reply ↔
      (streams = true → isSuccess reply.status = false →
        ∃ decoder, Decoder.push parse {} (encode reply.text ++ [newline]) = .ok decoder) := by
  rw [curlExchange]
  cases streams with
  | false => simp
  | true =>
    have decoded := finish_text parse reply.text
    cases pushed : Decoder.push parse {} (encode reply.text ++ [newline]) with
    | ok decoder => simp [discard]; rfl
    | error failure =>
      rw [pushed] at decoded
      cases success : isSuccess reply.status with
      | true =>
        rw [exchange, if_pos success, if_pos rfl, ← decoded]
        simp [discard]; rfl
      | false =>
        rw [exchange, success]
        obtain ⟨message, rfl⟩ := Decoder.push_protocol _ _ _ pushed
        constructor
        · rintro ⟨⟩
        · intro takes
          obtain ⟨decoder, none⟩ := takes rfl rfl
          cases none

section Agree

variable {wire : Wire} {rules : ClientRules} {http : HttpRequest} {turnId : String} {reply : Reply}
variable {metrics : Metrics} {turns pauses : Nat}

/-- A request that both transports send, and an answer that both of them can take in. -/
structure Exchanges (wire : Wire) (rules : ClientRules) (http : HttpRequest) (turnId : String)
    (reply : Reply) (metrics : Metrics) (turns pauses : Nat) : Prop where
  configured : ∃ config, curlConfig wire.serialize turnId http = .ok config
  accepted : Client.checkRequest rules http = .ok ()
  clean : '\n' ∉ turnId.toList
  shown : metrics.Printed
  status : metrics.status = reply.status
  short : (encode (printed turnId "" metrics)).length ≤ maxFrame
  fits : (encode (printed turnId reply.text metrics)).length ≤ maxBody
  /-- The loops are run until there is no more to wait for. -/
  enough : (encode (printed turnId reply.text metrics)).length + pauses < turns
  /-- Bytes that are the ones of a text are read as that text. -/
  lossy : wire.lossy (encode reply.text) = reply.text
  parses : wire.parseSlice (encode reply.text) = wire.parse reply.text

end Agree

namespace Sample

def wire : Wire where
  serialize := Value.text
  parse := reading
  parseSlice bytes := (Text.decode bytes).elim (.error "invalid unicode code point") reading
  lossy bytes := (Text.decode bytes).getD ""

def rules : ClientRules where
  url _ := some ⟨"https", "", none⟩
  headerName _ := true
  headerValue _ := true

def streamed : HttpRequest where
  url := "https://a"
  headers := ∅
  body := .object [("stream", .bool true)]
  timeoutSeconds := 10

def metrics : Metrics := ⟨503, "0.1", "0.2", "0.3", "0.4"⟩

theorem busy_exchanges :
    Exchanges wire rules streamed "turn_1_2_3" ⟨503, "busy"⟩ metrics 100 20 where
  configured := by
    have lines := curlConfig_cases wire.serialize "turn_1_2_3" streamed
    cases made : curlConfig wire.serialize "turn_1_2_3" streamed with
    | ok config => exact ⟨config, rfl⟩
    | error failure =>
      rw [made] at lines
      have plain : ¬ ((streamed.url.startsWith "https://" ||
            streamed.url.startsWith "http://") = false ∨
          ∃ header ∈ streamed.headers.toList,
            breaksLine header.1 = true ∨ breaksLine header.2 = true) := by
        decide +kernel
      exact absurd lines plain
  accepted := rfl
  clean := by decide
  shown := ⟨by decide, by decide, by decide, by decide, by decide⟩
  status := rfl
  short := by decide
  fits := by decide
  enough := by decide
  lossy := by simp [wire]
  parses := by simp [wire]

end Sample

end Nausicaa.Openai
