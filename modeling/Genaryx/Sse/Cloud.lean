import Genaryx.Base.Transition
import Genaryx.Ingest.FileTail
import Genaryx.Sse.Decoder

/-!
# The connection to the Cloud stream

A worker thread connects, decodes and reconnects, and hands every record over a channel to
the handle that polls it. Each connection has a decoder of its own; what goes on from one to
the next is the number of attempts without an event and the id to resume after.

## Implementation notes

The HTTP client is a parameter: which url and bearer token make a request, and which texts
are legal in a header. The worker takes one step at a time, so the handle can poll, signal a
stop or be dropped between any two of them. The counter of attempts wraps, as it does in a
release build. `failures`, `decoded`, `forwarded`, `delivered` and `log` are history
variables.
-/

namespace Genaryx.Sse

open Base Ingest

/-- `Duration`: seconds in 64 bits and nanoseconds below one second. -/
structure Duration where
  nanos : Nat
  fits : nanos < 2 ^ 64 * 1000000000
  deriving DecidableEq

namespace Duration

def zero : Duration := ⟨0, by decide⟩

/-- `Duration::MAX`. -/
def largest : Duration := ⟨2 ^ 64 * 1000000000 - 1, by decide⟩

/-- `Duration::saturating_mul`. -/
def saturatingMul (d : Duration) (k : Nat) : Duration :=
  if h : d.nanos * k < 2 ^ 64 * 1000000000 then ⟨d.nanos * k, h⟩ else largest

/-- `Ord::min`. -/
def min (a b : Duration) : Duration := if a.nanos ≤ b.nanos then a else b

end Duration

structure CloudSseConfig where
  url : Text
  bearerToken : Text
  initialBackoff : Duration
  maxBackoff : Duration
  maxAttempts : Option UInt32

/-- How long to wait before the attempt of this number. -/
def backoffDelay (config : CloudSseConfig) (attempt : UInt32) : Duration :=
  if attempt = 0 then .zero
  else
    let shift := Nat.min (attempt.toNat - 1) 31
    let multiplier := 2 ^ shift
    (config.initialBackoff.saturatingMul multiplier).min config.maxBackoff

/-- The HTTP client: which url and bearer token it can send to and with, and which texts it
takes as the value of a header. -/
structure HttpClient where
  accepts : Text → Text → Bool
  legal : Text → Bool

/-- A request for the stream. `headers` has those whose values are not the same in every request. -/
structure CloudRequest where
  url : Text
  bearerToken : Text
  headers : List (Text × Text)

/-- The request of an attempt names the id to resume after, if there is one. -/
def CloudSseConfig.request (config : CloudSseConfig) (lastEventId : Option Text) :
    CloudRequest where
  url := config.url
  bearerToken := config.bearerToken
  headers := (lastEventId.map fun id => ("Last-Event-ID".toList, id)).toList

/-- A request goes out. -/
def HttpClient.sends (H : HttpClient) (request : CloudRequest) : Bool :=
  H.accepts request.url request.bearerToken && request.headers.all fun header => H.legal header.2

/-- The record of an event: there is no file behind it. -/
def SseEvent.record (e : SseEvent) : RawRecord := ⟨e.data, none, none⟩

/-- Why the worker ended. -/
inductive Ending
  | stopped
  | receiverGone
  | gaveUp

/-- Where the worker is. -/
inductive Phase
  | top
  | waiting (delay : Duration)
  | ready (waited : Duration)
  | connecting
  | streaming (decoder : SseDecoder) (gotEvent : Bool) (newestId : Option Text)
      (todo : List SseEvent)
  | ended (why : Ending)

/-- One attempt to connect: how long the worker waited for it, its request, and whether this goes
out. `failures` attempts in a row had ended without an event, and the events `before` had been
forwarded. -/
structure Attempt where
  waited : Duration
  request : CloudRequest
  wellFormed : Bool
  failures : Nat
  before : List SseEvent

structure CloudSse where
  phase : Phase := .top
  attempt : UInt32 := 0
  lastEventId : Option Text := none
  stop : Bool := false
  receiver : Bool := true
  events : List RawRecord := []
  out : List RawRecord := []
  failures : Nat := 0
  decoded : List SseEvent := []
  forwarded : List SseEvent := []
  delivered : List RawRecord := []
  endReported : Bool := false
  log : List Attempt := []

/-- One thing that happens: the handle signals a stop, goes away or takes the next step of a
poll, or the worker takes its next step. -/
inductive CloudAction
  | signalStop
  | dropReceiver
  | tryRecv
  | loop
  | elapsed
  | stopSeen
  | connect
  | sendFailed
  | responded (status : UInt16)
  | read (chunk : Bytes)
  | forward
  | bodyEnded

namespace CloudSse

variable (H : HttpClient) (config : CloudSseConfig)

/-- One step of the loop in `poll`: at the end of what is there it returns what it took, and
reports the end of the worker when it took nothing. -/
def tryRecv (s : CloudSse) : CloudSse :=
  match s.events with
  | record :: rest => { s with events := rest, out := s.out ++ [record] }
  | [] =>
      match s.phase with
      | .ended _ =>
          if s.out.isEmpty then { s with endReported := true }
          else { s with delivered := s.delivered ++ s.out, out := [] }
      | _ => { s with delivered := s.delivered ++ s.out, out := [] }

/-- The top of the loop, up to the wait. -/
def loop (s : CloudSse) : CloudSse :=
  if s.stop then { s with phase := .ended .stopped }
  else if config.maxAttempts.any (· ≤ s.attempt) then { s with phase := .ended .gaveUp }
  else if 0 < s.attempt then { s with phase := .waiting (backoffDelay config s.attempt) }
  else { s with phase := .ready .zero }

/-- The end of `wait_or_stop` where no stop signal woke it. -/
def elapsed (s : CloudSse) (delay : Duration) : CloudSse :=
  if delay = .zero ∧ s.stop then { s with phase := .ended .stopped }
  else { s with phase := .ready delay }

/-- Count the attempt and build its request. -/
def connect (s : CloudSse) (waited : Duration) : CloudSse :=
  { s with
    phase := .connecting
    attempt := s.attempt + 1
    log := s.log ++
      [⟨waited, config.request s.lastEventId, H.sends (config.request s.lastEventId), s.failures,
        s.forwarded⟩] }

/-- `ConnectOutcome::Disconnected` back in the loop. -/
def disconnected (s : CloudSse) (gotEvent : Bool) (newestId : Option Text) : CloudSse :=
  { s with
    phase := .top
    attempt := if gotEvent then 0 else s.attempt
    lastEventId := newestId.or s.lastEventId
    failures := if gotEvent then 0 else s.failures + 1 }

/-- `StatusCode::is_success`. -/
def isSuccess (status : UInt16) : Bool := 200 ≤ status && status < 300

/-- Send the next decoded event to the handle. -/
def forward (s : CloudSse) (decoder : SseDecoder) (newestId : Option Text) (e : SseEvent)
    (todo : List SseEvent) : CloudSse :=
  if s.receiver then
    { s with
      phase := .streaming decoder true (e.id.or newestId) todo
      events := s.events ++ [e.record]
      forwarded := s.forwarded ++ [e] }
  else { s with phase := .ended .receiverGone }

def step (s : CloudSse) : CloudAction → Option CloudSse
  | .signalStop => some { s with stop := true }
  -- the handle signals a stop before its receiver goes
  | .dropReceiver => if s.stop then some { s with receiver := false } else none
  | .tryRecv => if s.receiver then some s.tryRecv else none
  | .loop =>
      match s.phase with
      | .top => some (s.loop config)
      | _ => none
  | .elapsed =>
      match s.phase with
      | .waiting delay => some (s.elapsed delay)
      | _ => none
  | .stopSeen =>
      match s.phase with
      | .waiting delay =>
          if s.stop ∧ delay ≠ .zero then some { s with phase := .ended .stopped } else none
      | .connecting => if s.stop then some { s with phase := .ended .stopped } else none
      | .streaming _ _ _ [] => if s.stop then some { s with phase := .ended .stopped } else none
      | _ => none
  | .connect =>
      match s.phase with
      | .ready waited => some (s.connect H config waited)
      | _ => none
  | .sendFailed =>
      match s.phase with
      | .connecting => some (s.disconnected false none)
      | _ => none
  | .responded status =>
      match s.phase with
      | .connecting =>
          if H.sends (config.request s.lastEventId) then
            if isSuccess status then
              some { s with phase := .streaming {} false s.lastEventId [] }
            else some (s.disconnected false none)
          else none
      | _ => none
  | .read chunk =>
      match s.phase with
      | .streaming decoder gotEvent newestId [] =>
          let fed := decoder.feed chunk
          some { s with
            phase := .streaming fed.2 gotEvent newestId fed.1
            decoded := s.decoded ++ fed.1 }
      | _ => none
  | .forward =>
      match s.phase with
      | .streaming decoder _ newestId (e :: todo) => some (s.forward decoder newestId e todo)
      | _ => none
  | .bodyEnded =>
      match s.phase with
      | .streaming _ gotEvent newestId [] => some (s.disconnected gotEvent newestId)
      | _ => none

end CloudSse

end Genaryx.Sse
