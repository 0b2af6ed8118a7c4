import Mathlib
import EventusSdk.Stores

/-!
# The stream sources

`SSESource` and `WSSource` run one loop: read the cursor, connect behind it, feed every event the connection yields,
advance the cursor after a feed that did not end `ERRORED`, and, when the connection has ended, sleep and start again.
`StreamSource` is that loop, with what the two do differently as its fields.  A step of it is what happens between two
points at which it waits; what it waits for is in the label.
-/

namespace EventusSdk

/-! ### What a connection asks for -/

inductive StreamRequest where
  | sse (path : String) (headers params : List (String × String))
  | ws (url subscriptionId token : String) (lastSeq : Int)

def streamTokenHeader : String := "X-Stream-Token"

def lastEventIdHeader : String := "Last-Event-ID"

/-- The `seq` behind which the server starts. -/
def StreamRequest.resumeSeq : StreamRequest → Int
  | .sse _ headers _ => ((headers.lookup lastEventIdHeader).bind String.toInt?).getD 0
  | .ws _ _ _ lastSeq => lastSeq

/-- `SSEConfig` and `WSConfig`, which differ in the default of `path`. -/
structure StreamConfig where
  path : String
  minBackoff : ℚ := 1
  maxBackoff : ℚ := 30

/-- `_JITTER_FRACTION`. -/
def jitterFraction : ℚ := 1 / 4

/-- `jitter` is a value of `random.uniform(0, backoff * _JITTER_FRACTION)`. -/
def JitterOf (backoff jitter : ℚ) : Prop :=
  min 0 (backoff * jitterFraction) ≤ jitter ∧ jitter ≤ max 0 (backoff * jitterFraction)

/-- Jitter adds at most a quarter. -/
theorem JitterOf.bounds {backoff jitter : ℚ} (hb : 0 ≤ backoff) (hj : JitterOf backoff jitter) :
    backoff ≤ backoff + jitter ∧ backoff + jitter ≤ 5 / 4 * backoff := by
  have hq : 0 ≤ backoff * jitterFraction := mul_nonneg hb (by norm_num [jitterFraction])
  have h0 : 0 ≤ jitter := by
    have := hj.1
    rwa [min_eq_left hq] at this
  have h1 : jitter ≤ backoff * jitterFraction := by
    have := hj.2
    rwa [max_eq_right hq] at this
  rw [jitterFraction] at h1
  constructor <;> linarith

theorem jitterOf_zero (backoff : ℚ) : JitterOf backoff 0 := ⟨min_le_left .., le_max_left ..⟩

/-! ### The loop -/

/-- What `SSESource` and `WSSource` differ in: `reconnects` tells the exceptions after which they connect again,
`refuses` whether the client makes no connection once the source is closed. -/
structure StreamSource where
  account : AccountContext
  transport : TransportKind
  config : StreamConfig
  request : Int → StreamRequest
  reconnects : Exn → Bool
  refuses : Bool
  resumeSeq_request : ∀ lastSeq, (request lastSeq).resumeSeq = lastSeq

/-- Where the loop waits: for `run` to be called, for the cursor, for the connection, for the next event, for the
dispatcher, for the cursor store, or for a sleep to be over. -/
inductive StreamPc where
  | idle
  | resuming
  | connecting (request : StreamRequest)
  | reading
  | feeding (event : ClientEvent)
  | advancing (event : ClientEvent)
  | sleeping (duration : ℚ)
  | ended (res : Except Exn Unit)

structure StreamState where
  pc : StreamPc := .idle
  backoff : ℚ := 0
  closed : Bool := false

/-- What happens: `run` is called, an await comes back, `aclose` is called.  A connection ends by itself or by an
exception; the `jitter` is that of the sleep which follows. -/
inductive StreamLabel where
  | run
  | resumed (lastSeq : Int)
  | connected
  | yielded (event : ClientEvent)
  | disconnected (exc : Option Exn) (jitter : ℚ)
  | fed (x : Except Exn DispatchResult)
  | advanced (x : Except Exn Unit)
  | woken (x : Except Exn Unit)
  | aclose

/-- No `run` is under way. -/
def StreamPc.Off : StreamPc → Prop
  | .idle | .ended _ => True
  | _ => False

/-- The connection is being made or is there, and its next event has not come yet. -/
def StreamPc.Attempting : StreamPc → Prop
  | .resuming | .connecting _ | .reading => True
  | _ => False

/-- The test of `while not self._closed`. -/
def StreamState.loop (s : StreamState) : StreamState :=
  { s with pc := if s.closed then .ended (.ok ()) else .resuming }

/-- The end of a connection: return if the source is closed, else sleep. -/
def StreamState.pause (s : StreamState) (jitter : ℚ) : StreamState :=
  { s with pc := if s.closed then .ended (.ok ()) else .sleeping (s.backoff + jitter) }

/-- A feed has come back: an `ERRORED` event leaves the cursor alone. -/
def StreamPc.settled (event : ClientEvent) (result : DispatchResult) : StreamPc :=
  if result.outcome = .errored then .reading else .advancing event

inductive StreamSource.Step (src : StreamSource) : StreamState → StreamLabel → StreamState → Prop where
  | run {s : StreamState} (h : s.pc.Off) :
      Step src s .run ({ s with backoff := src.config.minBackoff } : StreamState).loop
  | resumed {s : StreamState} (lastSeq : Int) (h : s.pc = .resuming) (hr : (s.closed && src.refuses) = false) :
      Step src s (.resumed lastSeq) { s with pc := .connecting (src.request lastSeq) }
  -- `aclose` has closed the HTTP client while the cursor was read
  | refused {s : StreamState} (lastSeq : Int) (h : s.pc = .resuming) (hr : (s.closed && src.refuses) = true) :
      Step src s (.resumed lastSeq) { s with pc := .ended (.error (.other "RuntimeError")) }
  | connected {s : StreamState} {request : StreamRequest} (h : s.pc = .connecting request) :
      Step src s .connected { s with pc := .reading }
  -- it is an event, not the connection, that resets the backoff
  | yielded {s : StreamState} (event : ClientEvent) (h : s.pc = .reading) :
      Step src s (.yielded event) { s with pc := .feeding event, backoff := src.config.minBackoff }
  | finished {s : StreamState} {jitter : ℚ} (h : s.pc = .reading) (hj : JitterOf s.backoff jitter) :
      Step src s (.disconnected none jitter) (s.pause jitter)
  | lost {s : StreamState} {e : Exn} {jitter : ℚ} (h : s.pc.Attempting) (he : src.reconnects e = true)
      (hj : JitterOf s.backoff jitter) : Step src s (.disconnected (some e) jitter) (s.pause jitter)
  | failed {s : StreamState} {e : Exn} {jitter : ℚ} (h : s.pc.Attempting) (he : src.reconnects e = false) :
      Step src s (.disconnected (some e) jitter) { s with pc := .ended (.error e) }
  -- the source does not look at `_closed` between a feed and the next event
  | fed {s : StreamState} {event : ClientEvent} (result : DispatchResult) (h : s.pc = .feeding event) :
      Step src s (.fed (.ok result)) { s with pc := .settled event result }
  | feedRaises {s : StreamState} {event : ClientEvent} (e : Exn) (h : s.pc = .feeding event) :
      Step src s (.fed (.error e)) { s with pc := .ended (.error e) }
  | advanced {s : StreamState} {event : ClientEvent} (h : s.pc = .advancing event) :
      Step src s (.advanced (.ok ())) { s with pc := .reading }
  | advanceRaises {s : StreamState} {event : ClientEvent} (e : Exn) (h : s.pc = .advancing event) :
      Step src s (.advanced (.error e)) { s with pc := .ended (.error e) }
  | woken {s : StreamState} {duration : ℚ} (h : s.pc = .sleeping duration) :
      Step src s (.woken (.ok ()))
        ({ s with backoff := min (s.backoff * 2) src.config.maxBackoff } : StreamState).loop
  | sleepRaises {s : StreamState} {duration : ℚ} (e : Exn) (h : s.pc = .sleeping duration) :
      Step src s (.woken (.error e)) { s with pc := .ended (.error e) }
  | aclose (s : StreamState) : Step src s .aclose { s with closed := true }

theorem StreamState.loop_pc (s : StreamState) : s.loop.pc = .ended (.ok ()) ∨ s.loop.pc = .resuming := by
  unfold StreamState.loop
  cases s.closed with
  | true => exact Or.inl rfl
  | false => exact Or.inr rfl

theorem StreamState.pause_pc (s : StreamState) (jitter : ℚ) :
    (s.pause jitter).pc = .ended (.ok ()) ∨ ∃ duration, (s.pause jitter).pc = .sleeping duration := by
  unfold StreamState.pause
  cases s.closed with
  | true => exact Or.inl rfl
  | false => exact Or.inr ⟨_, rfl⟩

theorem StreamState.loop_returned {s : StreamState} (h : s.loop.pc = .ended (.ok ())) : s.closed = true := by
  cases hc : s.closed with
  | true => rfl
  | false =>
    rw [loop, hc] at h
    cases h

private theorem StreamState.pause_returned {s : StreamState} {jitter : ℚ} (h : (s.pause jitter).pc = .ended (.ok ())) :
    s.closed = true := by
  cases hc : s.closed with
  | true => rfl
  | false =>
    rw [pause, hc] at h
    cases h

/-- A request is being answered by the server, or an event by the dispatcher. -/
def StreamPc.Busy : StreamPc → Prop
  | .connecting _ | .feeding _ => True
  | _ => False

theorem StreamPc.ne_connecting {pc : StreamPc} (h : ¬ pc.Busy) (request : StreamRequest) :
    pc ≠ .connecting request := by
  rintro rfl
  exact h trivial

theorem StreamPc.ne_feeding {pc : StreamPc} (h : ¬ pc.Busy) (event : ClientEvent) : pc ≠ .feeding event := by
  rintro rfl
  exact h trivial

namespace StreamSource

variable {src : StreamSource} {s t : StreamState}

theorem Step.run_pc (h : src.Step s .run t) : ¬ s.pc.Busy ∧ ¬ t.pc.Busy := by
  cases h with
  | run h =>
    constructor
    · intro hb
      cases hpc : s.pc <;> simp_all [StreamPc.Busy, StreamPc.Off]
    · rcases StreamState.loop_pc { s with backoff := src.config.minBackoff } with h | h <;> rw [h] <;> exact id

theorem Step.woken_pc {x : Except Exn Unit} (h : src.Step s (.woken x) t) : ¬ s.pc.Busy ∧ ¬ t.pc.Busy := by
  cases h with
  | woken h =>
    refine ⟨by rw [h]; exact id, ?_⟩
    rcases StreamState.loop_pc { s with backoff := min (s.backoff * 2) src.config.maxBackoff } with h | h <;>
      rw [h] <;> exact id
  | sleepRaises e h => exact ⟨by rw [h]; exact id, id⟩

theorem Step.disconnected_pc {exc : Option Exn} {jitter : ℚ} (h : src.Step s (.disconnected exc jitter) t) :
    ¬ t.pc.Busy := by
  have hpause : ¬ (s.pause jitter).pc.Busy := by
    rcases s.pause_pc jitter with h | ⟨_, h⟩ <;> rw [h] <;> exact id
  cases h with
  | finished => exact hpause
  | lost => exact hpause
  | failed => exact id

theorem Step.feedRaises_pc {e : Exn} (h : src.Step s (.fed (.error e)) t) : ¬ t.pc.Busy := by
  cases h with
  | feedRaises e h => exact id

theorem Step.pc_ne_idle {l : StreamLabel} (h : src.Step s l t) (hl : l ≠ .aclose) : t.pc ≠ .idle := by
  cases h with
  | run =>
    rcases StreamState.loop_pc { s with backoff := src.config.minBackoff } with h | h <;> rw [h] <;> simp
  | woken =>
    rcases StreamState.loop_pc { s with backoff := min (s.backoff * 2) src.config.maxBackoff } with h | h <;>
      rw [h] <;> simp
  | finished | lost =>
    rcases s.pause_pc _ with h | ⟨_, h⟩ <;> rw [h] <;> simp
  | @fed event result =>
    show StreamPc.settled event result ≠ .idle
    unfold StreamPc.settled
    split <;> simp
  | aclose => exact absurd rfl hl
  | _ => simp

/-- `run` returns only once the source is closed. -/
theorem Step.returned {l : StreamLabel} (h : src.Step s l t) (hpc : t.pc = .ended (.ok ())) : t.closed = true := by
  cases h with
  | run => exact StreamState.loop_returned hpc
  | woken => exact StreamState.loop_returned hpc
  | finished => exact StreamState.pause_returned hpc
  | lost => exact StreamState.pause_returned hpc
  | @fed event result =>
    have hpc' : StreamPc.settled event result = .ended (.ok ()) := hpc
    unfold StreamPc.settled at hpc'
    split at hpc' <;> cases hpc'
  | aclose => rfl
  | _ => cases hpc

end StreamSource

/-! ### The two sources -/

structure SSESource where
  account : AccountContext
  config : StreamConfig := { path := "/streams/sse" }

structure WSSource where
  account : AccountContext
  baseUrl : String
  config : StreamConfig := { path := "/streams/ws" }

def SSESource.headers (s : SSESource) (lastSeq : Int) : List (String × String) :=
  (streamTokenHeader, s.account.streamToken.getD "") ::
    if lastSeq ≠ 0 then [(lastEventIdHeader, toString lastSeq)] else []

def SSESource.source (s : SSESource) : StreamSource where
  account := s.account
  transport := .sse
  config := s.config
  request := fun lastSeq => .sse s.config.path (s.headers lastSeq) [("subscription_id", s.account.subscriptionId)]
  reconnects := fun e => e = .httpError || e = .sseProtocolError
  refuses := true
  resumeSeq_request := by
    intro lastSeq
    by_cases h : lastSeq = 0
    · simp [StreamRequest.resumeSeq, SSESource.headers, h, lastEventIdHeader, streamTokenHeader]
    · have hlookup : (s.headers lastSeq).lookup lastEventIdHeader = some (toString lastSeq) := by
        rw [SSESource.headers, if_pos h]
        rfl
      have hint : (toString lastSeq).toInt? = some lastSeq := Int.toInt?_repr lastSeq
      rw [StreamRequest.resumeSeq, hlookup, Option.bind_some, hint, Option.getD_some]

/-- `base_url.rstrip("/")`. -/
def WSSource.base (s : WSSource) : String :=
  String.ofList (s.baseUrl.toList.reverse.dropWhile (· = '/')).reverse

def WSSource.source (s : WSSource) : StreamSource where
  account := s.account
  transport := .ws
  config := s.config
  request := fun lastSeq =>
    .ws (s.base ++ s.config.path) s.account.subscriptionId (s.account.streamToken.getD "") lastSeq
  reconnects := fun e => e = .webSocketException || e = .osError || e = .wsProtocolError
  refuses := false
  resumeSeq_request := fun _ => rfl

end EventusSdk
