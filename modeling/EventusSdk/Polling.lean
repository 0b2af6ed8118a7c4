import EventusSdk.Events

/-!
# The polling source

`PollingSource.run`: fetch a batch, feed its items, confirm the batch if none of them ended `ERRORED`, sleep if the
queue was drained, and start again.  As for the stream sources, a step is what happens between two points at which the
source waits.
-/

namespace EventusSdk

inductive ConfirmMode where
  | auto
  | manual
deriving DecidableEq

structure PollingConfig where
  interval : ℚ := 5
  emptyBackoffMax : ℚ := 60
  limit : Int := 100
  confirm : ConfirmMode := .auto
  eventType : Option (List String) := none

structure PendingEvent where
  seq : Int
  eventType : String
  data : EventData

structure PendingBatch where
  subscriptionId : String
  items : List PendingEvent
  nextSeq : Int
  lastReadSeq : Int
  drained : Bool
  committed : Bool

def ClientEvent.fromPending (item : PendingEvent) (transport : TransportKind) : ClientEvent :=
  { seq := item.seq, eventType := item.eventType, data := item.data, transport }

structure PollingSource where
  account : AccountContext
  config : PollingConfig := {}

/-- Where the source waits: for `run` to be called, for a batch, for the dispatcher, for the engine to confirm, or for
a sleep to be over.  While it feeds, it has the item at hand, the items left, and `all_ok`. -/
inductive PollingPc where
  | idle
  | polling
  | feeding (batch : PendingBatch) (item : PendingEvent) (rest : List PendingEvent) (allOk : Bool)
  | confirming (batch : PendingBatch)
  | sleeping (duration : ℚ)
  | ended (res : Except Exn Unit)

structure PollingState where
  pc : PollingPc := .idle
  sleepFor : ℚ := 0

inductive PollingLabel where
  | run
  | polled (x : Except Exn PendingBatch)
  | fed (event : ClientEvent) (x : Except Exn DispatchResult)
  | confirmed (x : Except Exn Int)
  | woken (x : Except Exn Unit)

/-- No `run` is under way. -/
def PollingPc.Off : PollingPc → Prop
  | .idle | .ended _ => True
  | _ => False

/-- The batch that is fed or confirmed. -/
def PollingPc.batch : PollingPc → Option PendingBatch
  | .feeding batch _ _ _ | .confirming batch => some batch
  | _ => none

namespace PollingSource

variable (src : PollingSource)

def nextSleep (current : ℚ) (batch : PendingBatch) : ℚ :=
  if batch.items.isEmpty then min (current * 2) src.config.emptyBackoffMax else src.config.interval

/-- The end of the loop's body. -/
def finish (s : PollingState) (batch : PendingBatch) : PollingState :=
  { pc := if batch.drained then .sleeping (src.nextSleep s.sleepFor batch) else .polling
    sleepFor := src.nextSleep s.sleepFor batch }

/-- The `for` loop over the items left, and what comes after it. -/
def feedItems (s : PollingState) (batch : PendingBatch) : List PendingEvent → Bool → PollingState
  | item :: rest, allOk => { s with pc := .feeding batch item rest allOk }
  | [], allOk =>
    -- a batch with an `ERRORED` item is left for the next poll
    if src.config.confirm = .auto && !batch.items.isEmpty && allOk then { s with pc := .confirming batch }
    else src.finish s batch

inductive Step : PollingState → PollingLabel → PollingState → Prop where
  | run {s : PollingState} (h : s.pc.Off) : Step s .run ⟨.polling, src.config.interval⟩
  | polled {s : PollingState} (batch : PendingBatch) (h : s.pc = .polling) :
      Step s (.polled (.ok batch)) (src.feedItems s batch batch.items true)
  | pollRaises {s : PollingState} (e : Exn) (h : s.pc = .polling) :
      Step s (.polled (.error e)) { s with pc := .ended (.error e) }
  | fed {s : PollingState} {batch : PendingBatch} {item : PendingEvent} {rest : List PendingEvent} {allOk : Bool}
      (result : DispatchResult) (h : s.pc = .feeding batch item rest allOk) :
      Step s (.fed (.fromPending item .polling) (.ok result))
        (src.feedItems s batch rest (if result.outcome = .errored then false else allOk))
  | feedRaises {s : PollingState} {batch : PendingBatch} {item : PendingEvent} {rest : List PendingEvent} {allOk : Bool}
      (e : Exn) (h : s.pc = .feeding batch item rest allOk) :
      Step s (.fed (.fromPending item .polling) (.error e)) { s with pc := .ended (.error e) }
  | confirmed {s : PollingState} {batch : PendingBatch} (lastSeq : Int) (h : s.pc = .confirming batch) :
      Step s (.confirmed (.ok lastSeq)) (src.finish s batch)
  | confirmRaises {s : PollingState} {batch : PendingBatch} (e : Exn) (h : s.pc = .confirming batch) :
      Step s (.confirmed (.error e)) { s with pc := .ended (.error e) }
  | woken {s : PollingState} {duration : ℚ} (h : s.pc = .sleeping duration) :
      Step s (.woken (.ok ())) { s with pc := .polling }
  | sleepRaises {s : PollingState} {duration : ℚ} (e : Exn) (h : s.pc = .sleeping duration) :
      Step s (.woken (.error e)) { s with pc := .ended (.error e) }

variable {src} {s : PollingState} {batch : PendingBatch}

theorem nextSleep_items {current : ℚ} (hi : batch.items ≠ []) : src.nextSleep current batch = src.config.interval := by
  rw [nextSleep, if_neg (by simpa using hi)]

theorem nextSleep_empty {current : ℚ} (hi : batch.items = []) :
    src.nextSleep current batch = min (current * 2) src.config.emptyBackoffMax := by
  rw [nextSleep, if_pos (by simpa using hi)]

/-- An empty batch is done with at once. -/
theorem feedItems_empty (h : batch.items = []) : src.feedItems s batch [] true = src.finish s batch := by
  simp [feedItems, h]

private theorem finish_batch : (src.finish s batch).pc.batch = none := by
  unfold finish
  cases batch.drained <;> rfl

/-- After an item the next one is fed; after the last one the batch is confirmed, or it is done with. -/
theorem feedItems_cases (src : PollingSource) (s : PollingState) (batch : PendingBatch) (rest : List PendingEvent)
    (allOk : Bool) :
    (∃ item rest', rest = item :: rest' ∧
      src.feedItems s batch rest allOk = { s with pc := .feeding batch item rest' allOk }) ∨
    (rest = [] ∧ allOk = true ∧ batch.items ≠ [] ∧
      src.feedItems s batch rest allOk = { s with pc := .confirming batch }) ∨
    (src.feedItems s batch rest allOk).pc.batch = none := by
  cases rest with
  | cons item rest => exact Or.inl ⟨item, rest, rfl, rfl⟩
  | nil =>
    rw [feedItems]
    split
    · next h =>
      simp only [Bool.and_eq_true, Bool.not_eq_true', List.isEmpty_eq_false_iff] at h
      exact Or.inr (Or.inl ⟨rfl, h.2, h.1.2, rfl⟩)
    · exact Or.inr (Or.inr finish_batch)

variable {t : PollingState}

private theorem finish_goes_on : (src.finish s batch).pc ≠ .idle ∧ (src.finish s batch).pc ≠ .ended (.ok ()) := by
  unfold finish
  cases batch.drained <;> simp

private theorem feedItems_goes_on {rest : List PendingEvent} {allOk : Bool} :
    (src.feedItems s batch rest allOk).pc ≠ .idle ∧ (src.feedItems s batch rest allOk).pc ≠ .ended (.ok ()) := by
  cases rest with
  | cons item rest => simp [feedItems]
  | nil =>
    rw [feedItems]
    split
    · simp
    · exact finish_goes_on

/-- Once called, `run` goes on for ever or raises. -/
theorem Step.goes_on {l : PollingLabel} (h : src.Step s l t) : t.pc ≠ .idle ∧ t.pc ≠ .ended (.ok ()) := by
  cases h with
  | polled | fed => exact feedItems_goes_on
  | confirmed => exact finish_goes_on
  | _ => simp

theorem Step.run_batch (h : src.Step s .run t) : t.pc.batch = none := by
  cases h; rfl

theorem Step.woken_batch {x : Except Exn Unit} (h : src.Step s (.woken x) t) : t.pc.batch = none := by
  cases h <;> rfl

theorem Step.pollRaises_batch {e : Exn} (h : src.Step s (.polled (.error e)) t) : t.pc.batch = none := by
  cases h; rfl

theorem Step.feedRaises_batch {event : ClientEvent} {e : Exn} (h : src.Step s (.fed event (.error e)) t) :
    t.pc.batch = none := by
  cases h; rfl

theorem Step.confirmed_batch {x : Except Exn Int} (h : src.Step s (.confirmed x) t) : t.pc.batch = none := by
  cases h with
  | confirmed => exact finish_batch
  | confirmRaises => rfl

end PollingSource

end EventusSdk
