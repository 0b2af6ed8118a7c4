import EventusSdk.Lib.Channel
import EventusSdk.Lib.Simulation
import EventusSdk.Resume

/-!
# A stream source, chunk by chunk

What comes on a connection are no events but chunks: lines, or frames.  The server writes the events of its log behind
the resume position, each as the framing says, and a connection may end after any chunk.

Seen from the dispatcher this is a source that reads events (`wireSimulation`): those that the server has written and
the source has not read to the end.  None is lost, made up or turned into an error on the way, and what is known of
cursors and failed events holds for a source that reads chunks.
-/

namespace EventusSdk

open Transition

/-! ### Chunks on a connection -/

/-- An open connection: where it started, and what came on it and is under way. -/
structure WireConnection (δ κ : Type) where
  resume : Int
  channel : Channel δ κ ClientEvent

/-- The same as a `ResumeState`, but for the connection. -/
structure WireState (δ κ : Type) where
  source : StreamState
  store : CursorStore
  clock : ℚ
  log : List ClientEvent
  conn : Option (WireConnection δ κ)
  sent : List Int
  failed : List Int
  settled : List Int

/-- A chunk is read that yields nothing, the server writes an event or what is between events, or the step is one of a
source that reads events. -/
inductive WireLabel (ι : Type) where
  | chunk
  | write (item : ι)
  | event (l : ResumeLabel)

def WireState.start {δ κ : Type} (log : List ClientEvent) (clock : ℚ) : WireState δ κ :=
  ⟨{}, MemoryStorage.empty, clock, log, none, [], [], []⟩

/-- A step that leaves the connection alone or ends it. -/
def WireState.update {δ κ : Type} (s : WireState δ κ) (r : ResumeState) : WireState δ κ :=
  ⟨r.source, r.store, r.clock, r.log, r.conn.bind fun _ => s.conn, r.sent, r.failed, r.settled⟩

/-- Nothing is connected, read or sent. -/
def ResumeLabel.Aside : ResumeLabel → Prop
  | .source .connected | .source (.yielded _) | .send _ => False
  | _ => True

section
variable {δ κ ι : Type} {decoder : Decoder δ κ Exn ClientEvent}

/-- The connection of a source that reads events. -/
def WireConnection.events (decoder : Decoder δ κ Exn ClientEvent) (conn : WireConnection δ κ) : Connection :=
  ⟨conn.resume, conn.channel.received, conn.channel.underway decoder⟩

def WireState.events (decoder : Decoder δ κ Exn ClientEvent) (s : WireState δ κ) : ResumeState :=
  ⟨s.source, s.store, s.clock, s.log, s.conn.map (WireConnection.events decoder), s.sent, s.failed, s.settled⟩

variable (framing : decoder.Framing ι)

inductive StreamSource.WireStep (src : StreamSource) : WireState δ κ → WireLabel ι → WireState δ κ → Prop where
  | connected {s : WireState δ κ} {t : StreamState} {request : StreamRequest} (hpc : s.source.pc = .connecting request)
      (h : src.Step s.source .connected t) :
      WireStep src s (.event (.source .connected))
        { s with source := t, conn := some ⟨request.resumeSeq, Channel.start decoder⟩ }
  | read {s : WireState δ κ} {conn : WireConnection δ κ} {x : κ} {rest : List κ} {state : δ}
      (hpc : s.source.pc = .reading) (hconn : s.conn = some conn) (hahead : conn.channel.ahead = x :: rest)
      (hread : decoder.read conn.channel.state x = .ok (none, state)) :
      WireStep src s .chunk { s with conn := some { conn with channel := conn.channel.read (none, state) rest } }
  | yielded {s : WireState δ κ} {t : StreamState} {conn : WireConnection δ κ} {x : κ} {rest : List κ} {state : δ}
      {event : ClientEvent} (hconn : s.conn = some conn) (hahead : conn.channel.ahead = x :: rest)
      (hread : decoder.read conn.channel.state x = .ok (some event, state))
      (h : src.Step s.source (.yielded event) t) :
      WireStep src s (.event (.source (.yielded event)))
        { s with source := t, conn := some { conn with channel := conn.channel.read (some event, state) rest } }
  | undecodable {s : WireState δ κ} {t : StreamState} {conn : WireConnection δ κ} {x : κ} {rest : List κ} {e : Exn}
      {jitter : ℚ} (hconn : s.conn = some conn) (hahead : conn.channel.ahead = x :: rest)
      (hread : decoder.read conn.channel.state x = .error e)
      (h : src.Step s.source (.disconnected (some e) jitter) t) :
      WireStep src s (.event (.source (.disconnected (some e) jitter))) { s with source := t, conn := none }
  | write {s : WireState δ κ} {conn : WireConnection δ κ} {item : ι} {xs : List κ} (hconn : s.conn = some conn)
      (hxs : framing.Writes item xs)
      (hnext : conn.channel.written ++ (framing.value item).toList <+:
        Log.behind ClientEvent.seq conn.resume s.log) :
      WireStep src s (.write item)
        { s with
          conn := some { conn with channel := conn.channel.write framing item xs }
          sent := (framing.value item).toList.map ClientEvent.seq ++ s.sent }
  | aside {s : WireState δ κ} {l : ResumeLabel} {r : ResumeState} (hl : l.Aside)
      (h : src.ResumeStep (s.events decoder) l r) : WireStep src s (.event l) (s.update r)

/-- What a step is to a source that reads events. -/
def WireLabel.seen : WireLabel ι → Option ResumeLabel
  | chunk => none
  | write item => (framing.value item).map .send
  | event l => some l

/-- What was written is the log behind the resume position, as far as it goes, and no more than that is read. -/
def WireState.Intact (decoder : Decoder δ κ Exn ClientEvent) (s : WireState δ κ) : Prop :=
  ∀ conn, s.conn = some conn →
    conn.channel.Intact decoder ∧ conn.channel.written <+: Log.behind ClientEvent.seq conn.resume s.log

end

/-! ### Steps -/

/-- What is aside leaves a connection as it is, or ends it; and the log grows at its end. -/
private theorem ResumeLabel.Aside.step {src : StreamSource} {l : ResumeLabel} {s r : ResumeState} (hl : l.Aside)
    (h : src.ResumeStep s l r) : (r.conn = s.conn ∨ r.conn = none) ∧ s.log <+: r.log := by
  cases h with
  | connected | yielded | send => exact hl.elim
  | disconnected | feedRaises => exact ⟨Or.inr rfl, List.prefix_rfl⟩
  | append => exact ⟨Or.inl rfl, List.prefix_append ..⟩
  | _ => exact ⟨Or.inl rfl, List.prefix_rfl⟩

section
variable {δ κ ι : Type} {decoder : Decoder δ κ Exn ClientEvent} {framing : decoder.Framing ι} {src : StreamSource}
  {s t : WireState δ κ} {l : WireLabel ι} {conn : WireConnection δ κ}

private theorem WireState.events_conn (hconn : s.conn = some conn) :
    (s.events decoder).conn = some (conn.events decoder) := by
  rw [events, hconn]
  rfl

private theorem WireState.update_conn {r : ResumeState} (h : r.conn = (s.events decoder).conn ∨ r.conn = none) :
    (s.update r).conn = s.conn ∨ (s.update r).conn = none := by
  unfold WireState.update
  rcases h with h | h <;> rw [h]
  · exact Or.inl (by cases hc : s.conn <;> simp [WireState.events, hc])
  · exact Or.inr rfl

private theorem WireState.update_events {r : ResumeState} (h : r.conn = (s.events decoder).conn ∨ r.conn = none) :
    (s.update r).events decoder = r := by
  obtain ⟨source, store, clock, log, conn, sent, failed, settled⟩ := r
  rcases h with h | h
  · obtain rfl : conn = s.conn.map (WireConnection.events decoder) := h
    cases hc : s.conn <;> simp [WireState.update, WireState.events, hc]
  · obtain rfl : conn = none := h
    rfl

private theorem StreamSource.WireStep.intact (h : s.Intact decoder) (hstep : src.WireStep framing s l t) :
    t.Intact decoder := by
  cases hstep with
  | connected =>
    rintro conn ⟨⟩
    exact ⟨Channel.intact_start, List.nil_prefix⟩
  | read _ hconn hahead hread | yielded hconn hahead hread =>
    obtain ⟨hchannel, hlog⟩ := h _ hconn
    rintro conn ⟨⟩
    exact ⟨hchannel.read hahead hread, hlog⟩
  | undecodable => rintro conn ⟨⟩
  | write hconn hxs hnext =>
    rintro conn ⟨⟩
    exact ⟨(h _ hconn).1.write hxs, hnext⟩
  | @aside l r hl hstep =>
    obtain ⟨hconn, new, hnew⟩ := hl.step hstep
    intro conn hc
    rcases WireState.update_conn hconn with h' | h'
    · obtain ⟨hchannel, hlog⟩ := h conn (h' ▸ hc)
      refine ⟨hchannel, hlog.trans ?_⟩
      show _ <+: Log.behind ClientEvent.seq conn.resume r.log
      rw [← hnew]
      exact Log.behind_prefix_append ..
    · rw [h'] at hc
      cases hc

/-- A step that reads no event and sends none. -/
private theorem StreamSource.WireStep.silent (h : s.Intact decoder) (hstep : src.WireStep framing s l t)
    (hl : l.seen framing = none) : t.events decoder = s.events decoder := by
  cases hstep with
  | @read conn x rest state hpc hconn hahead hread =>
    simp [WireState.events, WireConnection.events, hconn, Channel.underway_read hahead hread]
  | @write conn item xs hconn hxs hnext =>
    obtain ⟨hchannel, -⟩ := h conn hconn
    have hnone : framing.value item = none := Option.map_eq_none_iff.1 hl
    have hunderway := hchannel.underway_write hxs
    rw [hnone, Option.toList_none, List.append_nil] at hunderway
    simp [WireState.events, WireConnection.events, hconn, hunderway, hnone]
  | connected | yielded | undecodable | aside => cases hl

private theorem StreamSource.WireStep.simulates {l' : ResumeLabel} (h : s.Intact decoder)
    (hstep : src.WireStep framing s l t)
    (hl : l.seen framing = some l') : src.ResumeStep (s.events decoder) l' (t.events decoder) := by
  cases hstep with
  | connected hpc hstep =>
    cases hl
    exact .connected hpc hstep
  | read => cases hl
  | @yielded t conn x rest state event hconn hahead hread hstep =>
    cases hl
    have hconn' : (s.events decoder).conn = some ⟨conn.resume, conn.channel.received,
        event :: (conn.channel.read (some event, state) rest).underway decoder⟩ := by
      rw [WireState.events_conn hconn, WireConnection.events, Channel.underway_read hahead hread]
      rfl
    exact .yielded hconn' hstep
  | undecodable hconn hahead hread hstep =>
    cases hl
    exact .disconnected hstep
  | @write conn item xs hconn hxs hnext =>
    obtain ⟨hchannel, -⟩ := h conn hconn
    obtain ⟨event, hvalue, rfl⟩ := Option.map_eq_some_iff.1 hl
    have ht : WireState.events decoder { s with
        conn := some { conn with channel := conn.channel.write framing item xs }
        sent := (framing.value item).toList.map ClientEvent.seq ++ s.sent } =
        { s.events decoder with
          conn := some ⟨conn.resume, conn.channel.received, conn.channel.underway decoder ++ [event]⟩
          sent := event.seq :: s.sent } := by
      have hunderway := hchannel.underway_write hxs
      rw [hvalue] at hunderway
      simp [WireState.events, WireConnection.events, hunderway, hvalue]
    rw [ht]
    refine .send (WireState.events_conn hconn) ?_
    rw [hvalue] at hnext
    rw [hchannel.2]
    exact hnext
  | aside hl' hstep =>
    cases hl
    rw [WireState.update_events (hl'.step hstep).1]
    exact hstep

/-- The source that reads chunks is one that reads events. -/
def wireSimulation (src : StreamSource) (framing : decoder.Framing ι) :
    Simulation (src.WireStep framing) src.ResumeStep where
  Inv := WireState.Intact decoder
  state := WireState.events decoder
  label := fun _ => WireLabel.seen framing
  keeps := fun _ _ _ h hstep => hstep.intact h
  silent := fun _ _ _ h hstep => hstep.silent h
  simulates := fun _ _ _ _ h hstep => hstep.simulates h

end

/-! ### Runs -/

/-- Every chunk is read without an error, and what is fed comes from the log. -/
structure WireState.Faithful {δ κ : Type} (decoder : Decoder δ κ Exn ClientEvent) (s : WireState δ κ) : Prop where
  intact : s.Intact decoder
  reads : ∀ conn x rest, s.conn = some conn → conn.channel.ahead = x :: rest →
    ∃ r, decoder.read conn.channel.state x = .ok r
  fed : ∀ event, s.source.pc = .feeding event → event ∈ s.log

private theorem ResumeInv.fed_mem {src : StreamSource} {s : ResumeState} {c : Int} {event : ClientEvent}
    (h : ResumeInv src s c) (hpc : s.source.pc = .feeding event) : event ∈ s.log := by
  obtain ⟨conn, before, hconn, hreceived⟩ := h.feeding event hpc
  have hmem : event ∈ conn.received ++ conn.inFlight := List.mem_append_left _ (by simp [hreceived])
  exact (Log.mem_behind.1 ((h.conn conn hconn).served.subset hmem)).1

section
variable {δ κ ι : Type} {decoder : Decoder δ κ Exn ClientEvent} (framing : decoder.Framing ι) (src : StreamSource)
  {log : List ClientEvent} {clock : ℚ} {path : List (WireLabel ι × WireState δ κ)}
  (hlog : Log.Increasing ClientEvent.seq log) (hrun : Run (src.WireStep framing) (.start log clock) path)

private theorem wireIntact_start : (WireState.start log clock : WireState δ κ).Intact decoder := by
  rintro conn ⟨⟩

include hlog

private theorem wireInv_start : ResumeInv src ((WireState.start log clock : WireState δ κ).events decoder) 0 :=
  resumeInv_start hlog clock

include hrun

theorem wire_faithful : Always (WireState.Faithful decoder) (.start log clock) path := by
  have hstep : ∀ s l t, (s.Intact decoder ∧ ∃ c, ResumeInv src (s.events decoder) c) → src.WireStep framing s l t →
      t.Intact decoder ∧ ∃ c, ResumeInv src (t.events decoder) c := by
    rintro s l t ⟨hs, c, hc⟩ hstep
    refine ⟨hstep.intact hs, ?_⟩
    cases hl : l.seen framing with
    | none =>
      rw [hstep.silent hs hl]
      exact ⟨c, hc⟩
    | some l' => exact step_resumeInv hc (hstep.simulates hs hl)
  refine (hrun.always hstep ⟨wireIntact_start, 0, wireInv_start src hlog⟩).mono ?_
  exact fun s ⟨hs, c, hc⟩ => ⟨hs, fun conn _ _ hconn hahead => (hs conn hconn).1.reads hahead, fun _ => hc.fed_mem⟩

theorem wire_below_iff : Always (fun s => src.CursorBelowFailed (s.events decoder)) (.start log clock) path ↔
    Meets ((wireSimulation src framing).Cond NotOverFailed) (.start log clock) path := by
  have h0 : (wireSimulation src framing).Inv (.start log clock) := wireIntact_start
  have hstart : ResumeInv src ((wireSimulation src framing).state (.start log clock)) 0 := wireInv_start src hlog
  -- what the run is to a source that reads events
  obtain ⟨hrun', -⟩ := (wireSimulation src framing).run_path h0 hrun
  refine ((wireSimulation src framing).always_path h0 hrun).trans (Iff.trans ?_
    ((wireSimulation src framing).meets_path h0 hrun).symm)
  refine hrun'.always_iff_meets (fun s => ∃ c, ResumeInv src s c) (fun _ _ _ ⟨_, h⟩ _ hstep _ => step_resumeInv h hstep)
    (fun _ _ _ ⟨_, h⟩ hs hstep => step_below_iff h hs hstep) ⟨0, hstart⟩ ?_
  exact hstart.cursorBelowFailed_iff.2 (by simp [wireSimulation, WireState.events, WireState.start])

end

end EventusSdk
