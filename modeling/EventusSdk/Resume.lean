import EventusSdk.Dispatcher
import EventusSdk.Lib.Log
import EventusSdk.Lib.Transition
import EventusSdk.StreamSource

/-!
# Cursors and failed events

A stream source over a cursor store, against a server that sends on each connection the events of its log behind the
resume position, in increasing order.  The cursor is meant to stay below an event that has failed, so that it is sent
again.  It does so exactly as long as no event succeeds behind one that has failed: the cursor is moved to whatever
event succeeds, over the failed ones before it.
-/

namespace EventusSdk

/-! ### Source, store and server -/

/-- An open connection: where it started, what the source has read from it, and what is under way. -/
structure Connection where
  resume : Int
  received : List ClientEvent
  inFlight : List ClientEvent

/-- The last three components record the `seq` of what was sent, of what was fed and came back `ERRORED`, and of what
was fed and came back otherwise. -/
structure ResumeState where
  source : StreamState
  store : CursorStore
  clock : ℚ
  log : List ClientEvent
  conn : Option Connection
  sent : List Int
  failed : List Int
  settled : List Int

inductive ResumeLabel where
  | source (l : StreamLabel)
  | append (event : ClientEvent)
  | send (event : ClientEvent)
  | outside (op : StorageOp String Int)

/-- Nothing is read yet and the store is empty. -/
def ResumeState.start (log : List ClientEvent) (clock : ℚ) : ResumeState :=
  ⟨{}, MemoryStorage.empty, clock, log, none, [], [], []⟩

namespace StreamSource

variable (src : StreamSource)

abbrev cursorKey : String := CursorStore.key src.account.subscriptionId src.transport

/-- The cursor store does not let the source wait, so that a feed and the advance behind it are one step. -/
inductive ResumeStep : ResumeState → ResumeLabel → ResumeState → Prop where
  | resumed {s : ResumeState} {t : StreamState} {now : ℚ} (hnow : s.clock ≤ now)
      (h : src.Step s.source (.resumed (s.store.get src.account.subscriptionId src.transport now).1) t) :
      ResumeStep s (.source (.resumed (s.store.get src.account.subscriptionId src.transport now).1))
        { s with source := t, store := (s.store.get src.account.subscriptionId src.transport now).2, clock := now }
  | connected {s : ResumeState} {t : StreamState} {request : StreamRequest} (hpc : s.source.pc = .connecting request)
      (h : src.Step s.source .connected t) :
      ResumeStep s (.source .connected) { s with source := t, conn := some ⟨request.resumeSeq, [], []⟩ }
  | yielded {s : ResumeState} {t : StreamState} {resume : Int} {received rest : List ClientEvent} {event : ClientEvent}
      (hconn : s.conn = some ⟨resume, received, event :: rest⟩) (h : src.Step s.source (.yielded event) t) :
      ResumeStep s (.source (.yielded event)) { s with source := t, conn := some ⟨resume, received ++ [event], rest⟩ }
  | errored {s : ResumeState} {t : StreamState} {event : ClientEvent} {result : DispatchResult}
      (hpc : s.source.pc = .feeding event) (hres : result.outcome = .errored)
      (h : src.Step s.source (.fed (.ok result)) t) :
      ResumeStep s (.source (.fed (.ok result))) { s with source := t, failed := event.seq :: s.failed }
  | settled {s : ResumeState} {t u : StreamState} {event : ClientEvent} {result : DispatchResult} {r : Readings}
      (hpc : s.source.pc = .feeding event) (hres : result.outcome ≠ .errored) (hr : s.clock ≤ r.check)
      (h : src.Step s.source (.fed (.ok result)) t) (h' : src.Step t (.advanced (.ok ())) u) :
      ResumeStep s (.source (.fed (.ok result)))
        { s with
          source := u
          store := s.store.advance src.account.subscriptionId src.transport event.seq r
          clock := r.sweep
          settled := event.seq :: s.settled }
  | disconnected {s : ResumeState} {t : StreamState} {exc : Option Exn} {jitter : ℚ}
      (h : src.Step s.source (.disconnected exc jitter) t) :
      ResumeStep s (.source (.disconnected exc jitter)) { s with source := t, conn := none }
  | feedRaises {s : ResumeState} {t : StreamState} {e : Exn} (h : src.Step s.source (.fed (.error e)) t) :
      ResumeStep s (.source (.fed (.error e))) { s with source := t, conn := none }
  | run {s : ResumeState} {t : StreamState} (h : src.Step s.source .run t) :
      ResumeStep s (.source .run) { s with source := t }
  | woken {s : ResumeState} {t : StreamState} {x : Except Exn Unit} (h : src.Step s.source (.woken x) t) :
      ResumeStep s (.source (.woken x)) { s with source := t }
  | aclose {s : ResumeState} {t : StreamState} (h : src.Step s.source .aclose t) :
      ResumeStep s (.source .aclose) { s with source := t }
  | append {s : ResumeState} {event : ClientEvent} (h : ∀ x ∈ s.log, x.seq < event.seq) :
      ResumeStep s (.append event) { s with log := s.log ++ [event] }
  | send {s : ResumeState} {resume : Int} {received inFlight : List ClientEvent} {event : ClientEvent}
      (hconn : s.conn = some ⟨resume, received, inFlight⟩)
      (hnext : received ++ inFlight ++ [event] <+: Log.behind ClientEvent.seq resume s.log) :
      ResumeStep s (.send event)
        { s with conn := some ⟨resume, received, inFlight ++ [event]⟩, sent := event.seq :: s.sent }
  | outside {s : ResumeState} {op : StorageOp String Int} {r : Readings} (hr : s.clock ≤ r.check)
      (hop : ¬ op.Writes src.cursorKey) :
      ResumeStep s (.outside op) { s with store := (MemoryStorage.exec s.store r op).2, clock := r.sweep }

/-- Every event that was sent and is not behind the cursor has been fed with an outcome other than `ERRORED`. -/
def CursorBelowFailed (s : ResumeState) : Prop :=
  ∀ now, s.clock ≤ now → ∀ n ∈ s.sent,
    n ≤ (s.store.get src.account.subscriptionId src.transport now).1 → n ∈ s.settled

end StreamSource

/-- The step is not the success of an event behind a failed one that has not succeeded since. -/
def NotOverFailed (s : ResumeState) : ResumeLabel → Prop
  | .source (.fed (.ok result)) => result.outcome ≠ .errored → ∀ event, s.source.pc = .feeding event →
      ∀ n ∈ s.failed, n < event.seq → n ∈ s.settled
  | _ => True

/-! ### What holds of a run -/

/-- What a connection has to do with the cursor `c` and with what was fed. -/
structure ConnectionInv (s : ResumeState) (c : Int) (conn : Connection) : Prop where
  resume_le : conn.resume ≤ c
  le_received : c ≤ conn.resume ∨ ∃ x ∈ conn.received, c ≤ x.seq
  served : conn.received ++ conn.inFlight <+: Log.behind ClientEvent.seq conn.resume s.log
  sent : ∀ x ∈ conn.received ++ conn.inFlight, x.seq ∈ s.sent
  fed : ∀ x ∈ conn.received, x.seq ∈ s.failed ∨ x.seq ∈ s.settled ∨ s.source.pc = .feeding x

structure ResumeInv (src : StreamSource) (s : ResumeState) (c : Int) : Prop where
  stands : CursorStore.Stands s.store s.clock src.cursorKey c
  log : Log.Increasing ClientEvent.seq s.log
  sent : ∀ n ∈ s.sent, ∃ x ∈ s.log, x.seq = n
  failed : ∀ n ∈ s.failed, n ∈ s.sent
  connecting : ∀ request, s.source.pc = .connecting request → request.resumeSeq = c
  feeding : ∀ event, s.source.pc = .feeding event →
    ∃ conn before, s.conn = some conn ∧ conn.received = before ++ [event]
  conn : ∀ conn, s.conn = some conn → ConnectionInv s c conn

section
variable {src : StreamSource} {s : ResumeState} {c : Int} {t : StreamState}

private theorem ConnectionInv.source {conn : Connection} (h : ConnectionInv s c conn) (hs : ¬ s.source.pc.Busy) :
    ConnectionInv { s with source := t } c conn where
  resume_le := h.resume_le
  le_received := h.le_received
  served := h.served
  sent := h.sent
  fed := fun x hx => by
    rcases h.fed x hx with h | h | h
    · exact Or.inl h
    · exact Or.inr (Or.inl h)
    · exact absurd h (StreamPc.ne_feeding hs x)

private theorem ResumeInv.source (h : ResumeInv src s c) (hs : ¬ s.source.pc.Busy) (ht : ¬ t.pc.Busy) :
    ResumeInv src { s with source := t } c where
  stands := h.stands
  log := h.log
  sent := h.sent
  failed := h.failed
  connecting := fun request hpc => absurd hpc (StreamPc.ne_connecting ht request)
  feeding := fun event hpc => absurd hpc (StreamPc.ne_feeding ht event)
  conn := fun conn hconn => (h.conn conn hconn).source hs

private theorem ResumeInv.disconnect (h : ResumeInv src s c) (ht : ¬ t.pc.Busy) :
    ResumeInv src { s with source := t, conn := none } c where
  stands := h.stands
  log := h.log
  sent := h.sent
  failed := h.failed
  connecting := fun request hpc => absurd hpc (StreamPc.ne_connecting ht request)
  feeding := fun event hpc => absurd hpc (StreamPc.ne_feeding ht event)
  conn := fun conn hconn => by cases hconn

private theorem ResumeInv.resumed {now : ℚ} (h : ResumeInv src s c) (hnow : s.clock ≤ now)
    (hstep : src.Step s.source (.resumed (s.store.get src.account.subscriptionId src.transport now).1) t) :
    ResumeInv src { s with
      source := t, store := (s.store.get src.account.subscriptionId src.transport now).2, clock := now } c := by
  obtain ⟨hget, hstands⟩ := h.stands.get hnow
  have hbusy : ¬ s.source.pc.Busy := by
    cases hstep with
    | resumed _ hpc | refused _ hpc => rw [hpc]; exact id
  have hconn : ∀ conn, s.conn = some conn → ConnectionInv { s with source := t } c conn :=
    fun conn hconn => (h.conn conn hconn).source hbusy
  refine ⟨hstands, h.log, h.sent, h.failed, fun request hpc => ?_, fun event hpc => ?_,
    fun conn hc => { hconn conn hc with }⟩
  · cases hstep with
    | resumed lastSeq _ =>
      cases hpc
      rw [src.resumeSeq_request, hget]
    | refused => cases hpc
  · cases hstep with
    | resumed => cases hpc
    | refused => cases hpc

private theorem ResumeInv.connected {request : StreamRequest} (h : ResumeInv src s c)
    (hpc : s.source.pc = .connecting request) (hstep : src.Step s.source .connected t) :
    ResumeInv src { s with source := t, conn := some ⟨request.resumeSeq, [], []⟩ } c := by
  cases hstep with
  | connected _ =>
    refine ⟨h.stands, h.log, h.sent, h.failed, ?_, ?_, ?_⟩
    · rintro request ⟨⟩
    · rintro event ⟨⟩
    · rintro conn ⟨⟩
      have hc := h.connecting request hpc
      exact ⟨hc.le, Or.inl hc.ge, List.nil_prefix, by simp, by simp⟩

private theorem ResumeInv.yielded {resume : Int} {received rest : List ClientEvent} {event : ClientEvent}
    (h : ResumeInv src s c) (hconn : s.conn = some ⟨resume, received, event :: rest⟩)
    (hstep : src.Step s.source (.yielded event) t) :
    ResumeInv src { s with source := t, conn := some ⟨resume, received ++ [event], rest⟩ } c := by
  have hinv := h.conn _ hconn
  cases hstep with
  | yielded _ hpc =>
    refine ⟨h.stands, h.log, h.sent, h.failed, ?_, ?_, ?_⟩
    · rintro request ⟨⟩
    · rintro event' ⟨⟩
      exact ⟨_, received, rfl, rfl⟩
    · rintro conn ⟨⟩
      refine ⟨hinv.resume_le, ?_, ?_, ?_, fun x hx => ?_⟩
      · exact hinv.le_received.imp_right fun ⟨x, hx, hle⟩ => ⟨x, List.mem_append_left _ hx, hle⟩
      · simpa using hinv.served
      · simpa using hinv.sent
      · rcases List.mem_append.1 hx with hx | hx
        · rcases hinv.fed x hx with h | h | h
          · exact Or.inl h
          · exact Or.inr (Or.inl h)
          · rw [hpc] at h
            cases h
        · obtain rfl := List.mem_singleton.1 hx
          exact Or.inr (Or.inr rfl)

/-- What is fed on a connection is what the source has read last. -/
private theorem ResumeInv.fed_seq {event : ClientEvent} (h : ResumeInv src s c) (hpc : s.source.pc = .feeding event) :
    event.seq ∈ s.sent := by
  obtain ⟨conn, before, hconn, hreceived⟩ := h.feeding event hpc
  exact (h.conn conn hconn).sent event (by simp [hreceived])

private theorem ResumeInv.errored {event : ClientEvent} {result : DispatchResult} (h : ResumeInv src s c)
    (hpc : s.source.pc = .feeding event) (hres : result.outcome = .errored)
    (hstep : src.Step s.source (.fed (.ok result)) t) :
    ResumeInv src { s with source := t, failed := event.seq :: s.failed } c := by
  have hseq := h.fed_seq hpc
  cases hstep with
  | fed _ hpc' =>
    have hreading : StreamPc.settled event result = .reading := if_pos hres
    obtain rfl : event = _ := StreamPc.feeding.inj (hpc.symm.trans hpc')
    refine ⟨h.stands, h.log, h.sent, ?_, ?_, ?_, fun conn hconn => ?_⟩
    · exact fun n hn => (List.mem_cons.1 hn).elim (fun h => h ▸ hseq) (h.failed n)
    · intro request hpc
      rw [show StreamPc.settled event result = _ from hpc] at hreading
      cases hreading
    · intro event' hpc
      rw [show StreamPc.settled event result = _ from hpc] at hreading
      cases hreading
    · have hinv := h.conn conn hconn
      refine { hinv with fed := fun x hx => ?_ }
      rcases hinv.fed x hx with h | h | h
      · exact Or.inl (List.mem_cons_of_mem _ h)
      · exact Or.inr (Or.inl h)
      · obtain rfl := StreamPc.feeding.inj (hpc.symm.trans h)
        exact Or.inl (List.mem_cons_self ..)

private theorem ResumeInv.settle {u : StreamState} {event : ClientEvent} {r : Readings}
    (h : ResumeInv src s c) (hpc : s.source.pc = .feeding event) (hr : s.clock ≤ r.check)
    (hstep : src.Step t (.advanced (.ok ())) u) :
    ResumeInv src { s with
      source := u
      store := s.store.advance src.account.subscriptionId src.transport event.seq r
      clock := r.sweep
      settled := event.seq :: s.settled } (max c event.seq) := by
  obtain ⟨conn₀, before, hconn₀, hreceived⟩ := h.feeding event hpc
  cases hstep with
  | advanced _ =>
    refine ⟨h.stands.advance hr event.seq, h.log, h.sent, h.failed, ?_, ?_, fun conn hconn => ?_⟩
    · rintro request ⟨⟩
    · rintro event' ⟨⟩
    · obtain rfl : conn₀ = conn := Option.some.inj (hconn₀.symm.trans hconn)
      have hinv := h.conn conn₀ hconn
      have hevent : event ∈ conn₀.received := by simp [hreceived]
      have hresume : conn₀.resume ≤ max c event.seq := le_trans hinv.resume_le (le_max_left ..)
      refine { hinv with resume_le := hresume, le_received := ?_, fed := fun x hx => ?_ }
      · rcases max_choice c event.seq with hmax | hmax <;> rw [hmax]
        · exact hinv.le_received
        · exact Or.inr ⟨event, hevent, le_rfl⟩
      · rcases hinv.fed x hx with h | h | h
        · exact Or.inl h
        · exact Or.inr (Or.inl (List.mem_cons_of_mem _ h))
        · obtain rfl := StreamPc.feeding.inj (hpc.symm.trans h)
          exact Or.inr (Or.inl (List.mem_cons_self ..))

private theorem ResumeInv.send {resume : Int} {received inFlight : List ClientEvent} {event : ClientEvent}
    (h : ResumeInv src s c) (hconn : s.conn = some ⟨resume, received, inFlight⟩)
    (hnext : received ++ inFlight ++ [event] <+: Log.behind ClientEvent.seq resume s.log) :
    ResumeInv src { s with
      conn := some ⟨resume, received, inFlight ++ [event]⟩, sent := event.seq :: s.sent } c := by
  have hinv := h.conn _ hconn
  have hevent : event ∈ s.log := (Log.mem_behind.1 (hnext.subset (by simp))).1
  refine ⟨h.stands, h.log, ?_, fun n hn => List.mem_cons_of_mem _ (h.failed n hn), h.connecting, fun e hpc => ?_, ?_⟩
  · exact fun n hn => (List.mem_cons.1 hn).elim (fun h => ⟨event, hevent, h.symm⟩) (h.sent n)
  · obtain ⟨conn, before, hconn', hreceived⟩ := h.feeding e hpc
    obtain rfl : _ = conn := Option.some.inj (hconn.symm.trans hconn')
    exact ⟨_, before, rfl, hreceived⟩
  · rintro conn ⟨⟩
    refine { hinv with served := by rwa [← List.append_assoc], sent := fun x hx => ?_ }
    rw [← List.append_assoc, List.mem_append, List.mem_singleton] at hx
    rcases hx with hx | rfl
    · exact List.mem_cons_of_mem _ (hinv.sent x hx)
    · exact List.mem_cons_self ..

/-- What the server sends next is behind the cursor. -/
private theorem ResumeInv.lt_of_send {resume : Int} {received inFlight : List ClientEvent} {event : ClientEvent}
    (h : ResumeInv src s c) (hconn : s.conn = some ⟨resume, received, inFlight⟩)
    (hnext : received ++ inFlight ++ [event] <+: Log.behind ClientEvent.seq resume s.log) : c < event.seq := by
  have hsorted : (received ++ inFlight ++ [event]).Pairwise fun x y => x.seq < y.seq :=
    List.Pairwise.sublist hnext.sublist (h.log.behind resume)
  rcases (h.conn _ hconn).le_received with hc | ⟨x, hx, hc⟩
  · exact lt_of_le_of_lt hc (Log.mem_behind.1 (hnext.subset (List.mem_append_right _ (List.mem_singleton_self _)))).2
  · have hx' := (List.pairwise_append.1 hsorted).2.2 x (List.mem_append_left _ hx) event (List.mem_singleton_self _)
    exact lt_of_le_of_lt hc hx'

private theorem ResumeInv.append {event : ClientEvent} (h : ResumeInv src s c)
    (hevent : ∀ x ∈ s.log, x.seq < event.seq) : ResumeInv src { s with log := s.log ++ [event] } c where
  stands := h.stands
  log := h.log.append hevent
  sent := fun n hn => (h.sent n hn).imp fun _ hx => ⟨List.mem_append_left _ hx.1, hx.2⟩
  failed := h.failed
  connecting := h.connecting
  feeding := h.feeding
  conn := fun conn hconn => { h.conn conn hconn with
    served := (h.conn conn hconn).served.trans (Log.behind_prefix_append ..) }

private theorem ResumeInv.outside {op : StorageOp String Int} {r : Readings} (h : ResumeInv src s c)
    (hr : s.clock ≤ r.check) (hop : ¬ op.Writes src.cursorKey) :
    ResumeInv src { s with store := (MemoryStorage.exec s.store r op).2, clock := r.sweep } c :=
  { h with stands := h.stands.exec hr hop, conn := fun conn hconn => { h.conn conn hconn with } }

theorem ResumeInv.aclose (h : ResumeInv src s c) (hstep : src.Step s.source .aclose t) :
    ResumeInv src { s with source := t } c := by
  cases hstep with
  | aclose => exact { h with conn := fun conn hconn => { h.conn conn hconn with } }

theorem step_resumeInv {s' : ResumeState} {l : ResumeLabel} (h : ResumeInv src s c) (hstep : src.ResumeStep s l s') :
    ∃ c', ResumeInv src s' c' := by
  cases hstep with
  | resumed hnow hstep => exact ⟨c, h.resumed hnow hstep⟩
  | connected hpc hstep => exact ⟨c, h.connected hpc hstep⟩
  | yielded hconn hstep => exact ⟨c, h.yielded hconn hstep⟩
  | errored hpc hres hstep => exact ⟨c, h.errored hpc hres hstep⟩
  | settled hpc hres hr hstep hstep' => exact ⟨_, h.settle hpc hr hstep'⟩
  | disconnected hstep => exact ⟨c, h.disconnect hstep.disconnected_pc⟩
  | feedRaises hstep => exact ⟨c, h.disconnect hstep.feedRaises_pc⟩
  | run hstep => exact ⟨c, h.source hstep.run_pc.1 hstep.run_pc.2⟩
  | woken hstep => exact ⟨c, h.source hstep.woken_pc.1 hstep.woken_pc.2⟩
  | aclose hstep => exact ⟨c, h.aclose hstep⟩
  | append hevent => exact ⟨c, h.append hevent⟩
  | send hconn hnext => exact ⟨c, h.send hconn hnext⟩
  | outside hr hop => exact ⟨c, h.outside hr hop⟩

/-! ### The cursor and the failed events -/

theorem ResumeInv.cursorBelowFailed_iff (h : ResumeInv src s c) :
    src.CursorBelowFailed s ↔ ∀ n ∈ s.sent, n ≤ c → n ∈ s.settled := by
  constructor
  · intro hs n hn hle
    refine hs s.clock le_rfl n hn ?_
    rwa [(h.stands.get le_rfl).1]
  · intro hs now hnow n hn hle
    rw [(h.stands.get hnow).1] at hle
    exact hs n hn hle

/-- An event sent earlier, of smaller `seq` than the one being fed and not up to the cursor, has been fed. -/
private theorem ResumeInv.fed_before {event : ClientEvent} (h : ResumeInv src s c) (hpc : s.source.pc = .feeding event)
    {n : Int} (hn : n ∈ s.sent) (hc : c < n) (hlt : n < event.seq) : n ∈ s.failed ∨ n ∈ s.settled := by
  obtain ⟨conn, before, hconn, hreceived⟩ := h.feeding event hpc
  have hinv := h.conn conn hconn
  obtain ⟨x, hx, rfl⟩ := h.sent n hn
  -- what a connection has brought is without gaps from the resume position on
  have hshown : x ∈ conn.received := by
    refine (h.log.behind conn.resume).mem_shown ((List.prefix_append ..).trans hinv.served)
      (show event ∈ conn.received by simp [hreceived]) ?_ hlt.le
    exact Log.mem_behind.2 ⟨hx, lt_of_le_of_lt hinv.resume_le hc⟩
  rcases hinv.fed x hshown with h | h | h
  · exact Or.inl h
  · exact Or.inr h
  · obtain rfl := StreamPc.feeding.inj (hpc.symm.trans h)
    omega

/-- A success keeps the cursor below the failed events exactly when it is not behind one of them. -/
private theorem settle_iff {event : ClientEvent} (h : ResumeInv src s c) (hpc : s.source.pc = .feeding event)
    (hs : ∀ n ∈ s.sent, n ≤ c → n ∈ s.settled) :
    (∀ n ∈ s.sent, n ≤ max c event.seq → n ∈ event.seq :: s.settled) ↔
      ∀ n ∈ s.failed, n < event.seq → n ∈ s.settled := by
  constructor
  · intro h' n hn hlt
    rcases List.mem_cons.1 (h' n (h.failed n hn) (le_max_of_le_right hlt.le)) with rfl | h
    · omega
    · exact h
  · intro h' n hn hle
    rcases lt_or_ge c n with hc | hc
    · rcases eq_or_lt_of_le ((le_max_iff.1 hle).resolve_left (not_le.2 hc)) with rfl | hlt
      · exact List.mem_cons_self ..
      · rcases h.fed_before hpc hn hc hlt with hf | hf
        · exact List.mem_cons_of_mem _ (h' n hf hlt)
        · exact List.mem_cons_of_mem _ hf
    · exact List.mem_cons_of_mem _ (hs n hn hc)

theorem step_below_iff {s' : ResumeState} {l : ResumeLabel} (h : ResumeInv src s c) (hs : src.CursorBelowFailed s)
    (hstep : src.ResumeStep s l s') : src.CursorBelowFailed s' ↔ NotOverFailed s l := by
  rw [h.cursorBelowFailed_iff] at hs
  cases hstep with
  | resumed hnow hstep => exact iff_of_true ((h.resumed hnow hstep).cursorBelowFailed_iff.2 hs) trivial
  | connected hpc hstep => exact iff_of_true ((h.connected hpc hstep).cursorBelowFailed_iff.2 hs) trivial
  | yielded hconn hstep => exact iff_of_true ((h.yielded hconn hstep).cursorBelowFailed_iff.2 hs) trivial
  | errored hpc hres hstep =>
    exact iff_of_true ((h.errored hpc hres hstep).cursorBelowFailed_iff.2 hs) fun hne => absurd hres hne
  | settled hpc hres hr hstep hstep' =>
    -- the only step that moves the cursor
    rw [(h.settle hpc hr hstep').cursorBelowFailed_iff, settle_iff h hpc hs]
    constructor
    · intro hf _ event' hpc'
      obtain rfl := StreamPc.feeding.inj (hpc.symm.trans hpc')
      exact hf
    · exact fun hf => hf hres _ hpc
  | disconnected hstep => exact iff_of_true ((h.disconnect hstep.disconnected_pc).cursorBelowFailed_iff.2 hs) trivial
  | feedRaises hstep => exact iff_of_true ((h.disconnect hstep.feedRaises_pc).cursorBelowFailed_iff.2 hs) trivial
  | run hstep => exact iff_of_true ((h.source hstep.run_pc.1 hstep.run_pc.2).cursorBelowFailed_iff.2 hs) trivial
  | woken hstep => exact iff_of_true ((h.source hstep.woken_pc.1 hstep.woken_pc.2).cursorBelowFailed_iff.2 hs) trivial
  | aclose hstep => exact iff_of_true ((h.aclose hstep).cursorBelowFailed_iff.2 hs) trivial
  | append hevent => exact iff_of_true ((h.append hevent).cursorBelowFailed_iff.2 hs) trivial
  | send hconn hnext =>
    refine iff_of_true ((h.send hconn hnext).cursorBelowFailed_iff.2 fun n hn hle => ?_) trivial
    rcases List.mem_cons.1 hn with rfl | hn
    · exact absurd hle (not_le.2 (h.lt_of_send hconn hnext))
    · exact hs n hn hle
  | outside hr hop => exact iff_of_true ((h.outside hr hop).cursorBelowFailed_iff.2 hs) trivial

theorem resumeInv_start {log : List ClientEvent} (hlog : Log.Increasing ClientEvent.seq log) (clock : ℚ) :
    ResumeInv src (.start log clock) 0 where
  stands := CursorStore.stands_empty ..
  log := hlog
  sent := by simp [ResumeState.start]
  failed := by simp [ResumeState.start]
  connecting := by rintro request ⟨⟩
  feeding := by rintro event ⟨⟩
  conn := by rintro conn ⟨⟩

/-- In a run of a stream source the cursor stays below the failed events if and only if no event succeeds behind a
failed one that has not succeeded since. -/
theorem cursor_belowFailed_iff {log : List ClientEvent} {clock : ℚ} {path : List (ResumeLabel × ResumeState)}
    (hlog : Log.Increasing ClientEvent.seq log) (hrun : Transition.Run src.ResumeStep (.start log clock) path) :
    Transition.Always src.CursorBelowFailed (.start log clock) path ↔
      Transition.Meets NotOverFailed (.start log clock) path := by
  have h0 : ResumeInv src (.start log clock) 0 := resumeInv_start hlog clock
  refine hrun.always_iff_meets (fun s => ∃ c, ResumeInv src s c) (fun _ _ _ ⟨_, h⟩ _ hstep _ => step_resumeInv h hstep)
    (fun _ _ _ ⟨_, h⟩ hs hstep => step_below_iff h hs hstep) ⟨0, h0⟩ ?_
  exact h0.cursorBelowFailed_iff.2 (by simp [ResumeState.start])

end

/-! ### Two lots sent to a stream source -/

def sellerStream : StreamSource := SSESource.source { account := seller }

def firstLot : ClientEvent := { newLot with transport := .sse }

def secondLot : ClientEvent := { newLot with seq := 2, transport := .sse }

private theorem increasing_lots : Log.Increasing ClientEvent.seq [firstLot, secondLot] := by
  simp [Log.Increasing, firstLot, secondLot, newLot]

/-- The first lot fails, the second one is never fed. -/
theorem cursor_belowFailed_lots :
    ∃ path, path.length = 6 ∧ Transition.Run sellerStream.ResumeStep (.start [firstLot, secondLot] 0) path ∧
      Transition.Always sellerStream.CursorBelowFailed (.start [firstLot, secondLot] 0) path := by
  have below : ∀ path, Transition.Run sellerStream.ResumeStep (.start [firstLot, secondLot] 0) path →
      Transition.Meets NotOverFailed (.start [firstLot, secondLot] 0) path → path.length = 6 →
      path.length = 6 ∧ Transition.Run sellerStream.ResumeStep (.start [firstLot, secondLot] 0) path ∧
        Transition.Always sellerStream.CursorBelowFailed (.start [firstLot, secondLot] 0) path :=
    fun path hrun hmeets hlen => ⟨hlen, hrun, (cursor_belowFailed_iff increasing_lots hrun).2 hmeets⟩
  refine ⟨_, below [(.source .run, _), (.source (.resumed _), _), (.source .connected, _), (.send firstLot, _),
    (.source (.yielded firstLot), _), (.source (.fed (.ok ⟨.errored, firstLot, none⟩)), _)]
    ⟨.run (.run trivial), .resumed (le_refl 0) (.resumed _ rfl rfl), .connected rfl (.connected rfl),
      .send rfl ⟨[secondLot], rfl⟩, .yielded rfl (.yielded _ rfl), .errored rfl rfl (.fed _ rfl), trivial⟩ ?_ rfl⟩
  exact ⟨trivial, trivial, trivial, trivial, trivial, fun h => absurd rfl h, trivial⟩

/-- The first lot fails, the second one succeeds: the cursor is at `2`, and the first lot is not sent again. -/
theorem cursor_over_failed :
    ∃ path, Transition.Run sellerStream.ResumeStep (.start [firstLot, secondLot] 0) path ∧
      ¬ Transition.Always sellerStream.CursorBelowFailed (.start [firstLot, secondLot] 0) path := by
  refine ⟨[(.source .run, _), (.source (.resumed _), _), (.source .connected, _), (.send firstLot, _),
    (.send secondLot, _), (.source (.yielded firstLot), _), (.source (.fed (.ok ⟨.errored, firstLot, none⟩)), _),
    (.source (.yielded secondLot), _), (.source (.fed (.ok ⟨.handled, secondLot, none⟩)), _)],
    ⟨.run (.run trivial), .resumed (le_refl 0) (.resumed _ rfl rfl), .connected rfl (.connected rfl),
      .send rfl ⟨[secondLot], rfl⟩, .send rfl ⟨[], rfl⟩, .yielded rfl (.yielded _ rfl), .errored rfl rfl (.fed _ rfl),
      .yielded rfl (.yielded _ rfl), .settled (r := .at 0) rfl (by decide) le_rfl (.fed _ rfl) (.advanced rfl),
      trivial⟩,
    fun h => ?_⟩
  have hlast := h.last
  have := hlast 0 le_rfl 1 (List.mem_cons_of_mem _ (List.mem_singleton_self _)) (by decide +kernel)
  exact absurd this (by decide)

end EventusSdk
