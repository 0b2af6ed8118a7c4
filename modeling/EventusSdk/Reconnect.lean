import EventusSdk.Dispatcher
import EventusSdk.Lib.Transition
import EventusSdk.StreamSource

/-!
# Resuming after a reconnect

A stream source over a cursor store that nobody else writes for it, and connections each of which delivers any finite
list of events and then ends.  When the source connects, the cursor is the greatest of what was stored at first and of
what was fed without an error, and that is what it sends; every event delivered is fed once, in order.

The cursor lags behind in one place only: between a feed and the advance after it (`StreamPc.ahead`).
-/

namespace EventusSdk

/-! ### The source, its store and its connections -/

/-- `pending` is what the open connection has yet to yield; `delivered` and `fed` record what the connections delivered
and what came back from the dispatcher, with its result. -/
structure ReconnectState where
  source : StreamState
  store : CursorStore
  clock : ℚ
  pending : List ClientEvent
  delivered : List ClientEvent
  fed : List (ClientEvent × DispatchResult)

/-- No connection has been made yet. -/
def ReconnectState.start (store : CursorStore) (clock : ℚ) : ReconnectState := ⟨{}, store, clock, [], [], []⟩

/-- A connection is made that is to deliver `events`; anything else the source does; or another call of the store. -/
inductive ReconnectLabel where
  | connected (events : List ClientEvent)
  | source (l : StreamLabel)
  | outside (op : StorageOp String Int)

namespace StreamSource

variable (src : StreamSource)

inductive ReconnectStep : ReconnectState → ReconnectLabel → ReconnectState → Prop where
  | resumed {s : ReconnectState} {t : StreamState} {now : ℚ} (hnow : s.clock ≤ now)
      (h : src.Step s.source (.resumed (s.store.get src.account.subscriptionId src.transport now).1) t) :
      ReconnectStep s (.source (.resumed (s.store.get src.account.subscriptionId src.transport now).1))
        { s with source := t, store := (s.store.get src.account.subscriptionId src.transport now).2, clock := now }
  | connected {s : ReconnectState} {t : StreamState} (events : List ClientEvent) (h : src.Step s.source .connected t) :
      ReconnectStep s (.connected events)
        { s with source := t, pending := events, delivered := s.delivered ++ events }
  | yielded {s : ReconnectState} {t : StreamState} {event : ClientEvent} {rest : List ClientEvent}
      (hpending : s.pending = event :: rest) (h : src.Step s.source (.yielded event) t) :
      ReconnectStep s (.source (.yielded event)) { s with source := t, pending := rest }
  | fed {s : ReconnectState} {t : StreamState} {event : ClientEvent} {result : DispatchResult}
      (hpc : s.source.pc = .feeding event) (h : src.Step s.source (.fed (.ok result)) t) :
      ReconnectStep s (.source (.fed (.ok result))) { s with source := t, fed := s.fed ++ [(event, result)] }
  | advanced {s : ReconnectState} {t : StreamState} {event : ClientEvent} {r : Readings} (hr : s.clock ≤ r.check)
      (hpc : s.source.pc = .advancing event) (h : src.Step s.source (.advanced (.ok ())) t) :
      ReconnectStep s (.source (.advanced (.ok ())))
        { s with
          source := t
          store := s.store.advance src.account.subscriptionId src.transport event.seq r
          clock := r.sweep }
  -- cleanly, or by an exception after which the source connects again or does not
  | disconnected {s : ReconnectState} {t : StreamState} {exc : Option Exn} {jitter : ℚ} (hpending : s.pending = [])
      (h : src.Step s.source (.disconnected exc jitter) t) :
      ReconnectStep s (.source (.disconnected exc jitter)) { s with source := t }
  | run {s : ReconnectState} {t : StreamState} (h : src.Step s.source .run t) :
      ReconnectStep s (.source .run) { s with source := t }
  | woken {s : ReconnectState} {t : StreamState} {x : Except Exn Unit} (h : src.Step s.source (.woken x) t) :
      ReconnectStep s (.source (.woken x)) { s with source := t }
  | aclose {s : ReconnectState} {t : StreamState} (h : src.Step s.source .aclose t) :
      ReconnectStep s (.source .aclose) { s with source := t }
  | outside {s : ReconnectState} {op : StorageOp String Int} {r : Readings} (hr : s.clock ≤ r.check)
      (hop : ¬ op.Writes (CursorStore.key src.account.subscriptionId src.transport)) :
      ReconnectStep s (.outside op) { s with store := (MemoryStorage.exec s.store r op).2, clock := r.sweep }

end StreamSource

/-! ### What is asked of a run -/

/-- The position behind which the server is asked to start: no header stands for `0`. -/
def StreamRequest.Carries : StreamRequest → Int → Prop
  | .sse _ headers _, position =>
    headers.lookup lastEventIdHeader = if position = 0 then none else some (toString position)
  | .ws _ _ _ lastSeq, position => lastSeq = position

/-- The cursor stored at first, and the `seq` of every event fed so far with an outcome other than `ERRORED`. -/
def ReconnectState.acknowledged (initial : Int) (s : ReconnectState) : Set Int :=
  {n | n = initial ∨ ∃ x ∈ s.fed, x.2.outcome ≠ .errored ∧ n = x.1.seq}

/-- The event the dispatcher has. -/
def StreamPc.inHand : StreamPc → List ClientEvent
  | .feeding event => [event]
  | _ => []

/-- A new connection asks for what comes after everything acknowledged, and what was delivered is what was fed, is in
hand or is pending, in that order. -/
structure ReconnectState.Resumes (initial : Int) (s : ReconnectState) : Prop where
  position : ∀ request, s.source.pc = .connecting request →
    ∃ position, IsGreatest (s.acknowledged initial) position ∧ request.Carries position
  in_order : s.fed.map Prod.fst ++ (s.source.pc.inHand ++ s.pending) = s.delivered

/-! ### The invariant -/

/-- Where the cursor will be once the advance under way is done. -/
def StreamPc.ahead : StreamPc → Int → Int
  | .advancing event, cursor => max cursor event.seq
  | _, cursor => cursor

/-- A connection is open. -/
def StreamPc.Open : StreamPc → Prop
  | .reading | .feeding _ | .advancing _ => True
  | _ => False

/-- The source waits neither for the connection nor for the dispatcher or the store. -/
def StreamPc.Quiet : StreamPc → Prop
  | .connecting _ | .feeding _ | .advancing _ => False
  | _ => True

structure ReconnectInv (src : StreamSource) (initial : Int) (s : ReconnectState) (cursor : Int) : Prop where
  stands : CursorStore.Stands s.store s.clock (CursorStore.key src.account.subscriptionId src.transport) cursor
  greatest : IsGreatest (s.acknowledged initial) (s.source.pc.ahead cursor)
  connecting : ∀ request, s.source.pc = .connecting request → request = src.request cursor
  in_order : s.fed.map Prod.fst ++ (s.source.pc.inHand ++ s.pending) = s.delivered
  pending : ¬ s.source.pc.Open → s.pending = []

section
variable {src : StreamSource} {initial : Int} {s : ReconnectState} {cursor : Int} {t : StreamState}

private theorem StreamPc.Quiet.ahead {pc : StreamPc} (h : pc.Quiet) (cursor : Int) : pc.ahead cursor = cursor := by
  cases pc <;> first | rfl | exact absurd h id

private theorem StreamPc.Quiet.inHand {pc : StreamPc} (h : pc.Quiet) : pc.inHand = [] := by
  cases pc <;> first | rfl | exact absurd h id

private theorem StreamPc.Quiet.ne_connecting {pc : StreamPc} (h : pc.Quiet) (request : StreamRequest) :
    pc ≠ .connecting request := by
  intro hpc
  rw [hpc] at h
  exact h

private theorem StreamPc.rests_of_attempting {pc : StreamPc} (h : pc.Attempting) (cursor : Int) :
    pc.ahead cursor = cursor ∧ pc.inHand = [] := by
  cases pc <;> first | exact ⟨rfl, rfl⟩ | exact absurd h id

private theorem StreamState.quiet_loop (s : StreamState) : s.loop.pc.Quiet := by
  rcases s.loop_pc with h | h <;> rw [h] <;> trivial

private theorem StreamState.quiet_pause (s : StreamState) (jitter : ℚ) : (s.pause jitter).pc.Quiet := by
  rcases s.pause_pc jitter with h | ⟨_, h⟩ <;> rw [h] <;> trivial

/-- With nothing pending, the source may come to rest. -/
private theorem ReconnectInv.rest (h : ReconnectInv src initial s cursor) (hpending : s.pending = [])
    (hs : s.source.pc.ahead cursor = cursor ∧ s.source.pc.inHand = []) (ht : t.pc.Quiet) :
    ReconnectInv src initial { s with source := t } cursor where
  stands := h.stands
  greatest := by
    have hgreatest := h.greatest
    rw [hs.1] at hgreatest
    show IsGreatest _ (t.pc.ahead cursor)
    rw [ht.ahead]
    exact hgreatest
  connecting := fun request hpc => absurd hpc (ht.ne_connecting request)
  in_order := by
    have horder := h.in_order
    rw [hs.2] at horder
    show _ ++ (t.pc.inHand ++ _) = _
    rw [ht.inHand]
    exact horder
  pending := fun _ => hpending

private theorem ReconnectInv.at_pc {pc : StreamPc} (h : ReconnectInv src initial s cursor) (hpc : s.source.pc = pc) :
    IsGreatest (s.acknowledged initial) (pc.ahead cursor) ∧
      s.fed.map Prod.fst ++ (pc.inHand ++ s.pending) = s.delivered := by
  subst hpc
  exact ⟨h.greatest, h.in_order⟩

/-! One lemma for each step that does more. -/

private theorem ReconnectInv.resumed {now : ℚ} (h : ReconnectInv src initial s cursor) (hnow : s.clock ≤ now)
    (hstep : src.Step s.source (.resumed (s.store.get src.account.subscriptionId src.transport now).1) t) :
    ReconnectInv src initial { s with
      source := t, store := (s.store.get src.account.subscriptionId src.transport now).2, clock := now } cursor := by
  obtain ⟨hget, hstands⟩ := h.stands.get hnow
  have hpc : s.source.pc = .resuming := by
    cases hstep with
    | resumed _ hpc | refused _ hpc => exact hpc
  obtain ⟨hgreatest, horder⟩ := h.at_pc hpc
  have hpending : s.pending = [] := h.pending (by rw [hpc]; exact id)
  cases hstep with
  | resumed _ _ =>
    refine ⟨hstands, hgreatest, ?_, horder, fun _ => hpending⟩
    intro request hrequest
    rw [← StreamPc.connecting.inj hrequest, hget]
  | refused _ _ => exact ⟨hstands, hgreatest, (by intro _ hrequest; cases hrequest), horder, fun _ => hpending⟩

private theorem ReconnectInv.connected (h : ReconnectInv src initial s cursor) (events : List ClientEvent)
    (hstep : src.Step s.source .connected t) :
    ReconnectInv src initial { s with source := t, pending := events, delivered := s.delivered ++ events } cursor := by
  cases hstep with
  | connected hpc =>
    obtain ⟨hgreatest, horder⟩ := h.at_pc hpc
    have hpending : s.pending = [] := h.pending (by rw [hpc]; exact id)
    refine ⟨h.stands, hgreatest, (by intro _ hrequest; cases hrequest), ?_, fun hopen => absurd trivial hopen⟩
    show s.fed.map Prod.fst ++ ([] ++ events) = s.delivered ++ events
    rw [← horder, hpending]
    simp [StreamPc.inHand]

private theorem ReconnectInv.yielded {event : ClientEvent} {rest : List ClientEvent}
    (h : ReconnectInv src initial s cursor)
    (hpending : s.pending = event :: rest) (hstep : src.Step s.source (.yielded event) t) :
    ReconnectInv src initial { s with source := t, pending := rest } cursor := by
  cases hstep with
  | yielded _ hpc =>
    obtain ⟨hgreatest, horder⟩ := h.at_pc hpc
    refine ⟨h.stands, hgreatest, (by intro _ hrequest; cases hrequest), ?_, fun hopen => absurd trivial hopen⟩
    show s.fed.map Prod.fst ++ ([event] ++ rest) = s.delivered
    rw [← horder, hpending]
    simp [StreamPc.inHand]

/-- What a feed adds to what is acknowledged. -/
private theorem acknowledged_fed (initial : Int) (s : ReconnectState) (event : ClientEvent) (result : DispatchResult) :
    ({ s with fed := s.fed ++ [(event, result)] } : ReconnectState).acknowledged initial =
      if result.outcome = .errored then s.acknowledged initial else insert event.seq (s.acknowledged initial) := by
  ext n
  by_cases hres : result.outcome = .errored
  · simp [ReconnectState.acknowledged, hres]
  · simp only [ReconnectState.acknowledged, List.mem_append, List.mem_singleton, Set.mem_ofPred_eq, if_neg hres,
      Set.mem_insert_iff]
    constructor
    · intro hn
      rcases hn with hn | ⟨x, hx | rfl, herr, hn⟩
      · exact Or.inr (Or.inl hn)
      · exact Or.inr (Or.inr ⟨x, hx, herr, hn⟩)
      · exact Or.inl hn
    · intro hn
      rcases hn with hn | hn | ⟨x, hx, herr, hn⟩
      · exact Or.inr ⟨(event, result), Or.inr rfl, hres, hn⟩
      · exact Or.inl hn
      · exact Or.inr ⟨x, Or.inl hx, herr, hn⟩

/-- Behind a feed the source reads on, or the cursor is to be advanced. -/
private theorem StreamPc.settled_cases (event : ClientEvent) (result : DispatchResult) :
    (result.outcome = .errored ∧ StreamPc.settled event result = .reading) ∨
      (result.outcome ≠ .errored ∧ StreamPc.settled event result = .advancing event) := by
  unfold StreamPc.settled
  by_cases hres : result.outcome = .errored
  · exact Or.inl ⟨hres, if_pos hres⟩
  · exact Or.inr ⟨hres, if_neg hres⟩

private theorem ReconnectInv.fed {event : ClientEvent} {result : DispatchResult} (h : ReconnectInv src initial s cursor)
    (hpc : s.source.pc = .feeding event) (hstep : src.Step s.source (.fed (.ok result)) t) :
    ReconnectInv src initial { s with source := t, fed := s.fed ++ [(event, result)] } cursor := by
  obtain ⟨hgreatest, horder⟩ := h.at_pc hpc
  have hacknowledged := acknowledged_fed initial s event result
  have hdelivered : (s.fed ++ [(event, result)]).map Prod.fst ++ ([] ++ s.pending) = s.delivered := by
    rw [← horder]
    simp [StreamPc.inHand]
  cases hstep with
  | fed _ hpc' =>
    obtain rfl := StreamPc.feeding.inj (hpc.symm.trans hpc')
    rcases StreamPc.settled_cases event result with ⟨hres, hnext⟩ | ⟨hres, hnext⟩
    · rw [if_pos hres] at hacknowledged
      rw [hnext]
      refine ⟨h.stands, ?_, (by intro _ hrequest; cases hrequest), hdelivered, fun hopen => absurd trivial hopen⟩
      exact hacknowledged.symm ▸ hgreatest
    · rw [if_neg hres] at hacknowledged
      rw [hnext]
      refine ⟨h.stands, ?_, (by intro _ hrequest; cases hrequest), hdelivered, fun hopen => absurd trivial hopen⟩
      have hinsert : IsGreatest (insert event.seq (s.acknowledged initial)) (max cursor event.seq) := by
        rw [max_comm]
        exact hgreatest.insert event.seq
      exact hacknowledged.symm ▸ hinsert

private theorem ReconnectInv.advanced {event : ClientEvent} {r : Readings} (h : ReconnectInv src initial s cursor)
    (hr : s.clock ≤ r.check) (hpc : s.source.pc = .advancing event)
    (hstep : src.Step s.source (.advanced (.ok ())) t) :
    ReconnectInv src initial { s with
      source := t
      store := s.store.advance src.account.subscriptionId src.transport event.seq r
      clock := r.sweep } (max cursor event.seq) := by
  obtain ⟨hgreatest, horder⟩ := h.at_pc hpc
  cases hstep with
  | advanced _ =>
    exact ⟨h.stands.advance hr event.seq, hgreatest, (by intro _ hrequest; cases hrequest), horder,
      fun hopen => absurd trivial hopen⟩

private theorem ReconnectInv.disconnected {exc : Option Exn} {jitter : ℚ} (h : ReconnectInv src initial s cursor)
    (hpending : s.pending = []) (hstep : src.Step s.source (.disconnected exc jitter) t) :
    ReconnectInv src initial { s with source := t } cursor := by
  cases hstep with
  | finished hpc _ => exact h.rest hpending (by rw [hpc]; exact ⟨rfl, rfl⟩) (s.source.quiet_pause jitter)
  | lost hpc _ _ => exact h.rest hpending (StreamPc.rests_of_attempting hpc cursor) (s.source.quiet_pause jitter)
  | failed hpc _ => exact h.rest hpending (StreamPc.rests_of_attempting hpc cursor) trivial

theorem ReconnectInv.run (h : ReconnectInv src initial s cursor) (hstep : src.Step s.source .run t) :
    ReconnectInv src initial { s with source := t } cursor := by
  cases hstep with
  | run hpc =>
    have hquiet : s.source.pc.Quiet ∧ ¬ s.source.pc.Open := by
      cases hs : s.source.pc <;> rw [hs] at hpc <;> first | exact absurd hpc id | exact ⟨trivial, id⟩
    exact h.rest (h.pending hquiet.2) ⟨hquiet.1.ahead cursor, hquiet.1.inHand⟩ (StreamState.quiet_loop _)

private theorem ReconnectInv.woken {x : Except Exn Unit} (h : ReconnectInv src initial s cursor)
    (hstep : src.Step s.source (.woken x) t) : ReconnectInv src initial { s with source := t } cursor := by
  cases hstep with
  | woken hpc =>
    exact h.rest (h.pending (by rw [hpc]; exact id)) (by rw [hpc]; exact ⟨rfl, rfl⟩) (StreamState.quiet_loop _)
  | sleepRaises e hpc =>
    exact h.rest (h.pending (by rw [hpc]; exact id)) (by rw [hpc]; exact ⟨rfl, rfl⟩) trivial

theorem ReconnectInv.aclose (h : ReconnectInv src initial s cursor) (hstep : src.Step s.source .aclose t) :
    ReconnectInv src initial { s with source := t } cursor := by
  cases hstep with
  | aclose => exact ⟨h.stands, h.greatest, h.connecting, h.in_order, h.pending⟩

/-- Every step keeps the invariant; an advance moves the cursor. -/
private theorem step_reconnectInv {l : ReconnectLabel} {u : ReconnectState} (h : ReconnectInv src initial s cursor)
    (hstep : src.ReconnectStep s l u) : ∃ cursor', ReconnectInv src initial u cursor' := by
  cases hstep with
  | resumed hnow hstep => exact ⟨_, h.resumed hnow hstep⟩
  | connected events hstep => exact ⟨_, h.connected events hstep⟩
  | yielded hpending hstep => exact ⟨_, h.yielded hpending hstep⟩
  | fed hpc hstep => exact ⟨_, h.fed hpc hstep⟩
  | advanced hr hpc hstep => exact ⟨_, h.advanced hr hpc hstep⟩
  | disconnected hpending hstep => exact ⟨_, h.disconnected hpending hstep⟩
  | run hstep => exact ⟨_, h.run hstep⟩
  | woken hstep => exact ⟨_, h.woken hstep⟩
  | aclose hstep => exact ⟨_, h.aclose hstep⟩
  | outside hr hop => exact ⟨_, h.stands.exec hr hop, h.greatest, h.connecting, h.in_order, h.pending⟩

end

/-! ### The two sources -/

private theorem SSESource.request_carries (s : SSESource) (position : Int) :
    (s.source.request position).Carries position := by
  show (s.headers position).lookup lastEventIdHeader = if position = 0 then none else some (toString position)
  unfold SSESource.headers
  by_cases hzero : position = 0
  · rw [if_neg (not_not.2 hzero), if_pos hzero]
    rfl
  · rw [if_pos hzero, if_neg hzero]
    rfl

private theorem WSSource.request_carries (s : WSSource) (position : Int) :
    (s.source.request position).Carries position := rfl

private theorem reconnectInv_start {src : StreamSource} {store : CursorStore} {clock : ℚ} {initial : Int}
    (hstore : CursorStore.Stands store clock (CursorStore.key src.account.subscriptionId src.transport) initial) :
    ReconnectInv src initial (.start store clock) initial where
  stands := hstore
  greatest := by
    refine ⟨Or.inl rfl, ?_⟩
    intro n hn
    rcases hn with hn | ⟨x, hx, -, -⟩
    · exact hn.le
    · cases hx
  connecting := fun request hpc => by cases hpc
  in_order := rfl
  pending := fun _ => rfl

/-- In every run of an SSE or a WebSocket source each connection resumes behind the greatest of the stored cursor and
of what was acknowledged since, and the events delivered are fed one by one, in order. -/
theorem reconnects_resume {src : StreamSource}
    (hsrc : (∃ s : SSESource, src = s.source) ∨ ∃ s : WSSource, src = s.source) {store : CursorStore} {clock : ℚ}
    {initial : Int}
    (hstore : CursorStore.Stands store clock (CursorStore.key src.account.subscriptionId src.transport) initial)
    {path : List (ReconnectLabel × ReconnectState)}
    (hrun : Transition.Run src.ReconnectStep (.start store clock) path) :
    Transition.Always (ReconnectState.Resumes initial) (.start store clock) path := by
  have hcarries : ∀ position, (src.request position).Carries position := by
    rcases hsrc with ⟨s, rfl⟩ | ⟨s, rfl⟩
    · exact s.request_carries
    · exact s.request_carries
  have hinv : Transition.Always (fun s => ∃ cursor, ReconnectInv src initial s cursor) (.start store clock) path :=
    hrun.always (fun _ _ _ ⟨_, h⟩ hstep => step_reconnectInv h hstep) ⟨initial, reconnectInv_start hstore⟩
  refine hinv.mono ?_
  intro s ⟨cursor, h⟩
  refine ⟨?_, h.in_order⟩
  intro request hpc
  refine ⟨cursor, (h.at_pc hpc).1, ?_⟩
  rw [h.connecting request hpc]
  exact hcarries cursor

/-! ### A lot, and the connection after it -/

def sellerSse : SSESource := { account := seller }

def sseLot : ClientEvent := { newLot with transport := .sse }

/-- The lot is fed and the connection ends; the next one asks for what comes behind `1`. -/
theorem reconnects_resume_lot :
    ∃ path, path.length = 9 ∧
      Transition.Run sellerSse.source.ReconnectStep (.start MemoryStorage.empty 0) path ∧
      Transition.Always (ReconnectState.Resumes 0) (.start MemoryStorage.empty 0) path := by
  have resume : ∀ path, Transition.Run sellerSse.source.ReconnectStep (.start MemoryStorage.empty 0) path →
      path.length = 9 → path.length = 9 ∧
        Transition.Run sellerSse.source.ReconnectStep (.start MemoryStorage.empty 0) path ∧
        Transition.Always (ReconnectState.Resumes 0) (.start MemoryStorage.empty 0) path := by
    intro path hrun hlen
    exact ⟨hlen, hrun, reconnects_resume (Or.inl ⟨sellerSse, rfl⟩) (CursorStore.stands_empty ..) hrun⟩
  refine ⟨_, resume [(.source .run, _), (.source (.resumed _), _), (.connected [sseLot], _),
    (.source (.yielded sseLot), _), (.source (.fed (.ok ⟨.handled, sseLot, none⟩)), _),
    (.source (.advanced (.ok ())), _), (.source (.disconnected none 0), _), (.source (.woken (.ok ())), _),
    (.source (.resumed _), _)]
    ⟨.run (.run trivial), .resumed (le_refl 0) (.resumed _ rfl rfl), .connected _ (.connected rfl),
      .yielded rfl (.yielded _ rfl), .fed rfl (.fed _ rfl), .advanced (r := .at 0) le_rfl rfl (.advanced rfl),
      .disconnected rfl (.finished rfl ?_), .woken (.woken rfl), .resumed (le_refl 0) (.resumed _ rfl rfl), trivial⟩
    rfl⟩
  exact ⟨by norm_num [jitterFraction], by norm_num [jitterFraction]⟩

end EventusSdk
