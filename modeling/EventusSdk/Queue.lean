import EventusSdk.Confirm
import EventusSdk.OperationErrors

/-!
# The queue behind the API

The polling source over the client, over HTTP, against an engine that keeps a queue for the subscription: its events,
and the last `seq` that was confirmed.  The answers come as JSON.  An exchange may fail or be given up, before the
engine has done its part or after, and at any time the queue may grow.

Such a system runs as the source does against a queue at hand, so that what holds there is true over HTTP as well.
-/

namespace EventusSdk

/-! ### Batches as they arrive -/

/-- The item, if its members have the types they are annotated with. -/
def Models.PendingEvent.typed : Models.PendingEvent → Option EventusSdk.PendingEvent
  | ⟨.int seq, .str eventType, .obj members⟩ => some ⟨seq, eventType, members.map fun (name, v) => (.str name, v)⟩
  | _ => none

def Models.PendingBatch.typed (batch : Models.PendingBatch) : Option EventusSdk.PendingBatch := do
  let subscriptionId ← batch.subscriptionId.str?
  let items ← batch.items.mapM Models.PendingEvent.typed
  let nextSeq ← batch.nextSeq.int?
  let lastReadSeq ← batch.lastReadSeq.int?
  let drained ← batch.drained.bool?
  let committed ← batch.committed.bool?
  return { subscriptionId, items, nextSeq, lastReadSeq, drained, committed }

/-! ### The engine -/

structure Queue where
  log : List PendingEvent
  confirmed : Int

namespace Queue

/-- The batch is the answer to a poll. -/
def Answers (q : Queue) (limit : Int) (batch : PendingBatch) : Prop :=
  ConfirmState.Answers { ConfirmState.start q.log with confirmed := q.confirmed } limit batch

def confirm (q : Queue) (upToSeq : Int) : Queue := { q with confirmed := max q.confirmed upToSeq }

/-- What happens to the queue by itself. -/
inductive Grows : Queue → Option PendingEvent → Queue → Prop where
  | same (q : Queue) : Grows q none q
  | append {q : Queue} {item : PendingEvent} (h : ∀ x ∈ q.log, x.seq < item.seq) :
      Grows q (some item) { q with log := q.log ++ [item] }

end Queue

namespace PollingSource

variable (src : PollingSource)

/-- `_fetch_batch`. -/
def fetchBatch (lib : ClientLib) : Http Models.PendingBatch :=
  ManagementClient.pollPending lib src.account.subscriptionId src.config.eventType src.config.limit false

/-- The `confirm_read` of `run`. -/
def confirmBatch (lib : ClientLib) (batch : PendingBatch) : Http Int :=
  ManagementClient.confirmRead lib src.account.subscriptionId batch.nextSeq

abbrev pollOperation : Operation :=
  .pollPending src.account.subscriptionId (src.config.eventType.getD []) src.config.limit false

abbrev confirmOperation (upToSeq : Int) : Operation := .confirmRead src.account.subscriptionId upToSeq

/-- An engine that keeps a queue for the subscription of the source, of the types it asks for. -/
structure QueueEngine (lib : ClientLib) (times : Timestamps) (σ : Type) where
  engine : Engine lib times σ
  queue : σ → Queue
  polled : ∀ s, queue (engine src.pollOperation s).2 = queue s
  answers : ∀ s reply, (engine src.pollOperation s).1 = .ok reply →
    ∃ batch, Models.PendingBatch.typed reply = some batch ∧ (queue s).Answers src.config.limit batch
  confirmed : ∀ n s reply, (engine (src.confirmOperation n) s).1 = .ok reply →
    queue (engine (src.confirmOperation n) s).2 = (queue s).confirm n
  -- an engine that cannot be reached may have confirmed all the same
  lost : ∀ n s f, (engine (src.confirmOperation n) s).1 = .error f →
    queue (engine (src.confirmOperation n) s).2 = queue s ∨
      queue (engine (src.confirmOperation n) s).2 = (queue s).confirm n

end PollingSource

/-! ### The source over HTTP -/

/-- The source and the engine, with all requests that were sent and all events that were fed. -/
structure QueueState (σ : Type) where
  source : PollingState
  engine : σ
  requests : List HttpRequest
  fed : List (ClientEvent × Except Exn DispatchResult)

inductive QueueLabel where
  | source (l : PollingLabel)
  | grows (new : Option PendingEvent)

namespace QueueState

variable {σ : Type}

def start (engine : σ) : QueueState σ := ⟨{}, engine, [], []⟩

/-- An exchange is over. -/
def exchanged {α : Type} (s : QueueState σ) (x : Prog.Outcome HttpRequest (fun _ => HttpAnswer) RequestFailure σ α)
    (t : PollingState) : QueueState σ :=
  { s with source := t, engine := x.state, requests := s.requests ++ x.trace.map Sigma.fst }

/-- The event was fed with an outcome other than `ERRORED`. -/
def DealtWith (s : QueueState σ) (x : PendingEvent) : Prop :=
  ∃ result, (ClientEvent.fromPending x .polling, .ok result) ∈ s.fed ∧ result.outcome ≠ .errored

/-- A `confirm_read` has named the `seq`. -/
def Named (src : PollingSource) (s : QueueState σ) (seq : Int) : Prop :=
  ∃ r ∈ s.requests, Operation.ofRequest r = some (src.confirmOperation seq)

/-- The event was dealt with, or its `seq` was named by a `confirm_read`, or lies below those of the engine. -/
def Accounted (src : PollingSource) (s : QueueState σ) (x : PendingEvent) : Prop :=
  x.seq ≤ 0 ∨ s.DealtWith x ∨ s.Named src x.seq

end QueueState

namespace PollingSource

variable {lib : ClientLib} {times : Timestamps} {σ : Type}

inductive QueueStep (src : PollingSource) (iso : IsoText times) (E : src.QueueEngine lib times σ) :
    QueueState σ → QueueLabel → QueueState σ → Prop where
  | polled {s : QueueState σ} {t : PollingState} {raw : Models.PendingBatch} {batch : PendingBatch}
      (hx : ((src.fetchBatch lib).run (E.engine.wire iso) s.engine).result = .ok raw) (hb : raw.typed = some batch)
      (h : src.Step s.source (.polled (.ok batch)) t) :
      QueueStep src iso E s (.source (.polled (.ok batch)))
        (s.exchanged ((src.fetchBatch lib).run (E.engine.wire iso) s.engine) t)
  -- the exchange has failed, or was given up
  | pollRaises {s : QueueState σ} {t : PollingState} {e : Exn} (h : src.Step s.source (.polled (.error e)) t) :
      QueueStep src iso E s (.source (.polled (.error e)))
        (s.exchanged ((src.fetchBatch lib).run (E.engine.wire iso) s.engine) t)
  | pollUnsent {s : QueueState σ} {t : PollingState} {e : Exn} (h : src.Step s.source (.polled (.error e)) t) :
      QueueStep src iso E s (.source (.polled (.error e))) { s with source := t }
  | fed {s : QueueState σ} {t : PollingState} {event : ClientEvent} {x : Except Exn DispatchResult}
      (h : src.Step s.source (.fed event x) t) :
      QueueStep src iso E s (.source (.fed event x)) { s with source := t, fed := s.fed ++ [(event, x)] }
  | confirmed {s : QueueState σ} {t : PollingState} {batch : PendingBatch} {lastSeq : Int}
      (hpc : s.source.pc = .confirming batch)
      (hx : ((src.confirmBatch lib batch).run (E.engine.wire iso) s.engine).result = .ok lastSeq)
      (h : src.Step s.source (.confirmed (.ok lastSeq)) t) :
      QueueStep src iso E s (.source (.confirmed (.ok lastSeq)))
        (s.exchanged ((src.confirmBatch lib batch).run (E.engine.wire iso) s.engine) t)
  | confirmRaises {s : QueueState σ} {t : PollingState} {batch : PendingBatch} {e : Exn}
      (hpc : s.source.pc = .confirming batch) (h : src.Step s.source (.confirmed (.error e)) t) :
      QueueStep src iso E s (.source (.confirmed (.error e)))
        (s.exchanged ((src.confirmBatch lib batch).run (E.engine.wire iso) s.engine) t)
  | confirmUnsent {s : QueueState σ} {t : PollingState} {e : Exn} (h : src.Step s.source (.confirmed (.error e)) t) :
      QueueStep src iso E s (.source (.confirmed (.error e))) { s with source := t }
  | run {s : QueueState σ} {t : PollingState} (h : src.Step s.source .run t) :
      QueueStep src iso E s (.source .run) { s with source := t }
  | woken {s : QueueState σ} {t : PollingState} {x : Except Exn Unit} (h : src.Step s.source (.woken x) t) :
      QueueStep src iso E s (.source (.woken x)) { s with source := t }
  | grows {s : QueueState σ} {engine : σ} {new : Option PendingEvent}
      (h : (E.queue s.engine).Grows new (E.queue engine)) : QueueStep src iso E s (.grows new) { s with engine }

end PollingSource

/-! ### What an exchange comes to -/

namespace PollingSource

variable {lib : ClientLib} {times : Timestamps} {σ : Type} {src : PollingSource} {iso : IsoText times}

private theorem fetchBatch_eq (times : Timestamps) : src.fetchBatch lib = src.pollOperation.perform lib times := by
  show _ = ManagementClient.pollPending lib _ (some (src.config.eventType.getD [])) _ _
  unfold fetchBatch
  cases src.config.eventType <;> rfl

variable (src) in
private theorem fetchBatch_performs (iso : IsoText times) (engine : Engine lib times σ) :
    Performs iso engine src.pollOperation (src.fetchBatch lib) :=
  fetchBatch_eq times ▸ performs iso engine src.pollOperation

variable (src) in
private theorem confirmBatch_performs (iso : IsoText times) (engine : Engine lib times σ) (batch : PendingBatch) :
    Performs iso engine (src.confirmOperation batch.nextSeq) (src.confirmBatch lib batch) :=
  performs iso engine (src.confirmOperation batch.nextSeq)

variable (E : src.QueueEngine lib times σ) {e : σ} {batch : PendingBatch}

/-- A poll leaves the queue alone. -/
private theorem fetchBatch_queue : E.queue ((src.fetchBatch lib).run (E.engine.wire iso) e).state = E.queue e := by
  rw [(fetchBatch_performs src iso E.engine e).2.1]
  exact E.polled e

private theorem fetchBatch_answers {raw : Models.PendingBatch}
    (hx : ((src.fetchBatch lib).run (E.engine.wire iso) e).result = .ok raw) (hb : raw.typed = some batch) :
    (E.queue e).Answers src.config.limit batch := by
  rw [(fetchBatch_performs src iso E.engine e).1] at hx
  rcases hanswer : (E.engine src.pollOperation e).1 with f | reply <;> rw [hanswer] at hx
  · cases hx
  · obtain ⟨batch', hb', hanswers⟩ := E.answers e reply hanswer
    obtain rfl : reply = raw := Except.ok.inj hx
    rwa [Option.some.inj (hb.symm.trans hb')]

private theorem confirmBatch_queue {lastSeq : Int}
    (hx : ((src.confirmBatch lib batch).run (E.engine.wire iso) e).result = .ok lastSeq) :
    E.queue ((src.confirmBatch lib batch).run (E.engine.wire iso) e).state = (E.queue e).confirm batch.nextSeq := by
  obtain ⟨hresult, hstate, -⟩ := confirmBatch_performs src iso E.engine batch e
  rw [hresult] at hx
  rcases hanswer : (E.engine (src.confirmOperation batch.nextSeq) e).1 with f | reply <;> rw [hanswer] at hx
  · cases hx
  · rw [hstate]
    exact E.confirmed _ e reply hanswer

/-- Whatever came of it, the engine has confirmed or has not. -/
private theorem confirmBatch_cases (iso : IsoText times) (e : σ) (batch : PendingBatch) :
    E.queue ((src.confirmBatch lib batch).run (E.engine.wire iso) e).state = E.queue e ∨
      E.queue ((src.confirmBatch lib batch).run (E.engine.wire iso) e).state =
        (E.queue e).confirm batch.nextSeq := by
  rw [(confirmBatch_performs src iso E.engine batch e).2.1]
  rcases hanswer : (E.engine (src.confirmOperation batch.nextSeq) e).1 with f | reply
  · exact E.lost _ e f hanswer
  · exact Or.inr (E.confirmed _ e reply hanswer)

end PollingSource

section
variable {src : PollingSource} {s t : PollingState} {batch batch' : PendingBatch} {rest : List PendingEvent}
  {allOk : Bool} {l : PollingLabel}

private theorem PollingSource.finish_pc : (src.finish s batch).pc ≠ .confirming batch' := by
  unfold PollingSource.finish
  cases batch.drained <;> simp

private theorem PollingSource.feedItems_confirming (h : (src.feedItems s batch rest allOk).pc = .confirming batch') :
    src.config.confirm = .auto := by
  cases rest with
  | cons item rest => cases h
  | nil =>
    rw [PollingSource.feedItems] at h
    split at h
    · next hc =>
      simp only [Bool.and_eq_true, decide_eq_true_eq] at hc
      exact hc.1.1
    · exact absurd h finish_pc

/-- Only in `ConfirmMode.AUTO` does the source confirm. -/
private theorem PollingSource.Step.confirming_auto (h : src.Step s l t) (hpc : t.pc = .confirming batch) :
    src.config.confirm = .auto := by
  cases h with
  | polled | fed => exact feedItems_confirming hpc
  | confirmed => exact absurd hpc finish_pc
  | _ => cases hpc

end

section
variable {σ : Type} {s : QueueState σ} {t : PollingState} {α : Type} {op : Operation}
  {x : Prog.Outcome HttpRequest (fun _ => HttpAnswer) RequestFailure σ α}

private theorem QueueState.mem_exchanged (hx : x.trace.map (fun ev => Operation.ofRequest ev.1) = [some op])
    {r : HttpRequest} (hr : r ∈ (s.exchanged x t).requests) : r ∈ s.requests ∨ Operation.ofRequest r = some op := by
  refine (List.mem_append.1 hr).imp_right fun hr => ?_
  obtain ⟨ev, hev, rfl⟩ := List.mem_map.1 hr
  have hmem : Operation.ofRequest ev.1 ∈ x.trace.map fun ev => Operation.ofRequest ev.1 :=
    List.mem_map.2 ⟨ev, hev, rfl⟩
  rw [hx] at hmem
  exact List.mem_singleton.1 hmem

private theorem QueueState.exists_exchanged (hx : x.trace.map (fun ev => Operation.ofRequest ev.1) = [some op]) :
    ∃ r ∈ (s.exchanged x t).requests, Operation.ofRequest r = some op := by
  obtain ⟨ev, hev, h⟩ := List.mem_map.1 (hx ▸ List.mem_singleton_self (some op))
  exact ⟨ev.1, List.mem_append_right _ (List.mem_map.2 ⟨ev, hev, rfl⟩), h⟩

end

/-! ### What holds of a run -/

/-- The source and the queue are in a state of their own run, in which all that was confirmed was named, and all that
was settled dealt with. -/
structure QueueInv {lib : ClientLib} {times : Timestamps} {σ : Type} (src : PollingSource)
    (E : src.QueueEngine lib times σ) (s : QueueState σ) (c : ConfirmState) : Prop where
  confirm : ConfirmInv src c
  source : c.source = s.source
  queue : E.queue s.engine = ⟨c.log, c.confirmed⟩
  settled : ∀ n ∈ c.settled, ∃ x ∈ c.log, x.seq = n ∧ s.DealtWith x
  confirms : ∀ n ∈ c.confirms, s.Named src n
  requests : ∀ r ∈ s.requests, Operation.ofRequest r = some src.pollOperation ∨
    src.config.confirm = .auto ∧ ∃ x ∈ c.log, Operation.ofRequest r = some (src.confirmOperation (x.seq + 1)) ∧
      ∀ y ∈ c.log, y.seq ≤ x.seq → s.Accounted src y
  auto : ∀ batch, s.source.pc = .confirming batch → src.config.confirm = .auto

section
variable {lib : ClientLib} {times : Timestamps} {σ : Type} {src : PollingSource} {iso : IsoText times}
  {E : src.QueueEngine lib times σ} {s s' : QueueState σ} {c c' : ConfirmState} {t : PollingState}

private theorem QueueState.DealtWith.mono {x : PendingEvent} (h : s.DealtWith x) (hfed : s.fed ⊆ s'.fed) :
    s'.DealtWith x := by
  obtain ⟨result, hm, hr⟩ := h
  exact ⟨result, hfed hm, hr⟩

private theorem QueueState.Named.mono {seq : Int} (h : s.Named src seq) (hreq : s.requests ⊆ s'.requests) :
    s'.Named src seq := by
  obtain ⟨r, hm, hr⟩ := h
  exact ⟨r, hreq hm, hr⟩

private theorem QueueState.Accounted.mono {x : PendingEvent} (h : s.Accounted src x) (hfed : s.fed ⊆ s'.fed)
    (hreq : s.requests ⊆ s'.requests) : s'.Accounted src x :=
  h.imp_right (Or.imp (fun h => h.mono hfed) fun h => h.mono hreq)

private theorem QueueInv.dealtWith {x : PendingEvent} (h : QueueInv src E s c) (hx : x ∈ c.log)
    (hs : x.seq ∈ c.settled) : s.DealtWith x := by
  obtain ⟨y, hy, hseq, hdealt⟩ := h.settled _ hs
  obtain rfl := h.confirm.log.inj hy hx hseq
  exact hdealt

/-- Every event up to the confirmed `seq` is accounted for. -/
private theorem QueueInv.accounted {x : PendingEvent} (h : QueueInv src E s c) (hx : x ∈ c.log)
    (hle : x.seq ≤ c.confirmed) : s.Accounted src x :=
  (h.confirm.processed x hx hle).imp_right (Or.imp (h.dealtWith hx) (h.confirms _))

/-- A `confirm_read` names the `seq` behind an event up to which all are accounted for. -/
private theorem QueueInv.confirming {batch : PendingBatch} (h : QueueInv src E s c)
    (hpc : s.source.pc = .confirming batch) :
    ∃ x ∈ c.log, batch.nextSeq = x.seq + 1 ∧ ∀ y ∈ c.log, y.seq ≤ x.seq → s.Accounted src y := by
  have hpc' : c.source.pc = .confirming batch := by rw [h.source, hpc]
  have hb : c.source.pc.batch = some batch := by rw [hpc']; rfl
  obtain ⟨-, hall⟩ := h.confirm.batch.confirming batch hpc'
  obtain ⟨last, hmem, -, hlog, -, hnext⟩ := h.confirm.exists_last hpc'
  refine ⟨last, hlog, hnext, fun y hy hle => ?_⟩
  rcases le_or_gt y.seq c.confirmed with hc | hc
  · exact h.accounted hy hc
  · -- the batch has no gaps
    have hprefix : batch.items <+: Log.behind PendingEvent.seq c.confirmed c.log :=
      (h.confirm.batch.items batch hb).trans (window_isPart ..)
    have hshown : y ∈ batch.items :=
      (h.confirm.log.behind c.confirmed).mem_shown hprefix hmem (Log.mem_behind.2 ⟨hy, hc⟩) hle
    exact Or.inr (Or.inl (h.dealtWith hy (hall y hshown)))

/-- A step of both.  Of the new settled, confirmed and sent it is to be said why they are in order. -/
private theorem QueueInv.move {l : ConfirmLabel} (h : QueueInv src E s c) (hstep : src.ConfirmStep c l c')
    (hsource : c'.source = s'.source) (hqueue : E.queue s'.engine = ⟨c'.log, c'.confirmed⟩)
    (hlog : c.log ⊆ c'.log) (hnew : ∀ y ∈ c'.log, y ∈ c.log ∨ ∀ x ∈ c.log, x.seq < y.seq)
    (hfed : s.fed ⊆ s'.fed) (hreq : s.requests ⊆ s'.requests)
    (hsettled : ∀ n ∈ c'.settled, n ∈ c.settled ∨ ∃ x ∈ c'.log, x.seq = n ∧ s'.DealtWith x)
    (hconfirms : ∀ n ∈ c'.confirms, n ∈ c.confirms ∨ s'.Named src n)
    (hsent : ∀ r ∈ s'.requests, r ∈ s.requests ∨ Operation.ofRequest r = some src.pollOperation ∨
      ∃ batch, s.source.pc = .confirming batch ∧
        Operation.ofRequest r = some (src.confirmOperation batch.nextSeq))
    (hauto : ∀ batch, s'.source.pc = .confirming batch → src.config.confirm = .auto) : QueueInv src E s' c' where
  confirm := h.confirm.step hstep
  source := hsource
  queue := hqueue
  settled := fun n hn => by
    rcases hsettled n hn with hn | hn
    · obtain ⟨x, hx, hseq, hdealt⟩ := h.settled n hn
      exact ⟨x, hlog hx, hseq, hdealt.mono hfed⟩
    · exact hn
  confirms := fun n hn => (hconfirms n hn).elim (fun hn => (h.confirms n hn).mono hreq) id
  requests := by
    -- what comes later lies behind the event
    have grown : ∀ x ∈ c.log, (∀ y ∈ c.log, y.seq ≤ x.seq → s.Accounted src y) →
        ∀ y ∈ c'.log, y.seq ≤ x.seq → s'.Accounted src y := fun x hx hall y hy hle => by
      rcases hnew y hy with hy | hy
      · exact (hall y hy hle).mono hfed hreq
      · exact absurd (hy x hx) (not_lt.2 hle)
    intro r hr
    rcases hsent r hr with hr | hr | ⟨batch, hpc, hr⟩
    · rcases h.requests r hr with hr | ⟨hauto, x, hx, hr, hall⟩
      · exact Or.inl hr
      · exact Or.inr ⟨hauto, x, hlog hx, hr, grown x hx hall⟩
    · exact Or.inl hr
    · obtain ⟨x, hx, hnext, hall⟩ := h.confirming hpc
      exact Or.inr ⟨h.auto batch hpc, x, hlog hx, by rw [hr, hnext], grown x hx hall⟩
  auto := hauto

/-- The source goes on, and the queue stays as it is. -/
private theorem QueueInv.pass {l : ConfirmLabel} (h : QueueInv src E s c)
    (hstep : src.ConfirmStep c l { c with source := t, acknowledged := false }) (hsource : s'.source = t)
    (hqueue : E.queue s'.engine = E.queue s.engine) (hfed : s.fed ⊆ s'.fed) (hreq : s.requests ⊆ s'.requests)
    (hsent : ∀ r ∈ s'.requests, r ∈ s.requests ∨ Operation.ofRequest r = some src.pollOperation ∨
      ∃ batch, s.source.pc = .confirming batch ∧
        Operation.ofRequest r = some (src.confirmOperation batch.nextSeq))
    (hauto : ∀ batch, t.pc = .confirming batch → src.config.confirm = .auto) :
    ∃ c', QueueInv src E s' c' :=
  ⟨_, h.move hstep hsource.symm (hqueue.trans h.queue) (List.Subset.refl _) (fun _ hy => Or.inl hy) hfed hreq
    (fun _ hn => Or.inl hn) (fun _ hn => Or.inl hn) hsent (hsource ▸ hauto)⟩

/-- The queue is confirmed. -/
private theorem QueueInv.confirmed {l : ConfirmLabel} {batch : PendingBatch}
    {x : Prog.Outcome HttpRequest (fun _ => HttpAnswer)
      RequestFailure σ Int} (h : QueueInv src E s c) (hpc : s.source.pc = .confirming batch)
    (hx : x.trace.map (fun ev => Operation.ofRequest ev.1) = [some (src.confirmOperation batch.nextSeq)])
    (hqueue : E.queue x.state = (E.queue s.engine).confirm batch.nextSeq)
    (hstep : src.ConfirmStep c l (c.confirm t batch))
    (hauto : ∀ batch, t.pc = .confirming batch → src.config.confirm = .auto) :
    QueueInv src E (s.exchanged x t) (c.confirm t batch) := by
  refine h.move hstep rfl ?_ (List.Subset.refl _) (fun _ hy => Or.inl hy) (List.Subset.refl _)
    (List.subset_append_left ..) (fun _ hn => Or.inl hn) (fun n hn => ?_) (fun r hr => ?_) hauto
  · show E.queue x.state = _
    rw [hqueue, h.queue]
    rfl
  · rcases List.mem_cons.1 hn with rfl | hn
    · exact Or.inr (QueueState.exists_exchanged hx)
    · exact Or.inl hn
  · exact (QueueState.mem_exchanged hx hr).imp_right fun hr => Or.inr ⟨batch, hpc, hr⟩

/-- An event is fed. -/
private theorem QueueInv.fed {event : ClientEvent} {x : Except Exn DispatchResult} (h : QueueInv src E s c)
    (hstep : src.Step s.source (.fed event x) t) :
    ∃ c', QueueInv src E { s with source := t, fed := s.fed ++ [(event, x)] } c' := by
  have hfed : s.fed ⊆ s.fed ++ [(event, x)] := List.subset_append_left ..
  have hstep' : src.Step c.source (.fed event x) t := h.source ▸ hstep
  cases hstep with
  | feedRaises e hpc =>
    exact h.pass (.feedRaises hstep') rfl rfl hfed (List.Subset.refl _) (fun _ hr => Or.inl hr)
      fun _ hpc => by cases hpc
  | @fed batch item rest allOk result hpc =>
    have hpc' : c.source.pc = .feeding batch item rest allOk := by rw [h.source, hpc]
    have hb : c.source.pc.batch = some batch := by rw [hpc']; rfl
    obtain ⟨before, hitems, -⟩ := h.confirm.batch.feeding _ _ _ _ hpc'
    obtain ⟨hlog, -⟩ := h.confirm.mem_batch hb (x := item) (by simp [hitems])
    refine ⟨_, h.move (.fed hpc' hstep') rfl h.queue (List.Subset.refl _) (fun _ hy => Or.inl hy) hfed
      (List.Subset.refl _) (fun n hn => ?_) (fun _ hn => Or.inl hn) (fun _ hr => Or.inl hr)
      fun _ => PollingSource.feedItems_confirming⟩
    dsimp only at hn
    split at hn
    · exact Or.inl hn
    · next hout =>
      rcases List.mem_cons.1 hn with rfl | hn
      · exact Or.inr ⟨item, hlog, rfl, result, List.mem_append_right _ (List.mem_singleton_self _), hout⟩
      · exact Or.inl hn

private theorem QueueInv.step {l : QueueLabel} (h : QueueInv src E s c) (hstep : src.QueueStep iso E s l s') :
    ∃ c', QueueInv src E s' c' := by
  have same : ∀ r ∈ s.requests, r ∈ s.requests ∨ Operation.ofRequest r = some src.pollOperation ∨
      ∃ batch, s.source.pc = .confirming batch ∧
        Operation.ofRequest r = some (src.confirmOperation batch.nextSeq) := fun r hr => Or.inl hr
  cases hstep with
  | @polled t raw batch hx hb hstep =>
    have hanswers : c.Answers src.config.limit batch := by
      have hq := PollingSource.fetchBatch_answers E hx hb
      rw [h.queue] at hq
      exact ⟨hq.items, hq.nextSeq, hq.lastReadSeq⟩
    refine h.pass (.polled hanswers (h.source ▸ hstep)) rfl (PollingSource.fetchBatch_queue E) (List.Subset.refl _)
      (List.subset_append_left ..) (fun r hr => ?_) fun _ => hstep.confirming_auto
    have hperforms := (PollingSource.fetchBatch_performs src iso E.engine s.engine).2.2
    exact (QueueState.mem_exchanged hperforms hr).imp_right Or.inl
  | pollRaises hstep =>
    refine h.pass (.pollRaises (h.source ▸ hstep)) rfl (PollingSource.fetchBatch_queue E) (List.Subset.refl _)
      (List.subset_append_left ..) (fun r hr => ?_) fun _ => hstep.confirming_auto
    have hperforms := (PollingSource.fetchBatch_performs src iso E.engine s.engine).2.2
    exact (QueueState.mem_exchanged hperforms hr).imp_right Or.inl
  | pollUnsent hstep =>
    exact h.pass (.pollRaises (h.source ▸ hstep)) rfl rfl (List.Subset.refl _) (List.Subset.refl _) same
      fun _ => hstep.confirming_auto
  | fed hstep => exact h.fed hstep
  | confirmed hpc hx hstep =>
    have hpc' := h.source ▸ hpc
    exact ⟨_, h.confirmed hpc (PollingSource.confirmBatch_performs src iso E.engine _ s.engine).2.2
      (PollingSource.confirmBatch_queue E hx) (.confirmed hpc' (h.source ▸ hstep)) fun _ => hstep.confirming_auto⟩
  | @confirmRaises t batch e hpc hstep =>
    have hpc' := h.source ▸ hpc
    have htrace := (PollingSource.confirmBatch_performs src iso E.engine batch s.engine).2.2
    rcases PollingSource.confirmBatch_cases E iso s.engine batch with hqueue | hqueue
    · refine h.pass (.confirmRaises (h.source ▸ hstep)) rfl hqueue (List.Subset.refl _) (List.subset_append_left ..)
        (fun r hr => ?_) fun _ => hstep.confirming_auto
      exact (QueueState.mem_exchanged htrace hr).imp_right fun hr => Or.inr ⟨batch, hpc, hr⟩
    · exact ⟨_, h.confirmed hpc htrace hqueue (.lost hpc' (h.source ▸ hstep)) fun _ => hstep.confirming_auto⟩
  | confirmUnsent hstep =>
    exact h.pass (.confirmRaises (h.source ▸ hstep)) rfl rfl (List.Subset.refl _) (List.Subset.refl _) same
      fun _ => hstep.confirming_auto
  | run hstep =>
    exact h.pass (.run (h.source ▸ hstep)) rfl rfl (List.Subset.refl _) (List.Subset.refl _) same
      fun _ => hstep.confirming_auto
  | woken hstep =>
    exact h.pass (.woken (h.source ▸ hstep)) rfl rfl (List.Subset.refl _) (List.Subset.refl _) same
      fun _ => hstep.confirming_auto
  | @grows engine new hgrows =>
    rw [h.queue] at hgrows
    generalize hq : E.queue engine = q at hgrows
    cases hgrows with
    | same => exact ⟨c, { h with queue := hq, confirm := h.confirm }⟩
    | append hitem =>
      refine ⟨_, h.move (.append hitem) h.source hq (List.subset_append_left ..) (fun y hy => ?_) (List.Subset.refl _)
        (List.Subset.refl _) (fun _ hn => Or.inl hn) (fun _ hn => Or.inl hn) same h.auto⟩
      exact (List.mem_append.1 hy).imp_right fun hy => by rwa [List.mem_singleton.1 hy]

private theorem queueInv_start {e : σ} (hlog : Log.Increasing PendingEvent.seq (E.queue e).log)
    (h0 : (E.queue e).confirmed = 0) : QueueInv src E (.start e) (.start (E.queue e).log) where
  confirm := confirmInv_start hlog
  source := rfl
  queue := by
    show E.queue e = ⟨(E.queue e).log, 0⟩
    rw [← h0]
  settled := by simp [ConfirmState.start]
  confirms := by simp [ConfirmState.start]
  requests := by simp [QueueState.start]
  auto := fun batch hpc => by cases hpc

/-- In every run of the source over HTTP against an engine that keeps a queue, of which nothing is confirmed at first:
every event up to the confirmed `seq` is accounted for;  every request is a poll, or, in `ConfirmMode.AUTO`, a
`confirm_read` that names the `seq` behind an event up to which all are accounted for;  and what is fed is a part of the
queue without gaps, right behind the confirmed `seq`. -/
theorem polling_queue (iso : IsoText times) (E : src.QueueEngine lib times σ) {e : σ}
    {path : List (QueueLabel × QueueState σ)} (hlog : Log.Increasing PendingEvent.seq (E.queue e).log)
    (h0 : (E.queue e).confirmed = 0) (hrun : Transition.Run (src.QueueStep iso E) (.start e) path) :
    let s := Transition.last (.start e) path
    (∀ x ∈ (E.queue s.engine).log, x.seq ≤ (E.queue s.engine).confirmed → s.Accounted src x) ∧
    (∀ r ∈ s.requests, Operation.ofRequest r = some src.pollOperation ∨
      src.config.confirm = .auto ∧ ∃ x ∈ (E.queue s.engine).log,
        Operation.ofRequest r = some (src.confirmOperation (x.seq + 1)) ∧
        ∀ y ∈ (E.queue s.engine).log, y.seq ≤ x.seq → s.Accounted src y) ∧
    ∀ batch item rest allOk, s.source.pc = .feeding batch item rest allOk →
      (∃ before, batch.items = before ++ item :: rest) ∧
        batch.items <+: Log.behind PendingEvent.seq (E.queue s.engine).confirmed (E.queue s.engine).log := by
  intro s
  have hstep : ∀ s l s', (∃ c, QueueInv src E s c) → src.QueueStep iso E s l s' → ∃ c, QueueInv src E s' c :=
    fun _ _ _ ⟨_, h⟩ hstep => h.step hstep
  obtain ⟨c, h⟩ : ∃ c, QueueInv src E s c := (hrun.always hstep ⟨_, queueInv_start hlog h0⟩).last
  rw [h.queue]
  refine ⟨fun x hx hle => h.accounted hx hle, h.requests, fun batch item rest allOk hpc => ?_⟩
  rw [← h.source] at hpc
  obtain ⟨before, hitems, -⟩ := h.confirm.batch.feeding batch item rest allOk hpc
  have hb : c.source.pc.batch = some batch := by rw [hpc]; rfl
  exact ⟨⟨before, hitems⟩, (h.confirm.batch.items batch hb).trans (window_isPart ..)⟩

end

/-! ### Lots in the queue -/

/-- The lots for sale, and the last `seq` confirmed. -/
abbrev Lots := List Int × Int

def Lots.queue (lots : Lots) : Queue := ⟨lots.1.map lot, lots.2⟩

/-- The lots of the next batch. -/
def Lots.pending (lots : Lots) (limit : Int) : List Int :=
  (Log.behind id lots.2 lots.1).take limit.toNat

/-- `next_seq` and `last_read_seq` are those of the batch. -/
def Lots.batch (lots : Lots) (limit : Int) : Models.PendingBatch where
  subscriptionId := .str "sub-1"
  items := (lots.pending limit).map fun n => ⟨.int n, .str "new_lot", .obj []⟩
  nextSeq := .int (((lots.pending limit).getLast?.map (· + 1)).getD lots.2)
  lastReadSeq := .int lots.2
  drained := .bool true
  committed := .bool false

/-- An engine for this one subscription. -/
def lotEngine : Engine clientLib oneTime Lots
  | .pollPending _ _ limit _, lots => (.ok (lots.batch limit), lots)
  | .confirmRead _ upToSeq, lots => (.ok (max lots.2 upToSeq), (lots.1, max lots.2 upToSeq))
  | _, lots => (.error (.refused 403 "forbidden" [] none "{}" (by decide) rfl), lots)

private theorem Lots.batch_typed (lots : Lots) (limit : Int) :
    (lots.batch limit).typed = some ⟨"sub-1", (lots.pending limit).map lot,
      ((lots.pending limit).getLast?.map (· + 1)).getD lots.2, lots.2, true, false⟩ := by
  have hitems : ∀ l : List Int, (l.map fun n => (⟨.int n, .str "new_lot", .obj []⟩ : Models.PendingEvent)).mapM
      Models.PendingEvent.typed = some (l.map lot) := by
    intro l
    induction l with
    | nil => rfl
    | cons n l ih =>
      rw [List.map_cons, List.mapM_cons, ih]
      rfl
  simp only [Models.PendingBatch.typed, Lots.batch, hitems]
  rfl

private theorem Lots.window_queue (lots : Lots) (limit : Int) :
    window limit lots.queue.confirmed lots.queue.log = (lots.pending limit).map lot := by
  rw [window, Lots.pending, List.map_take, Log.behind, Log.behind, Lots.queue, List.filter_map]
  rfl

def lotQueueEngine : sellerPolling.QueueEngine clientLib oneTime Lots where
  engine := lotEngine
  queue := Lots.queue
  polled := fun _ => rfl
  answers := by
    intro lots reply h
    obtain rfl : lots.batch 1 = reply := Except.ok.inj h
    refine ⟨_, lots.batch_typed 1, (lots.window_queue 1).symm, fun x hx => ?_, rfl⟩
    rw [List.getLast?_map] at hx
    obtain ⟨n, hn, rfl⟩ := Option.map_eq_some_iff.1 hx
    show ((lots.pending 1).getLast?.map (· + 1)).getD lots.2 = n + 1
    rw [hn]
    rfl
  confirmed := fun _ _ _ _ => rfl
  lost := fun _ _ _ h => by cases h

def oneTimeText : IsoText oneTime := ⟨fun _ => "2026-07-02T13:58:11.685688Z", fun _ => rfl⟩

private theorem lot_polled :
    ∃ path, Transition.Run (sellerPolling.QueueStep oneTimeText lotQueueEngine) (.start ([1, 2], 0)) path ∧
      (Transition.last (.start ([1, 2], 0)) path).engine = (([1, 2], 2) : Lots) ∧
      (Transition.last (.start ([1, 2], 0)) path).fed.length = 1 := by
  obtain ⟨hpolled, hengine, -⟩ := sellerPolling.fetchBatch_performs oneTimeText lotEngine ([1, 2], 0)
  obtain ⟨hconfirmed, hengine', -⟩ := sellerPolling.confirmBatch_performs oneTimeText lotEngine
    ⟨"sub-1", [lot 1], 2, 0, true, false⟩ ((sellerPolling.fetchBatch clientLib).run (lotEngine.wire oneTimeText)
      ([1, 2], 0)).state
  rw [hengine] at hconfirmed hengine'
  exact ⟨[(.source .run, _), (.source (.polled (.ok ⟨"sub-1", [lot 1], 2, 0, true, false⟩)), _),
    (.source (.fed _ (.ok ⟨.handled, .fromPending (lot 1) .polling, none⟩)), _), (.source (.confirmed (.ok 2)), _)],
    ⟨.run (.run trivial), .polled hpolled (Lots.batch_typed ([1, 2], 0) 1) (.polled _ rfl), .fed (.fed _ rfl),
      .confirmed rfl hconfirmed (.confirmed _ rfl), trivial⟩, hengine', rfl⟩

/-- Of two lots the first is polled, fed and confirmed, and the second is confirmed with it. -/
theorem polling_queue_lot :
    ∃ path, Transition.Run (sellerPolling.QueueStep oneTimeText lotQueueEngine) (.start ([1, 2], 0)) path ∧
      (Transition.last (.start ([1, 2], 0)) path).fed.length = 1 ∧
      (Transition.last (.start ([1, 2], 0)) path).Accounted sellerPolling (lot 2) := by
  obtain ⟨path, hrun, hengine, hfed⟩ := lot_polled
  have hlog : Log.Increasing PendingEvent.seq (lotQueueEngine.queue ([1, 2], 0)).log := by
    simp [lotQueueEngine, Lots.queue, Log.Increasing, lot]
  obtain ⟨haccounted, -⟩ := polling_queue oneTimeText lotQueueEngine hlog rfl hrun
  rw [hengine] at haccounted
  exact ⟨path, hrun, hfed, haccounted _ (List.mem_cons_of_mem _ (List.mem_singleton_self _)) (le_refl _)⟩

end EventusSdk
