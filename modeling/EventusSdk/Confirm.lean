import EventusSdk.Dispatcher
import EventusSdk.Lib.Log
import EventusSdk.Lib.Transition
import EventusSdk.Polling

/-!
# Confirmed and fed events

The polling source against an engine that keeps a log and, for the subscription, the last confirmed `seq`: a poll
returns the first events behind it, and `confirm_read` moves it, the given `seq` included.  The source confirms the
`next_seq` of a batch, which is one more than the last `seq` it has fed.  So whatever event has that `seq` counts as
processed without having been fed, and this is the only way for an event to be confirmed unfed.
-/

namespace EventusSdk

/-- The source and the engine.  `confirms` records every `seq` that was confirmed, `settled` the `seq` of every event
that was fed with an outcome other than `ERRORED`; `acknowledged` says that the last step was a `confirm_read`. -/
structure ConfirmState where
  source : PollingState
  log : List PendingEvent
  confirmed : Int
  confirms : List Int
  settled : List Int
  acknowledged : Bool

/-- A step of the source (of `confirm_read`, one that came back), a `confirm_read` whose answer was lost, or a new
event. -/
inductive ConfirmLabel where
  | source (l : PollingLabel)
  | lost (e : Exn)
  | append (item : PendingEvent)

def ConfirmState.start (log : List PendingEvent) : ConfirmState := ⟨{}, log, 0, [], [], false⟩

/-- What a poll returns: the first events behind the confirmed `seq`, up to the limit. -/
def window (limit confirmed : Int) (log : List PendingEvent) : List PendingEvent :=
  (Log.behind PendingEvent.seq confirmed log).take limit.toNat

/-- The engine's answer to a poll. -/
structure ConfirmState.Answers (s : ConfirmState) (limit : Int) (batch : PendingBatch) : Prop where
  items : batch.items = window limit s.confirmed s.log
  nextSeq : ∀ x, batch.items.getLast? = some x → batch.nextSeq = x.seq + 1
  lastReadSeq : batch.lastReadSeq = s.confirmed

/-- `confirm_read` for a batch. -/
def ConfirmState.confirm (s : ConfirmState) (source : PollingState) (batch : PendingBatch) : ConfirmState :=
  { s with
    source
    confirmed := max s.confirmed batch.nextSeq
    confirms := batch.nextSeq :: s.confirms
    acknowledged := true }

namespace PollingSource

variable (src : PollingSource)

inductive ConfirmStep : ConfirmState → ConfirmLabel → ConfirmState → Prop where
  | polled {s : ConfirmState} {t : PollingState} {batch : PendingBatch} (ha : s.Answers src.config.limit batch)
      (h : src.Step s.source (.polled (.ok batch)) t) :
      ConfirmStep s (.source (.polled (.ok batch))) { s with source := t, acknowledged := false }
  | fed {s : ConfirmState} {t : PollingState} {batch : PendingBatch} {item : PendingEvent} {rest : List PendingEvent}
      {allOk : Bool} {event : ClientEvent} {result : DispatchResult}
      (hpc : s.source.pc = .feeding batch item rest allOk) (h : src.Step s.source (.fed event (.ok result)) t) :
      ConfirmStep s (.source (.fed event (.ok result)))
        { s with
          source := t
          settled := if result.outcome = .errored then s.settled else item.seq :: s.settled
          acknowledged := false }
  | confirmed {s : ConfirmState} {t : PollingState} {batch : PendingBatch} {lastSeq : Int}
      (hpc : s.source.pc = .confirming batch) (h : src.Step s.source (.confirmed (.ok lastSeq)) t) :
      ConfirmStep s (.source (.confirmed (.ok lastSeq))) (s.confirm t batch)
  | lost {s : ConfirmState} {t : PollingState} {batch : PendingBatch} {e : Exn}
      (hpc : s.source.pc = .confirming batch) (h : src.Step s.source (.confirmed (.error e)) t) :
      ConfirmStep s (.lost e) (s.confirm t batch)
  | run {s : ConfirmState} {t : PollingState} (h : src.Step s.source .run t) :
      ConfirmStep s (.source .run) { s with source := t, acknowledged := false }
  | woken {s : ConfirmState} {t : PollingState} {x : Except Exn Unit} (h : src.Step s.source (.woken x) t) :
      ConfirmStep s (.source (.woken x)) { s with source := t, acknowledged := false }
  | pollRaises {s : ConfirmState} {t : PollingState} {e : Exn} (h : src.Step s.source (.polled (.error e)) t) :
      ConfirmStep s (.source (.polled (.error e))) { s with source := t, acknowledged := false }
  | feedRaises {s : ConfirmState} {t : PollingState} {event : ClientEvent} {e : Exn}
      (h : src.Step s.source (.fed event (.error e)) t) :
      ConfirmStep s (.source (.fed event (.error e))) { s with source := t, acknowledged := false }
  | confirmRaises {s : ConfirmState} {t : PollingState} {e : Exn} (h : src.Step s.source (.confirmed (.error e)) t) :
      ConfirmStep s (.source (.confirmed (.error e))) { s with source := t, acknowledged := false }
  | append {s : ConfirmState} {item : PendingEvent} (h : ∀ x ∈ s.log, x.seq < item.seq) :
      ConfirmStep s (.append item) { s with log := s.log ++ [item], acknowledged := false }

end PollingSource

/-- After a `confirm_read`, every event of the log up to the confirmed `seq` has been fed with an outcome other than
`ERRORED`. -/
def ConfirmedFed (s : ConfirmState) : Prop :=
  s.acknowledged = true → ∀ x ∈ s.log, x.seq ≤ s.confirmed → x.seq ∈ s.settled

/-- If the step is a `confirm_read`, no event of the log has the `seq` confirmed by it or by an earlier one, nor a
`seq` below `1`, where the engine starts. -/
def NextSeqFree (s : ConfirmState) : ConfirmLabel → Prop
  | .source (.confirmed (.ok _)) | .lost _ => ∀ batch, s.source.pc = .confirming batch →
      ∀ x ∈ s.log, 0 < x.seq ∧ x.seq ∉ batch.nextSeq :: s.confirms
  | _ => True

/-! ### What holds of a run -/

/-- The items a settled event behind the confirmed `seq` is one of: those of the batch at hand, else those of the
next. -/
def PollingPc.items (pc : PollingPc) (window : List PendingEvent) : List PendingEvent :=
  match pc.batch with
  | some batch => batch.items
  | none => window

/-- The batch at hand is part of what a poll would return now; its items before the one at hand are settled if
`all_ok`, and all of them when it is being confirmed. -/
structure BatchInv (window : List PendingEvent) (settled : List Int) (pc : PollingPc) : Prop where
  items : ∀ batch, pc.batch = some batch → batch.items <+: window
  nextSeq : ∀ batch, pc.batch = some batch → ∀ x, batch.items.getLast? = some x → batch.nextSeq = x.seq + 1
  feeding : ∀ batch item rest allOk, pc = .feeding batch item rest allOk →
    ∃ before, batch.items = before ++ item :: rest ∧ (allOk = true → ∀ x ∈ before, x.seq ∈ settled)
  confirming : ∀ batch, pc = .confirming batch → batch.items ≠ [] ∧ ∀ x ∈ batch.items, x.seq ∈ settled

structure ConfirmInv (src : PollingSource) (s : ConfirmState) : Prop where
  log : Log.Increasing PendingEvent.seq s.log
  nonneg : 0 ≤ s.confirmed
  edge : s.confirmed = 0 ∨ s.confirmed ∈ s.confirms ∧ ∃ x ∈ s.log, x.seq + 1 = s.confirmed
  confirms : ∀ n ∈ s.confirms, n ≤ s.confirmed
  processed : ∀ x ∈ s.log, x.seq ≤ s.confirmed → x.seq ≤ 0 ∨ x.seq ∈ s.settled ∨ x.seq ∈ s.confirms
  settled : ∀ n ∈ s.settled, 0 < n ∧ n ∉ s.confirms
  recent : ∀ n ∈ s.settled, n ≤ s.confirmed ∨
    ∃ x ∈ s.source.pc.items (window src.config.limit s.confirmed s.log), x.seq = n
  batch : BatchInv (window src.config.limit s.confirmed s.log) s.settled s.source.pc

theorem window_isPart (limit confirmed : Int) (log : List PendingEvent) :
    window limit confirmed log <+: Log.behind PendingEvent.seq confirmed log := List.take_prefix ..

private theorem window_prefix_append (limit confirmed : Int) (log new : List PendingEvent) :
    window limit confirmed log <+: window limit confirmed (log ++ new) :=
  List.prefix_take_iff.2
    ⟨(window_isPart ..).trans (Log.behind_prefix_append confirmed log new), List.length_take_le ..⟩

section
variable {w w' : List PendingEvent} {settled settled' : List Int} {pc pc' : PollingPc} {batch : PendingBatch}

private theorem PollingPc.items_of_none (h : pc.batch = none) : pc.items w = w := by
  rw [PollingPc.items, h]

private theorem PollingPc.items_of_some (h : pc.batch = some batch) : pc.items w = batch.items := by
  rw [PollingPc.items, h]

private theorem batchInv_of_none (h : pc.batch = none) : BatchInv w settled pc where
  items := fun batch hb => by rw [h] at hb; cases hb
  nextSeq := fun batch hb => by rw [h] at hb; cases hb
  feeding := fun batch item rest allOk hpc => by rw [hpc] at h; cases h
  confirming := fun batch hpc => by rw [hpc] at h; cases h

private theorem BatchInv.items_subset (h : BatchInv w settled pc) : pc.items w ⊆ w := by
  cases hb : pc.batch with
  | none => rw [PollingPc.items_of_none hb]; exact List.Subset.refl _
  | some batch => rw [PollingPc.items_of_some hb]; exact (h.items batch hb).subset

private theorem BatchInv.append (h : BatchInv w settled pc) (hw : w <+: w') : BatchInv w' settled pc :=
  { h with items := fun batch hb => (h.items batch hb).trans hw }

/-- The state after an item, or at the beginning of a batch. -/
private theorem batchInv_feedItems (src : PollingSource) (s : PollingState) {before rest : List PendingEvent}
    {allOk : Bool} (hitems : batch.items = before ++ rest) (hw : batch.items <+: w)
    (hnext : ∀ x, batch.items.getLast? = some x → batch.nextSeq = x.seq + 1)
    (hbefore : allOk = true → ∀ x ∈ before, x.seq ∈ settled) :
    BatchInv w settled (src.feedItems s batch rest allOk).pc ∧
      batch.items ⊆ (src.feedItems s batch rest allOk).pc.items w := by
  -- another item follows, or the batch is confirmed, or it is left
  rcases src.feedItems_cases s batch rest allOk with ⟨item, rest', rfl, h⟩ | ⟨rfl, rfl, hne, h⟩ | h
  · rw [h]
    refine ⟨⟨?_, ?_, ?_, ?_⟩, List.Subset.refl _⟩
    · rintro batch ⟨⟩; exact hw
    · rintro batch ⟨⟩; exact hnext
    · rintro batch item rest allOk ⟨⟩; exact ⟨before, hitems, hbefore⟩
    · rintro batch ⟨⟩
  · rw [h]
    rw [List.append_nil] at hitems
    refine ⟨⟨?_, ?_, ?_, ?_⟩, List.Subset.refl _⟩
    · rintro batch ⟨⟩; exact hw
    · rintro batch ⟨⟩; exact hnext
    · rintro batch item rest allOk ⟨⟩
    · rintro batch ⟨⟩; exact ⟨hne, hitems ▸ hbefore rfl⟩
  · rw [PollingPc.items_of_none h]
    exact ⟨batchInv_of_none h, hw.subset⟩

end

section
variable {src : PollingSource} {s : ConfirmState} {t : PollingState}

/-- The source goes on without a batch, and the engine stays as it is. -/
private theorem ConfirmInv.leave (h : ConfirmInv src s) (ht : t.pc.batch = none) :
    ConfirmInv src { s with source := t, acknowledged := false } where
  log := h.log
  nonneg := h.nonneg
  edge := h.edge
  confirms := h.confirms
  processed := h.processed
  settled := h.settled
  recent := fun n hn => (h.recent n hn).imp_right fun ⟨x, hx, hseq⟩ =>
    ⟨x, by rw [PollingPc.items_of_none ht]; exact h.batch.items_subset hx, hseq⟩
  batch := batchInv_of_none ht

private theorem ConfirmInv.polled {batch : PendingBatch} (h : ConfirmInv src s) (ha : s.Answers src.config.limit batch)
    (hstep : src.Step s.source (.polled (.ok batch)) t) :
    ConfirmInv src { s with source := t, acknowledged := false } := by
  cases hstep with
  | polled _ hpc =>
    have hw : batch.items <+: window src.config.limit s.confirmed s.log :=
      List.prefix_iff_eq_take.2 (by rw [ha.items, List.take_length])
    have hbefore : true = true → ∀ x ∈ ([] : List PendingEvent), x.seq ∈ s.settled := by simp
    obtain ⟨hinv, hsub⟩ := batchInv_feedItems src s.source (List.nil_append _).symm hw ha.nextSeq hbefore
    refine { h with recent := fun n hn => ?_, batch := hinv }
    refine (h.recent n hn).imp_right fun ⟨x, hx, hseq⟩ => ⟨x, hsub ?_, hseq⟩
    have hnone : s.source.pc.batch = none := by rw [hpc]; rfl
    rw [PollingPc.items_of_none hnone] at hx
    rwa [ha.items]

/-- The items of a batch are events of the log behind the confirmed `seq`. -/
theorem ConfirmInv.mem_batch {batch : PendingBatch} {x : PendingEvent} (h : ConfirmInv src s)
    (hb : s.source.pc.batch = some batch) (hx : x ∈ batch.items) : x ∈ s.log ∧ s.confirmed < x.seq :=
  Log.mem_behind.1 ((window_isPart ..).subset ((h.batch.items batch hb).subset hx))

private theorem ConfirmInv.fed {batch : PendingBatch} {item : PendingEvent} {rest : List PendingEvent} {allOk : Bool}
    {event : ClientEvent} {result : DispatchResult} (h : ConfirmInv src s)
    (hpc : s.source.pc = .feeding batch item rest allOk) (hstep : src.Step s.source (.fed event (.ok result)) t) :
    ConfirmInv src { s with
      source := t
      settled := if result.outcome = .errored then s.settled else item.seq :: s.settled
      acknowledged := false } := by
  have hb : s.source.pc.batch = some batch := by rw [hpc]; rfl
  obtain ⟨before, hitems, hbefore⟩ := h.batch.feeding _ _ _ _ hpc
  have hitem : item ∈ batch.items := by simp [hitems]
  obtain ⟨-, hlt⟩ := h.mem_batch hb hitem
  have hrecent : ∀ n ∈ s.settled, n ≤ s.confirmed ∨ ∃ x ∈ batch.items, x.seq = n := by
    have := h.recent
    rwa [PollingPc.items_of_some hb] at this
  cases hstep with
  | fed _ hpc' =>
    cases hpc.symm.trans hpc'
    have hitems' : batch.items = (before ++ [item]) ++ rest := by rw [hitems, List.append_assoc]; rfl
    have hw := h.batch.items batch hb
    have hnext := h.batch.nextSeq batch hb
    split
    · have hfailed : false = true → ∀ x ∈ before ++ [item], x.seq ∈ s.settled := by simp
      obtain ⟨hinv, hsub⟩ := batchInv_feedItems src s.source hitems' hw hnext hfailed
      exact { h with
        recent := fun n hn => (hrecent n hn).imp_right fun ⟨x, hx, hseq⟩ => ⟨x, hsub hx, hseq⟩
        batch := hinv }
    · have hok : allOk = true → ∀ x ∈ before ++ [item], x.seq ∈ item.seq :: s.settled := by
        intro hall x hx
        rcases List.mem_append.1 hx with hx | hx
        · exact List.mem_cons_of_mem _ (hbefore hall x hx)
        · rw [List.mem_singleton.1 hx]
          exact List.mem_cons_self ..
      obtain ⟨hinv, hsub⟩ := batchInv_feedItems src s.source hitems' hw hnext hok
      refine { h with processed := ?_, settled := ?_, recent := ?_, batch := hinv }
      · exact fun x hx hle => (h.processed x hx hle).imp_right (Or.imp_left (List.mem_cons_of_mem _))
      · intro n hn
        rcases List.mem_cons.1 hn with rfl | hn
        · exact ⟨lt_of_le_of_lt h.nonneg hlt, fun hc => absurd (h.confirms _ hc) (not_le.2 hlt)⟩
        · exact h.settled n hn
      · intro n hn
        rcases List.mem_cons.1 hn with rfl | hn
        · exact Or.inr ⟨item, hsub hitem, rfl⟩
        · exact (hrecent n hn).imp_right fun ⟨x, hx, hseq⟩ => ⟨x, hsub hx, hseq⟩

/-- The last event of a batch that is being confirmed. -/
theorem ConfirmInv.exists_last {batch : PendingBatch} (h : ConfirmInv src s) (hpc : s.source.pc = .confirming batch) :
    ∃ last ∈ batch.items, batch.items.getLast? = some last ∧ last ∈ s.log ∧ s.confirmed < last.seq ∧
      batch.nextSeq = last.seq + 1 := by
  have hb : s.source.pc.batch = some batch := by rw [hpc]; rfl
  obtain ⟨hne, -⟩ := h.batch.confirming batch hpc
  obtain ⟨last, hlast⟩ : ∃ last, batch.items.getLast? = some last := ⟨_, List.getLast?_eq_some_getLast hne⟩
  have hmem : last ∈ batch.items := List.mem_of_getLast? hlast
  obtain ⟨hlog, hlt⟩ := h.mem_batch hb hmem
  exact ⟨last, hmem, hlast, hlog, hlt, h.batch.nextSeq batch hb last hlast⟩

/-- What was fed lies below the `seq` that is confirmed. -/
private theorem ConfirmInv.settled_lt_nextSeq {batch : PendingBatch} (h : ConfirmInv src s)
    (hpc : s.source.pc = .confirming batch) {n : Int} (hn : n ∈ s.settled) : n < batch.nextSeq := by
  have hb : s.source.pc.batch = some batch := by rw [hpc]; rfl
  obtain ⟨last, -, hlast, -, hlt, hnext⟩ := h.exists_last hpc
  rcases h.recent n hn with hle | ⟨x, hx, rfl⟩
  · omega
  · rw [PollingPc.items_of_some hb] at hx
    have hsorted : Log.Increasing PendingEvent.seq batch.items :=
      (h.log.behind s.confirmed).sublist ((h.batch.items batch hb).trans (window_isPart ..)).sublist
    have hle := hsorted.le_getLast hlast hx
    omega

/-- A `confirm_read` moves the confirmed `seq` one beyond the last event that was fed. -/
private theorem ConfirmInv.confirm {batch : PendingBatch} (h : ConfirmInv src s) (hpc : s.source.pc = .confirming batch)
    (ht : t.pc.batch = none) : ConfirmInv src (s.confirm t batch) := by
  have hb : s.source.pc.batch = some batch := by rw [hpc]; rfl
  obtain ⟨-, hall⟩ := h.batch.confirming batch hpc
  obtain ⟨last, hmem, -, hlog, hlt, hnext⟩ := h.exists_last hpc
  have hprefix : batch.items <+: Log.behind PendingEvent.seq s.confirmed s.log :=
    (h.batch.items batch hb).trans (window_isPart ..)
  have hmax : max s.confirmed batch.nextSeq = batch.nextSeq := max_eq_right (by omega)
  refine ⟨h.log, ?_, Or.inr ⟨?_, last, hlog, ?_⟩, ?_, ?_, ?_, ?_, batchInv_of_none ht⟩ <;>
    simp only [ConfirmState.confirm, hmax]
  · have := h.nonneg
    omega
  · exact List.mem_cons_self ..
  · exact hnext.symm
  · intro n hn
    rcases List.mem_cons.1 hn with rfl | hn
    · exact le_rfl
    · have := h.confirms n hn
      omega
  · intro x hx hle
    rcases lt_or_ge s.confirmed x.seq with hc | hc
    · rcases eq_or_lt_of_le hle with heq | hlt'
      · exact Or.inr (Or.inr (heq ▸ List.mem_cons_self ..))
      · -- the batch has no gaps
        have hshown : x ∈ batch.items :=
          (h.log.behind s.confirmed).mem_shown hprefix hmem (Log.mem_behind.2 ⟨hx, hc⟩) (by omega)
        exact Or.inr (Or.inl (hall x hshown))
    · exact (h.processed x hx hc).imp_right (Or.imp_right (List.mem_cons_of_mem _))
  · intro n hn
    refine ⟨(h.settled n hn).1, fun hc => ?_⟩
    rcases List.mem_cons.1 hc with rfl | hc
    · exact absurd (h.settled_lt_nextSeq hpc hn) (lt_irrefl _)
    · exact (h.settled n hn).2 hc
  · exact fun n hn => Or.inl (h.settled_lt_nextSeq hpc hn).le

private theorem ConfirmInv.append {item : PendingEvent} (h : ConfirmInv src s) (hitem : ∀ x ∈ s.log, x.seq < item.seq) :
    ConfirmInv src { s with log := s.log ++ [item], acknowledged := false } := by
  have hw := window_prefix_append src.config.limit s.confirmed s.log [item]
  refine ⟨h.log.append hitem, h.nonneg, ?_, h.confirms, fun x hx hle => ?_, h.settled, fun n hn => ?_,
    h.batch.append hw⟩
  · exact h.edge.imp_right (And.imp_right fun ⟨x, hx, hseq⟩ => ⟨x, List.mem_append_left _ hx, hseq⟩)
  · rcases List.mem_append.1 hx with hx | hx
    · exact h.processed x hx hle
    · -- a new event up to the confirmed `seq` has just that `seq`
      rw [List.mem_singleton.1 hx] at hle ⊢
      rcases h.edge with h0 | ⟨hmem, y, hy, hseq⟩
      · exact Or.inl (h0 ▸ hle)
      · have hlt := hitem y hy
        have heq : item.seq = s.confirmed := by
          have hle' : item.seq ≤ s.confirmed := hle
          omega
        exact Or.inr (Or.inr (heq ▸ hmem))
  · refine (h.recent n hn).imp_right fun ⟨x, hx, hseq⟩ => ⟨x, ?_, hseq⟩
    cases hb : s.source.pc.batch with
    | none =>
      rw [PollingPc.items_of_none hb] at hx ⊢
      exact hw.subset hx
    | some batch =>
      rw [PollingPc.items_of_some hb] at hx ⊢
      exact hx

theorem ConfirmInv.step {s' : ConfirmState} {l : ConfirmLabel} (h : ConfirmInv src s)
    (hstep : src.ConfirmStep s l s') : ConfirmInv src s' := by
  cases hstep with
  | polled ha hstep => exact h.polled ha hstep
  | fed hpc hstep => exact h.fed hpc hstep
  | confirmed hpc hstep => exact h.confirm hpc hstep.confirmed_batch
  | lost hpc hstep => exact h.confirm hpc hstep.confirmed_batch
  | run hstep => exact h.leave hstep.run_batch
  | woken hstep => exact h.leave hstep.woken_batch
  | pollRaises hstep => exact h.leave hstep.pollRaises_batch
  | feedRaises hstep => exact h.leave hstep.feedRaises_batch
  | confirmRaises hstep => exact h.leave hstep.confirmed_batch
  | append hitem => exact h.append hitem

theorem confirmInv_start {log : List PendingEvent} (hlog : Log.Increasing PendingEvent.seq log) :
    ConfirmInv src (.start log) where
  log := hlog
  nonneg := le_rfl
  edge := Or.inl rfl
  confirms := by simp [ConfirmState.start]
  processed := fun x _ hle => Or.inl hle
  settled := by simp [ConfirmState.start]
  recent := by simp [ConfirmState.start]
  batch := batchInv_of_none rfl

/-! ### Events confirmed unfed -/

/-- Every event up to the confirmed `seq` has been fed if and only if none has a `seq` that was confirmed. -/
private theorem ConfirmInv.fed_iff (h : ConfirmInv src s) :
    (∀ x ∈ s.log, x.seq ≤ s.confirmed → x.seq ∈ s.settled) ↔ ∀ x ∈ s.log, 0 < x.seq ∧ x.seq ∉ s.confirms := by
  constructor
  · intro hfed x hx
    rcases lt_or_ge s.confirmed x.seq with hc | hc
    · exact ⟨lt_of_le_of_lt h.nonneg hc, fun hm => absurd (h.confirms _ hm) (not_le.2 hc)⟩
    · exact h.settled _ (hfed x hx hc)
  · intro hfree x hx hle
    rcases h.processed x hx hle with h0 | hs | hc
    · exact absurd (hfree x hx).1 (not_lt.2 h0)
    · exact hs
    · exact absurd hc (hfree x hx).2

private theorem ConfirmInv.confirm_iff {batch : PendingBatch} (h : ConfirmInv src s)
    (hpc : s.source.pc = .confirming batch) (ht : t.pc.batch = none) : ConfirmedFed (s.confirm t batch) ↔
      ∀ batch, s.source.pc = .confirming batch → ∀ x ∈ s.log, 0 < x.seq ∧ x.seq ∉ batch.nextSeq :: s.confirms := by
  have hiff := (h.confirm hpc ht).fed_iff
  constructor
  · intro hfed batch' hpc'
    obtain rfl := PollingPc.confirming.inj (hpc.symm.trans hpc')
    exact hiff.1 (hfed rfl)
  · exact fun hfree _ => hiff.2 (hfree batch hpc)

private theorem step_confirmedFed_iff {s' : ConfirmState} {l : ConfirmLabel} (h : ConfirmInv src s)
    (hstep : src.ConfirmStep s l s') : ConfirmedFed s' ↔ NextSeqFree s l := by
  cases hstep with
  | confirmed hpc hstep => exact h.confirm_iff hpc hstep.confirmed_batch
  | lost hpc hstep => exact h.confirm_iff hpc hstep.confirmed_batch
  | _ => exact iff_of_true (fun h => by cases h) trivial

/-- In a run of the polling source, every event up to the confirmed `seq` has been fed after each `confirm_read`, if and
only if no `confirm_read` finds an event in the log that has the `seq` confirmed by it or by an earlier one. -/
theorem confirmed_fed_iff {log : List PendingEvent} {path : List (ConfirmLabel × ConfirmState)}
    (hlog : Log.Increasing PendingEvent.seq log) (hrun : Transition.Run src.ConfirmStep (.start log) path) :
    Transition.Always ConfirmedFed (.start log) path ↔ Transition.Meets NextSeqFree (.start log) path :=
  hrun.always_iff_meets (ConfirmInv src) (fun _ _ _ h _ hstep _ => h.step hstep)
    (fun _ _ _ h _ hstep => step_confirmedFed_iff h hstep) (confirmInv_start hlog) fun h => by cases h

end

/-! ### One lot in the queue, and two -/

def sellerPolling : PollingSource := { account := seller, config := { limit := 1 } }

def lot (seq : Int) : PendingEvent := ⟨seq, "new_lot", []⟩

/-- The first lot alone. -/
def lotBatch : PendingBatch := ⟨"sub-1", [lot 1], 2, 0, false, false⟩

private theorem answers_lotBatch (s : ConfirmState) (h : s.confirmed = 0) (hitems : window 1 0 s.log = [lot 1]) :
    s.Answers 1 lotBatch where
  items := by rw [h, hitems]; rfl
  nextSeq := by rintro x ⟨⟩; rfl
  lastReadSeq := h.symm

/-- One lot is polled, fed and confirmed. -/
theorem confirmed_fed_lot :
    ∃ path, path.length = 4 ∧ Transition.Run sellerPolling.ConfirmStep (.start [lot 1]) path ∧
      Transition.Always ConfirmedFed (.start [lot 1]) path := by
  have fed : ∀ path, Transition.Run sellerPolling.ConfirmStep (.start [lot 1]) path →
      Transition.Meets NextSeqFree (.start [lot 1]) path → path.length = 4 →
      path.length = 4 ∧ Transition.Run sellerPolling.ConfirmStep (.start [lot 1]) path ∧
        Transition.Always ConfirmedFed (.start [lot 1]) path :=
    fun path hrun hmeets hlen => ⟨hlen, hrun, (confirmed_fed_iff (List.pairwise_singleton ..) hrun).2 hmeets⟩
  refine ⟨_, fed [(.source .run, _), (.source (.polled (.ok lotBatch)), _),
    (.source (.fed _ (.ok ⟨.handled, .fromPending (lot 1) .polling, none⟩)), _), (.source (.confirmed (.ok 2)), _)]
    ⟨.run (.run trivial), .polled (answers_lotBatch _ rfl rfl) (.polled _ rfl), .fed rfl (.fed _ rfl),
      .confirmed rfl (.confirmed _ rfl), trivial⟩ ?_ rfl⟩
  refine ⟨trivial, trivial, trivial, ?_, trivial⟩
  rintro batch ⟨⟩ x hx
  cases List.mem_singleton.1 hx
  decide

/-- Behind the limit there is a second lot: it is confirmed with the first, and never fed. -/
theorem confirmed_unfed :
    ∃ path, Transition.Run sellerPolling.ConfirmStep (.start [lot 1, lot 2]) path ∧
      ¬ Transition.Always ConfirmedFed (.start [lot 1, lot 2]) path := by
  refine ⟨[(.source .run, _), (.source (.polled (.ok lotBatch)), _),
    (.source (.fed _ (.ok ⟨.handled, .fromPending (lot 1) .polling, none⟩)), _), (.source (.confirmed (.ok 2)), _)],
    ⟨.run (.run trivial), .polled (answers_lotBatch _ rfl rfl) (.polled _ rfl), .fed rfl (.fed _ rfl),
      .confirmed rfl (.confirmed _ rfl), trivial⟩, fun h => ?_⟩
  have hlast := h.last rfl (lot 2) (List.mem_cons_of_mem _ (List.mem_singleton_self _)) (by decide)
  exact absurd hlast (by decide)

end EventusSdk
