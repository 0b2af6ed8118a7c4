import Mathlib.Tactic.NormNum
import EventusSdk.Dispatcher
import EventusSdk.Lib.History
import EventusSdk.Lib.Transition
import EventusSdk.Polling

/-!
# The pace of the polling source

`PollingSource.run` sleeps between two polls if the engine says that the queue was drained.  It does not look at what
has become of the batch: where the engine says that there is more, the next poll follows at once, also when the batch
was empty, when nothing of it was confirmed, or when the confirmation did not get beyond what had been read before.
Such a poll finds what the last one has found.
-/

namespace EventusSdk

/-- What `run` does: it is called, polls, gets a batch, confirms, and sleeps. -/
inductive PacingEvent where
  | called
  | polled
  | answered (batch : PendingBatch)
  | confirmed (upToSeq : Int)
  | slept (duration : ℚ)

/-- The source with what it has done, the last first. -/
structure PacingState where
  source : PollingState
  history : List PacingEvent

def PacingState.start : PacingState := ⟨{}, []⟩

/-- What has been done once the step is over. -/
def PollingLabel.events : PollingPc → PollingLabel → List PacingEvent
  | _, .run => [.called]
  | _, .polled (.ok batch) => [.answered batch]
  | .confirming batch, .confirmed _ => [.confirmed batch.nextSeq]
  | .sleeping duration, .woken (.ok ()) => [.slept duration]
  | _, _ => []

private theorem PollingLabel.events_run (pc : PollingPc) : PollingLabel.run.events pc = [.called] := by
  cases pc <;> rfl

private theorem PollingLabel.events_fed (pc : PollingPc) (event : ClientEvent) (x : Except Exn DispatchResult) :
    (PollingLabel.fed event x).events pc = [] := by
  cases pc <;> rfl

/-- A step that ends at a poll has made it. -/
def PollingPc.polls : PollingPc → List PacingEvent
  | .polling => [.polled]
  | _ => []

/-- Between two polls `run` is called anew, or there is a sleep, or more is confirmed than the batch says had been read
before. -/
def Paced (between : List PacingEvent) : Prop :=
  .called ∈ between ∨ (∃ duration, .slept duration ∈ between ∧ 0 < duration) ∨
    ∃ batch upToSeq, .answered batch ∈ between ∧ .confirmed upToSeq ∈ between ∧ batch.lastReadSeq < upToSeq

def PollsPaced (s : PacingState) : Prop := History.Gaps .polled (fun between _ => Paced between) s.history

namespace PollingSource

variable (src : PollingSource)

def PacingStep (s : PacingState) (l : PollingLabel) (t : PacingState) : Prop :=
  src.Step s.source l t.source ∧ t.history = t.source.pc.polls ++ (l.events s.source.pc ++ s.history)

/-- A batch of which the engine says that there is more is not empty, and ends with a `confirm_read` that gets further
than what had been read before; and a sleep lasts. -/
def Progress (s : PacingState) : PollingLabel → Prop
  | .polled (.ok batch) => batch.items = [] → batch.drained = true
  | .fed _ (.ok result) => ∀ batch item allOk, s.source.pc = .feeding batch item [] allOk →
      batch.drained = true ∨ (src.config.confirm = .auto ∧ allOk = true ∧ result.outcome ≠ .errored)
  | .confirmed (.ok _) => ∀ batch, s.source.pc = .confirming batch →
      batch.drained = true ∨ batch.lastReadSeq < batch.nextSeq
  | .woken (.ok ()) => ∀ duration, s.source.pc = .sleeping duration → 0 < duration
  | _ => True

/-! ### What holds of a run -/

/-- The last poll, and what has been done since. -/
def PacingInv (s : PacingState) : Prop :=
  match s.source.pc with
  | .idle => s.history = []
  | .polling => ∃ before, s.history = .polled :: before
  | .feeding batch _ _ _ => batch.items ≠ [] ∧ ∃ before, s.history = .answered batch :: .polled :: before
  | .confirming batch => batch.items ≠ [] ∧ ∃ before, s.history = .answered batch :: .polled :: before
  | .sleeping duration => ∃ between before, s.history = between ++ .polled :: before ∧ .polled ∉ between ∧
      (0 < duration ∨ ∃ batch, between = [.answered batch])
  | .ended _ => True

variable {src} {s t : PacingState} {l : PollingLabel} {batch : PendingBatch} {before : List PacingEvent}

private theorem not_paced_answered : ¬ Paced [.answered batch] := by
  simp [Paced]

private theorem paced_confirmed {upToSeq : Int} :
    Paced [.confirmed upToSeq, .answered batch] ↔ batch.lastReadSeq < upToSeq := by
  simp [Paced]

private theorem paced_slept {duration : ℚ} {between : List PacingEvent}
    (h : 0 < duration ∨ ∃ batch, between = [.answered batch]) : Paced (.slept duration :: between) ↔ 0 < duration := by
  rcases h with h | ⟨batch, rfl⟩
  · exact iff_of_true (Or.inr (Or.inl ⟨duration, List.mem_cons_self .., h⟩)) h
  · simp [Paced]

/-- After the last item the batch is confirmed, or it is done with. -/
private theorem feedItems_nil {u : PollingState} {allOk : Bool} (hne : batch.items ≠ []) :
    src.feedItems u batch [] allOk =
      if src.config.confirm = .auto ∧ allOk = true then { u with pc := .confirming batch } else src.finish u batch := by
  have hempty : batch.items.isEmpty = false := by simpa using hne
  simp [feedItems, hempty]

/-- The end of the loop's body: a sleep, or the next poll. -/
private theorem finish_polls (src : PollingSource) (u : PollingState) (batch : PendingBatch) :
    (batch.drained = true ∧ (src.finish u batch).pc = .sleeping (src.nextSleep u.sleepFor batch)) ∨
      (batch.drained = false ∧ (src.finish u batch).pc = .polling) := by
  cases h : batch.drained <;> simp [finish, h]

section
variable (src) (batch) {u : PollingState} (between : List PacingEvent) (hb : .polled ∉ between)

include hb

/-- What the end of the loop's body adds to a history. -/
private theorem finish_paced (hs : PollsPaced ⟨u, between ++ .polled :: before⟩) :
    PollsPaced ⟨src.finish u batch, (src.finish u batch).pc.polls ++ (between ++ .polled :: before)⟩ ↔
      batch.drained = true ∨ Paced between := by
  rw [PollsPaced]
  rcases src.finish_polls u batch with ⟨hd, hpc⟩ | ⟨hd, hpc⟩
  · rw [hpc]
    exact iff_of_true hs (Or.inl hd)
  · rw [hpc, hd]
    refine (History.gaps_mark between hb).trans ⟨fun h => Or.inr h.1, fun h => ⟨?_, hs⟩⟩
    exact h.resolve_left (by simp)

omit hb in
/-- Behind a batch only a sleep keeps the polls paced. -/
private theorem finish_answered (hs : PollsPaced ⟨u, .answered batch :: .polled :: before⟩) :
    PollsPaced ⟨src.finish u batch, (src.finish u batch).pc.polls ++ .answered batch :: .polled :: before⟩ ↔
      batch.drained = true := by
  have hiff := finish_paced src batch [.answered batch] (by simp) hs
  rwa [or_iff_left not_paced_answered] at hiff

private theorem finish_inv (hsleep : 0 < src.nextSleep u.sleepFor batch ∨ ∃ batch, between = [.answered batch]) :
    PacingInv ⟨src.finish u batch, (src.finish u batch).pc.polls ++ (between ++ .polled :: before)⟩ := by
  unfold PacingInv
  rcases src.finish_polls u batch with ⟨-, hpc⟩ | ⟨-, hpc⟩
  · simp only [hpc]
    exact ⟨between, before, rfl, hb, hsleep⟩
  · simp only [hpc]
    exact ⟨_, rfl⟩

end

private theorem nextSleep_pos (hint : 0 < src.config.interval) (hne : batch.items ≠ []) (current : ℚ) :
    0 < src.nextSleep current batch := by
  rw [nextSleep_items hne]
  exact hint

private theorem PacingInv.step (hint : 0 < src.config.interval) (h : PacingInv s) (hstep : src.PacingStep s l t) :
    PacingInv t := by
  obtain ⟨u, hist⟩ := s
  obtain ⟨v, hist'⟩ := t
  obtain ⟨hstep, hh⟩ := hstep
  simp only at hstep hh
  subst hh
  cases hstep with
  | run => exact ⟨_, rfl⟩
  | pollRaises | feedRaises | confirmRaises | sleepRaises => trivial
  | woken hpc =>
    simp only [PacingInv, PollingPc.polls]
    exact ⟨_, rfl⟩
  | polled batch hpc =>
    simp only [PacingInv, hpc] at h
    obtain ⟨before, rfl⟩ := h
    cases hitems : batch.items with
    | nil =>
      rw [feedItems_empty hitems]
      exact finish_inv src batch [.answered batch] (by simp) (Or.inr ⟨batch, rfl⟩)
    | cons item rest => exact ⟨by simp [hitems], before, rfl⟩
  | @fed batch item rest allOk result hpc =>
    simp only [PacingInv, hpc] at h
    obtain ⟨hne, before, rfl⟩ := h
    cases rest with
    | cons item rest => exact ⟨hne, before, rfl⟩
    | nil =>
      rw [feedItems_nil hne, PollingLabel.events_fed]
      generalize (if result.outcome = .errored then false else allOk) = ok
      split
      · exact ⟨hne, before, rfl⟩
      · exact finish_inv src batch [.answered batch] (by simp) (Or.inr ⟨batch, rfl⟩)
  | @confirmed batch lastSeq hpc =>
    simp only [PacingInv, hpc] at h
    obtain ⟨hne, before, rfl⟩ := h
    rw [hpc]
    exact finish_inv src batch [.confirmed batch.nextSeq, .answered batch] (by simp)
      (Or.inl (nextSleep_pos hint hne _))

/-! What progress is at the end of a sleep, of the items and of a `confirm_read`. -/

private theorem progress_woken {duration : ℚ} (hpc : s.source.pc = .sleeping duration) :
    src.Progress s (.woken (.ok ())) ↔ 0 < duration := by
  constructor
  · exact fun h => h duration hpc
  · intro h d hd
    cases hpc.symm.trans hd
    exact h

private theorem progress_fed {item : PendingEvent} {allOk : Bool} {event : ClientEvent} {result : DispatchResult}
    (hpc : s.source.pc = .feeding batch item [] allOk) : src.Progress s (.fed event (.ok result)) ↔
      batch.drained = true ∨
        (src.config.confirm = .auto ∧ (if result.outcome = .errored then false else allOk) = true) := by
  constructor
  · intro h
    refine (h batch item allOk hpc).imp_right fun ⟨ha, hok, hne⟩ => ⟨ha, ?_⟩
    rwa [if_neg hne]
  · intro h b i a hpc'
    cases hpc.symm.trans hpc'
    refine h.imp_right fun ⟨ha, hok⟩ => ⟨ha, ?_⟩
    by_cases herr : result.outcome = .errored
    · rw [if_pos herr] at hok
      cases hok
    · rw [if_neg herr] at hok
      exact ⟨hok, herr⟩

private theorem progress_confirmed {lastSeq : Int} (hpc : s.source.pc = .confirming batch) :
    src.Progress s (.confirmed (.ok lastSeq)) ↔ batch.drained = true ∨ batch.lastReadSeq < batch.nextSeq := by
  constructor
  · exact fun h => h batch hpc
  · intro h b hb
    cases hpc.symm.trans hb
    exact h

/-- The first poll of a call of `run`: whatever came before, the call lies in between. -/
private theorem pollsPaced_called {u v : PollingState} {hist : List PacingEvent} (hs : PollsPaced ⟨u, hist⟩) :
    PollsPaced ⟨v, .polled :: .called :: hist⟩ := by
  by_cases hm : .polled ∈ hist
  · obtain ⟨between, before, rfl, hb⟩ := List.eq_append_cons_of_mem hm
    have hpaced : Paced (.called :: between) := Or.inl (List.mem_cons_self ..)
    exact (History.gaps_mark (.called :: between) (by simpa using hb)).2 ⟨hpaced, (History.gaps_cons (by simp)).2 hs⟩
  · exact History.gaps_first (by simpa using hm)

/-- A step keeps the polls paced exactly when it makes progress. -/
private theorem step_pollsPaced_iff (h : PacingInv s) (hs : PollsPaced s) (hstep : src.PacingStep s l t) :
    PollsPaced t ↔ src.Progress s l := by
  obtain ⟨u, hist⟩ := s
  obtain ⟨v, hist'⟩ := t
  obtain ⟨hstep, hh⟩ := hstep
  simp only at hstep hh
  subst hh
  cases hstep with
  | run hpc =>
    refine iff_of_true ?_ trivial
    rw [PollingLabel.events_run]
    exact pollsPaced_called hs
  | pollRaises | sleepRaises => exact iff_of_true hs trivial
  | feedRaises => exact iff_of_true (by rw [PollingLabel.events_fed]; exact hs) trivial
  | @confirmRaises batch e hpc =>
    refine iff_of_true ?_ trivial
    rw [hpc]
    exact (History.gaps_cons (by simp)).2 hs
  | @woken duration hpc =>
    simp only [PacingInv, hpc] at h
    obtain ⟨between, before, rfl, hb, hsleep⟩ := h
    rw [progress_woken hpc, ← paced_slept hsleep, hpc]
    have hs' : PollsPaced ⟨u, .slept duration :: (between ++ .polled :: before)⟩ := (History.gaps_cons (by simp)).2 hs
    have hb' : PacingEvent.polled ∉ .slept duration :: between := by simpa using hb
    refine (History.gaps_mark (.slept duration :: between) hb').trans ?_
    exact ⟨fun h => h.1, fun h => ⟨h, hs'⟩⟩
  | polled batch hpc =>
    simp only [PacingInv, hpc] at h
    obtain ⟨before, rfl⟩ := h
    have hs' : PollsPaced ⟨u, [.answered batch] ++ .polled :: before⟩ := (History.gaps_cons (by simp)).2 hs
    cases hitems : batch.items with
    | nil =>
      rw [feedItems_empty hitems]
      exact (finish_answered src batch hs').trans ⟨fun h _ => h, fun h => h hitems⟩
    | cons item rest => exact iff_of_true hs' fun h => by rw [hitems] at h; cases h
  | @fed batch item rest allOk result hpc =>
    simp only [PacingInv, hpc] at h
    obtain ⟨hne, before, rfl⟩ := h
    rw [PollingLabel.events_fed]
    cases rest with
    | cons item rest => exact iff_of_true hs fun b i a h => by cases hpc.symm.trans h
    | nil =>
      rw [progress_fed hpc, feedItems_nil hne]
      generalize (if result.outcome = .errored then false else allOk) = ok
      split
      · next hconfirm => exact iff_of_true hs (Or.inr hconfirm)
      · next hconfirm =>
        rw [or_iff_left hconfirm]
        exact finish_answered src batch hs
  | @confirmed batch lastSeq hpc =>
    simp only [PacingInv, hpc] at h
    obtain ⟨hne, before, rfl⟩ := h
    have hs' : PollsPaced ⟨u, [.confirmed batch.nextSeq, .answered batch] ++ .polled :: before⟩ :=
      (History.gaps_cons (by simp)).2 hs
    have hiff := finish_paced src batch [.confirmed batch.nextSeq, .answered batch] (by simp) hs'
    rw [paced_confirmed] at hiff
    rw [progress_confirmed hpc, hpc]
    exact hiff

/-- In a run of the polling source, every two polls have a sleep between them, or a `confirm_read` that gets further
than what had been read before, if and only if every step makes progress. -/
theorem polls_paced_iff {path : List (PollingLabel × PacingState)} (hint : 0 < src.config.interval)
    (hrun : Transition.Run src.PacingStep .start path) :
    Transition.Always PollsPaced .start path ↔ Transition.Meets src.Progress .start path :=
  hrun.always_iff_meets PacingInv (fun _ _ _ h _ hstep _ => h.step hint hstep)
    (fun _ _ _ h hs hstep => step_pollsPaced_iff h hs hstep) rfl (History.gaps_of_notMem List.not_mem_nil)

end PollingSource

/-! ### An empty queue, and an item that fails -/

/-- Nothing is pending. -/
def drainedBatch : PendingBatch := ⟨"sub-1", [], 0, 0, true, false⟩

/-- One item of several. -/
def failingBatch : PendingBatch := ⟨"sub-1", [⟨1, "new_lot", []⟩], 2, 0, false, false⟩

/-- The queue is empty, and polled again behind a sleep. -/
theorem polls_paced_drained :
    ∃ path, path.length = 3 ∧ Transition.Run (PollingSource.PacingStep { account := seller }) .start path ∧
      (Transition.last PacingState.start path).source.pc = .polling ∧
      Transition.Always PollsPaced .start path := by
  have paced : ∀ path, Transition.Run (PollingSource.PacingStep { account := seller }) .start path →
      Transition.Meets (PollingSource.Progress { account := seller }) .start path →
      Transition.Always PollsPaced .start path :=
    fun path hrun hmeets => (PollingSource.polls_paced_iff (by decide) hrun).2 hmeets
  have hrun : Transition.Run (PollingSource.PacingStep { account := seller }) .start
      [(.run, ⟨_, _⟩), (.polled (.ok drainedBatch), ⟨_, _⟩), (.woken (.ok ()), ⟨_, _⟩)] :=
    ⟨⟨.run trivial, rfl⟩, ⟨.polled _ rfl, rfl⟩, ⟨.woken rfl, rfl⟩, trivial⟩
  refine ⟨_, rfl, hrun, rfl, paced _ hrun ⟨trivial, fun _ => rfl, ?_, trivial⟩⟩
  intro duration hpc
  obtain rfl := PollingPc.sleeping.inj hpc
  norm_num [PollingSource.nextSleep, drainedBatch]

/-- An item ends `ERRORED`, and the engine is polled again at once, for the same item. -/
theorem polls_not_paced :
    ∃ path, Transition.Run (PollingSource.PacingStep { account := seller }) .start path ∧
      ¬ Transition.Always PollsPaced .start path := by
  refine ⟨[(.run, ⟨_, _⟩), (.polled (.ok failingBatch), ⟨_, _⟩),
    (.fed _ (.ok ⟨.errored, .fromPending ⟨1, "new_lot", []⟩ .polling, some .keyError⟩), ⟨_, _⟩)],
    ⟨⟨.run trivial, rfl⟩, ⟨.polled _ rfl, rfl⟩, ⟨.fed _ rfl, rfl⟩, trivial⟩, fun h => ?_⟩
  exact PollingSource.not_paced_answered (h.last [] [.answered failingBatch] [.called] rfl (by simp))

end EventusSdk
