import EventusSdk.Dispatcher
import EventusSdk.Lib.Transition
import EventusSdk.Supervisor

/-!
# What stopping stops

Once `stop` has completed, no source should poll, connect or feed again.  Whether this is so depends on where the
sources are at that moment.  A polling source never looks at anything that `stop` sets while its `run` is under way,
and a stream source looks at `_closed` only between two connections.  Besides, a `run` of the supervisor that begins
after `stop` forgets that it is stopping: its polling sources poll, unless a closed stream source begins before them,
which is then called again and again and keeps the event loop to itself.
-/

namespace EventusSdk

/-! ### Starts, and states that stay quiet -/

/-- A poll or a connection was started last, or an event fed. -/
def SourceRun.Active : SourceRun → Prop
  | .polling _ s => match s.pc with
    | .polling | .feeding .. => True
    | _ => False
  | .stream _ s => match s.pc with
    | .connecting _ | .feeding _ => True
    | _ => False

/-- The task that makes the step. -/
def SupervisorLabel.task : SupervisorLabel → Option ℕ
  | .enter i | .source i _ | .woken i _ => some i
  | .begin | .stop | .close => none

/-- The step with this label, leading to this state, starts a poll or a connection, or feeds an event. -/
def Starts (l : SupervisorLabel) (t : SupervisorState) : Prop :=
  ∃ i task, l.task = some i ∧ t.tasks[i]? = some task ∧ task.source.Active

/-- `stop` has completed. -/
def SupervisorState.Stopped (s : SupervisorState) : Prop := s.stop = some s.tasks.length

/-- A task that leaves its loop test will call `source.run` again, now or after `run` has begun. -/
def SupervisorState.restarts (s : SupervisorState) : Bool := !s.stopping || !s.begun

/-- A closed stream source makes no connection from here, and has none. -/
def StreamPc.Detached (refuses : Bool) : StreamPc → Prop
  | .idle | .sleeping _ | .ended _ => True
  | .resuming => refuses = true
  | _ => False

def SourceRun.IsStream : SourceRun → Prop
  | .polling .. => False
  | .stream .. => True

/-- A polling source is not in `run` and will not be; a stream source has no connection and makes none. -/
def SuperviseTask.Quiet (task : SuperviseTask) (restarts : Bool) : Prop :=
  match task.source with
  | .polling _ _ => task.pc ≠ .running ∧ (task.pc = .exited ∨ restarts = false)
  | .stream src s => s.pc.Detached src.refuses

/-- A task keeps the event loop to itself, or will: the first task to begin is that of a stream source, closed, and
nothing keeps it from calling `source.run`. -/
def SupervisorState.Hung (s : SupervisorState) : Prop :=
  ¬ s.Free ∨ (s.restarts = true ∧ ∃ i task, s.First i task ∧ task.source.IsStream)

def SupervisorState.Quiet (s : SupervisorState) : Prop :=
  s.Hung ∨ ∀ (i : ℕ) (task : SuperviseTask), s.tasks[i]? = some task → task.Quiet s.restarts

/-! ### What holds of a run -/

def SourceRun.Closed : SourceRun → Prop
  | .polling _ _ => True
  | .stream _ s => s.closed = true

/-- Sources are closed one after another; a `run` is under way exactly in the tasks that are in `source.run`; no task
gets anywhere before the `run` of the supervisor has begun; and a task that keeps the event loop to itself does so for
ever. -/
structure SupervisorInv (s : SupervisorState) : Prop where
  closed : ∀ k, s.stop = some k → ∀ i < k, ∀ task, s.tasks[i]? = some task → task.source.Closed
  off : ∀ (i : ℕ) (task : SuperviseTask), s.tasks[i]? = some task → task.pc ≠ .running → task.source.Off
  on : ∀ (i : ℕ) (task : SuperviseTask), s.tasks[i]? = some task → task.pc = .running → ¬ task.source.Off
  top : s.begun = false → ∀ (i : ℕ) (task : SuperviseTask), s.tasks[i]? = some task → task.pc = .top
  again : ∀ (i : ℕ) (task : SuperviseTask), s.tasks[i]? = some task → task.pc = .again →
    s.stopping = false ∧ task.source.Returns

theorem StreamState.loop_closed (s : StreamState) : s.loop.closed = s.closed := rfl

private theorem StreamSource.Step.closed {src : StreamSource} {s t : StreamState} {l : StreamLabel} (h : src.Step s l t)
    (hs : s.closed = true) : t.closed = true := by
  cases h with
  | aclose => rfl
  | _ => exact hs

namespace SourceRun

variable {source source' : SourceRun} {l : SourceLabel}

private theorem Step.closed (h : source.Step l source') (hs : source.Closed) : source'.Closed := by
  cases h with
  | polling h => trivial
  | stream h => exact h.closed hs

private theorem run_closed (hs : source.Closed) : source.run.Closed := by
  cases source with
  | polling src s => trivial
  | stream src s => exact hs

private theorem aclose_closed : source.aclose.Closed := by
  cases source with
  | polling src s => trivial
  | stream src s => rfl

private theorem aclose_off : source.aclose.Off ↔ source.Off := by
  cases source with
  | polling src s => exact Iff.rfl
  | stream src s => exact Iff.rfl

private theorem IsStream.returns (h : source.IsStream) (hs : source.Closed) : source.Returns := by
  cases source with
  | polling src s => exact h
  | stream src s => exact hs

end SourceRun

theorem SupervisorState.getElem?_set {s : SupervisorState} {i j : ℕ} {task task' : SuperviseTask}
    (h : (s.set i task).tasks[j]? = some task') : (j = i ∧ task' = task) ∨ (j ≠ i ∧ s.tasks[j]? = some task') := by
  by_cases hji : j = i
  · subst hji
    rw [SupervisorState.set, List.getElem?_set_self'] at h
    cases hs : s.tasks[j]? with
    | none => rw [hs] at h; cases h
    | some old => rw [hs] at h; cases h; exact Or.inl ⟨rfl, rfl⟩
  · rw [SupervisorState.set, List.getElem?_set_ne (Ne.symm hji)] at h
    exact Or.inr ⟨hji, h⟩

/-- One task moves on, and keeps what the invariant says of it. -/
theorem SupervisorInv.set {s : SupervisorState} {i : ℕ} {task task' : SuperviseTask} (h : SupervisorInv s)
    (hi : s.tasks[i]? = some task) (hb : s.begun = true) (hclosed : task.source.Closed → task'.source.Closed)
    (hoff : task'.pc ≠ .running → task'.source.Off) (hon : task'.pc = .running → ¬ task'.source.Off)
    (hagain : task'.pc = .again → s.stopping = false ∧ task'.source.Returns) : SupervisorInv (s.set i task') where
  closed := fun k hk j hj u hu => by
    rcases SupervisorState.getElem?_set hu with ⟨rfl, rfl⟩ | ⟨-, hu⟩
    · exact hclosed (h.closed k hk j hj task hi)
    · exact h.closed k hk j hj u hu
  off := fun j u hu => by
    rcases SupervisorState.getElem?_set hu with ⟨rfl, rfl⟩ | ⟨-, hu⟩
    · exact hoff
    · exact h.off j u hu
  on := fun j u hu => by
    rcases SupervisorState.getElem?_set hu with ⟨rfl, rfl⟩ | ⟨-, hu⟩
    · exact hon
    · exact h.on j u hu
  top := fun hnb => by
    rw [show s.begun = false from hnb] at hb
    cases hb
  again := fun j u hu => by
    rcases SupervisorState.getElem?_set hu with ⟨rfl, rfl⟩ | ⟨-, hu⟩
    · exact hagain
    · exact h.again j u hu

section
variable {task : SuperviseTask} {stopping : Bool} {minBackoff : ℚ}

private theorem SuperviseTask.loop_closed (h : task.source.Closed) : (task.loop stopping minBackoff).source.Closed := by
  unfold SuperviseTask.loop
  split
  · exact h
  · rw [SuperviseTask.settle_source]
    exact SourceRun.run_closed h

private theorem SuperviseTask.loop_off (h : task.source.Off) (hpc : (task.loop stopping minBackoff).pc ≠ .running) :
    (task.loop stopping minBackoff).source.Off := by
  unfold SuperviseTask.loop at hpc ⊢
  split
  · exact h
  · next hs =>
    rw [if_neg hs] at hpc
    rw [SuperviseTask.settle_source]
    exact SuperviseTask.settle_off hpc

private theorem SuperviseTask.loop_on (hpc : (task.loop stopping minBackoff).pc = .running) :
    ¬ (task.loop stopping minBackoff).source.Off := by
  unfold SuperviseTask.loop at hpc ⊢
  cases stopping with
  | true => cases hpc
  | false =>
    rw [if_neg (by simp)] at hpc ⊢
    rw [SuperviseTask.settle_source]
    exact SuperviseTask.settle_on hpc (SourceRun.run_not_idle _)

private theorem SuperviseTask.loop_again (hpc : (task.loop stopping minBackoff).pc = .again) :
    stopping = false ∧ (task.loop stopping minBackoff).source.Returns := by
  unfold SuperviseTask.loop at hpc ⊢
  cases stopping with
  | true => cases hpc
  | false =>
    rw [if_neg (by simp)] at hpc ⊢
    rw [SuperviseTask.settle_source]
    exact ⟨rfl, SourceRun.run_returns (SuperviseTask.settle_again hpc).2⟩

end

variable {sup : SourceSupervisor} {s t : SupervisorState} {l : SupervisorLabel}

/-- A task that is not at the top of its loop belongs to a `run` that has begun. -/
private theorem SupervisorInv.begun {i : ℕ} {task : SuperviseTask} (h : SupervisorInv s) (hi : s.tasks[i]? = some task)
    (hpc : task.pc ≠ .top) : s.begun = true := by
  cases hb : s.begun with
  | true => rfl
  | false => exact absurd (h.top hb i task hi) hpc

/-- A task that does not run goes through the test of its loop. -/
private theorem SupervisorInv.loop {i : ℕ} {task : SuperviseTask} (h : SupervisorInv s) (hi : s.tasks[i]? = some task)
    (hb : s.begun = true) (hpc : task.pc ≠ .running) (task' : SuperviseTask) (hsource : task'.source = task.source)
    (minBackoff : ℚ) :
    SupervisorInv (s.set i (task'.loop s.stopping minBackoff)) := by
  have hoff : task'.source.Off := hsource ▸ h.off i task hi hpc
  refine h.set hi hb (fun hc => ?_) (SuperviseTask.loop_off hoff) SuperviseTask.loop_on SuperviseTask.loop_again
  exact SuperviseTask.loop_closed (hsource ▸ hc)

/-- `stop` closes the next source. -/
private theorem SupervisorInv.close {k : ℕ} {task : SuperviseTask} (h : SupervisorInv s) (hk : s.stop = some k)
    (hi : s.tasks[k]? = some task) (hfree : s.Free) :
    SupervisorInv { s.set k { task with source := task.source.aclose } with stop := some (k + 1) } := by
  refine ⟨?_, fun j u hu => ?_, fun j u hu => ?_, fun hb j u hu => ?_, fun j u hu hpc => ?_⟩
  · rintro k' hk' j hj u hu
    cases hk'
    rcases SupervisorState.getElem?_set hu with ⟨rfl, rfl⟩ | ⟨hne, hu⟩
    · exact SourceRun.aclose_closed
    · exact h.closed k hk j (by omega) u hu
  · rcases SupervisorState.getElem?_set hu with ⟨rfl, rfl⟩ | ⟨-, hu⟩
    · exact fun hpc => SourceRun.aclose_off.2 (h.off _ _ hi hpc)
    · exact h.off j u hu
  · rcases SupervisorState.getElem?_set hu with ⟨rfl, rfl⟩ | ⟨-, hu⟩
    · exact fun hpc hoff => h.on _ _ hi hpc (SourceRun.aclose_off.1 hoff)
    · exact h.on j u hu
  · rcases SupervisorState.getElem?_set hu with ⟨rfl, rfl⟩ | ⟨-, hu⟩
    · have htop := h.top hb _ _ hi
      exact htop
    · exact h.top hb j u hu
  · rcases SupervisorState.getElem?_set hu with ⟨rfl, rfl⟩ | ⟨-, hu⟩
    · exact absurd hpc (hfree task (List.mem_of_getElem? hi))
    · exact absurd hpc (hfree u (List.mem_of_getElem? hu))

theorem SupervisorInv.step (h : SupervisorInv s) (hstep : sup.Step s l t) : SupervisorInv t := by
  cases hstep with
  | begin hb =>
    have htop := h.top hb
    refine ⟨h.closed, h.off, h.on, fun hb => (by cases hb), fun i task hi hpc => ?_⟩
    rw [htop i task hi] at hpc
    cases hpc
  | enter hb hi hfree => exact h.loop hi.1 hb (by simp [hi.2.1]) _ rfl _
  | again hi hpc => exact h.loop hi (h.begun hi (by simp [hpc])) (by simp [hpc]) _ rfl _
  | source hw hi hpc hl hrun hj =>
    refine h.set hi (h.begun hi (by simp [hpc])) (fun hc => ?_) (fun hpc' => ?_) (fun hpc' => ?_) fun hpc' => ?_ <;>
      rw [SuperviseTask.settle_source]
    · exact hrun.closed hc
    · exact SuperviseTask.settle_off hpc'
    · exact SuperviseTask.settle_on hpc' (hrun.not_idle hl)
    · obtain ⟨hs, hres⟩ := SuperviseTask.settle_again hpc'
      exact ⟨hs, hrun.returns hres⟩
  | @woken i task duration hw hi hpc =>
    have hb := h.begun hi (by simp [hpc])
    exact h.loop hi hb (by simp [hpc]) { task with backoff := min (task.backoff * 2) sup.maxBackoff } rfl _
  | sleepRaises hw hi hpc =>
    have hoff := h.off _ _ hi (by simp [hpc])
    exact h.set hi (h.begun hi (by simp [hpc])) id (fun _ => hoff) (fun hpc' => by cases hpc') fun hpc' => by cases hpc'
  | stop hs hfree =>
    refine ⟨fun k hk => by cases hk; simp, h.off, h.on, h.top, fun i task hi hpc => ?_⟩
    exact absurd hpc (hfree task (List.mem_of_getElem? hi))
  | close hk hi hfree => exact h.close hk hi hfree

theorem supervisorInv_start (sources : List (PollingSource ⊕ StreamSource)) : SupervisorInv (sup.start sources) := by
  have hstart : ∀ (i : ℕ) (task : SuperviseTask), (sup.start sources).tasks[i]? = some task →
      task.pc = .top ∧ task.source.Off := by
    intro i task hi
    obtain ⟨source, -, rfl⟩ := List.mem_map.1 (List.mem_of_getElem? hi)
    cases source <;> exact ⟨rfl, trivial⟩
  refine ⟨?_, fun i task hi _ => (hstart i task hi).2, fun i task hi hpc => ?_, fun _ i task hi => (hstart i task hi).1,
    fun i task hi hpc => ?_⟩
  · rintro k ⟨⟩
  · rw [(hstart i task hi).1] at hpc
    cases hpc
  · rw [(hstart i task hi).1] at hpc
    cases hpc

/-! ### Quiet states stay quiet -/

private theorem SourceRun.Off.not_active {source : SourceRun} (h : source.Off) : ¬ source.Active := by
  cases source with
  | polling src s =>
    have h' : s.pc.Off := h
    show ¬ match s.pc with | .polling | .feeding .. => True | _ => False
    cases hpc : s.pc <;> simp_all [PollingPc.Off]
  | stream src s =>
    have h' : s.pc.Off := h
    show ¬ match s.pc with | .connecting _ | .feeding _ => True | _ => False
    cases hpc : s.pc <;> simp_all [StreamPc.Off]

/-- A closed source without a connection returns or raises at its next step. -/
private theorem StreamSource.Step.ended {src : StreamSource} {s t : StreamState} {l : StreamLabel} (h : src.Step s l t)
    (hl : l ≠ .aclose) (hc : s.closed = true) (hd : s.pc.Detached src.refuses) : ∃ res, t.pc = .ended res := by
  cases h with
  | run h => exact ⟨.ok (), by simp [StreamState.loop, hc]⟩
  | resumed lastSeq h hr =>
    rw [h] at hd
    rw [hc, show src.refuses = true from hd] at hr
    cases hr
  | refused => exact ⟨_, rfl⟩
  | finished h => rw [h] at hd; exact hd.elim
  | lost => exact ⟨.ok (), by simp [StreamState.pause, hc]⟩
  | failed => exact ⟨_, rfl⟩
  | woken h => exact ⟨.ok (), by simp [StreamState.loop, hc]⟩
  | sleepRaises => exact ⟨_, rfl⟩
  | aclose => exact absurd rfl hl
  | connected h | yielded _ h | fed _ h | feedRaises _ h | advanced h | advanceRaises _ h => rw [h] at hd; exact hd.elim

section
variable {i : ℕ} {task task' : SuperviseTask} {restarts stopping : Bool} {minBackoff : ℚ}

/-- A quiet task leaves its loop, or calls a closed stream source, which returns at once. -/
private theorem SuperviseTask.Quiet.loop (h : task.Quiet restarts) (hexit : task.pc ≠ .exited)
    (hstopping : restarts = false → stopping = true) (hclosed : task.source.Closed) (hoff : task.source.Off) :
    (task.loop stopping minBackoff).Quiet restarts ∧ ¬ (task.loop stopping minBackoff).source.Active := by
  unfold SuperviseTask.loop
  split
  · refine ⟨?_, hoff.not_active⟩
    obtain ⟨pc, backoff, source⟩ := task
    cases source with
    | polling src s => exact ⟨by simp, Or.inl rfl⟩
    | stream src s => exact h
  · next hs =>
    obtain ⟨pc, backoff, source⟩ := task
    cases source with
    | polling src s => exact absurd (hstopping (h.2.resolve_left hexit)) hs
    | stream src s =>
      have hended : ({ s with backoff := src.config.minBackoff } : StreamState).loop.pc = .ended (.ok ()) := by
        simp [StreamState.loop, show s.closed = true from hclosed]
      refine ⟨?_, ?_⟩
      · rw [SuperviseTask.Quiet, SuperviseTask.settle_source]
        show StreamPc.Detached _ ({ s with backoff := src.config.minBackoff } : StreamState).loop.pc
        rw [hended]
        trivial
      · rw [SuperviseTask.settle_source]
        exact SourceRun.Off.not_active (show StreamPc.Off _ by rw [hended]; trivial)

private theorem SuperviseTask.Quiet.exit (h : task.Quiet restarts) :
    ({ task with pc := .exited } : SuperviseTask).Quiet restarts := by
  obtain ⟨pc, backoff, source⟩ := task
  cases source with
  | polling src s => exact ⟨by simp, Or.inl rfl⟩
  | stream src s => exact h

/-- The source of a quiet task is a stream source, and its next step is the last one of its `run`. -/
private theorem SuperviseTask.Quiet.settle {l : SourceLabel} {run : SourceRun} {jitter : ℚ} (h : task.Quiet restarts)
    (hpc : task.pc = .running) (hclosed : task.source.Closed) (hl : l.Own) (hrun : task.source.Step l run) :
    (({ task with source := run } : SuperviseTask).settle stopping minBackoff jitter).Quiet restarts ∧
      ¬ (({ task with source := run } : SuperviseTask).settle stopping minBackoff jitter).source.Active := by
  obtain ⟨pc, backoff, source⟩ := task
  cases hrun with
  | polling hrun => exact absurd hpc h.1
  | stream hrun =>
    obtain ⟨res, hres⟩ := hrun.ended (by rintro rfl; exact hl) hclosed h
    rw [SuperviseTask.Quiet, SuperviseTask.settle_source]
    refine ⟨?_, SourceRun.Off.not_active ?_⟩
    · show StreamPc.Detached _ _
      rw [hres]
      trivial
    · show StreamPc.Off _
      rw [hres]
      trivial

/-- A closed stream source is called, returns at once, and will be called again. -/
private theorem SuperviseTask.loop_returns (h : task.source.Returns) :
    (task.loop false minBackoff).pc = .again ∧ ¬ (task.loop false minBackoff).source.Active := by
  have hres : ({ task with source := task.source.run } : SuperviseTask).source.result = some (.ok ()) :=
    SourceRun.run_result h
  rw [SuperviseTask.loop, if_neg (by simp)]
  constructor
  · rw [SuperviseTask.settle, hres]
    rfl
  · rw [SuperviseTask.settle_source]
    exact (SourceRun.off_of_result hres).not_active

theorem SupervisorState.Stopped.set (hs : s.Stopped) (i : ℕ) (task' : SuperviseTask) : (s.set i task').Stopped := by
  rw [SupervisorState.Stopped, SupervisorState.set, List.length_set]
  exact hs

theorem getElem?_set_self (task' : SuperviseTask) (hi : s.tasks[i]? = some task) :
    (s.set i task').tasks[i]? = some task' :=
  List.getElem?_set_self (List.getElem?_eq_some_iff.1 hi).1

private theorem not_starts_set (hl : l.task = some i) (hact : ¬ task'.source.Active) : ¬ Starts l (s.set i task') := by
  rintro ⟨j, u, hj, hu, hu'⟩
  rw [hl] at hj
  cases hj
  rcases SupervisorState.getElem?_set hu with ⟨-, rfl⟩ | ⟨hne, -⟩
  · exact hact hu'
  · exact hne rfl

/-- The step of one task, after which that task is quiet and has started nothing. -/
private theorem quiet_set (hs : s.Stopped)
    (hq : ∀ (j : ℕ) (u : SuperviseTask), s.tasks[j]? = some u → u.Quiet s.restarts)
    (hl : l.task = some i) (h : task'.Quiet s.restarts ∧ ¬ task'.source.Active) :
    (s.set i task').Stopped ∧ (s.set i task').Quiet ∧ ¬ Starts l (s.set i task') := by
  refine ⟨hs.set i task', Or.inr fun j u hu => ?_, not_starts_set hl h.2⟩
  rcases SupervisorState.getElem?_set hu with ⟨rfl, rfl⟩ | ⟨-, hu⟩
  · exact h.1
  · exact hq j u hu

/-- The step of one task, after which it keeps the event loop to itself. -/
private theorem hung_set (hs : s.Stopped) (hi : s.tasks[i]? = some task) (hl : l.task = some i)
    (h : task'.pc = .again ∧ ¬ task'.source.Active) :
    (s.set i task').Stopped ∧ (s.set i task').Quiet ∧ ¬ Starts l (s.set i task') := by
  refine ⟨hs.set i task', Or.inl (Or.inl fun hfree => ?_), not_starts_set hl h.2⟩
  exact hfree task' (List.mem_of_getElem? (getElem?_set_self task' hi)) h.1

end

private theorem SupervisorState.stopping_of_restarts (h : s.restarts = false) : s.stopping = true := by
  rw [SupervisorState.restarts] at h
  cases hs : s.stopping with
  | true => rfl
  | false => simp [hs] at h

private theorem SupervisorState.not_stopping_of_restarts (h : s.restarts = true) (hb : s.begun = true) :
    s.stopping = false := by
  simpa [SupervisorState.restarts, hb] using h

private theorem SupervisorState.First.unique {i j : ℕ} {task u : SuperviseTask} (h : s.First i task)
    (h' : s.First j u) : i = j ∧ task = u := by
  obtain rfl : i = j := by
    rcases lt_trichotomy i j with hlt | heq | hgt
    · exact absurd h.2.1 (h'.2.2 i hlt task h.1)
    · exact heq
    · exact absurd h'.2.1 (h.2.2 j hgt u h'.1)
  exact ⟨rfl, Option.some.inj (h.1.symm.trans h'.1)⟩

private theorem SupervisorState.Waiting.not_hung (hw : s.Waiting) : ¬ s.Hung := by
  rintro (hfree | ⟨-, i, task, hi, -⟩)
  · exact hfree fun task hm => (hw task hm).2
  · exact (hw task (List.mem_of_getElem? hi.1)).1 hi.2.1

private theorem SupervisorInv.quiet_step (h : SupervisorInv s) (hs : s.Stopped) (hq : s.Quiet)
    (hstep : sup.Step s l t) : t.Stopped ∧ t.Quiet ∧ ¬ Starts l t := by
  have hclosed : ∀ (i : ℕ) (task : SuperviseTask), s.tasks[i]? = some task → task.source.Closed := fun i task hi =>
    h.closed _ hs i (List.getElem?_eq_some_iff.1 hi).1 task hi
  cases hstep with
  | begin hb =>
    have hrestarts : s.restarts = true := by simp [SupervisorState.restarts, hb]
    refine ⟨hs, ?_, fun ⟨i, _, hl, _⟩ => by cases hl⟩
    rcases hq with (hfree | ⟨-, first⟩) | hall
    · refine absurd (fun task hm => ?_) hfree
      obtain ⟨i, hi⟩ := List.mem_iff_getElem?.1 hm
      simp [h.top hb i task hi]
    · exact Or.inl (Or.inr ⟨rfl, first⟩)
    · refine Or.inr fun i task hi => ?_
      have hquiet := hall i task hi
      rwa [hrestarts] at hquiet
  | enter hb hi hfree =>
    rcases hq with (hfree' | ⟨hr, j, u, hj, hstream⟩) | hall
    · exact absurd hfree hfree'
    · obtain ⟨rfl, rfl⟩ := hj.unique hi
      rw [SupervisorState.not_stopping_of_restarts hr hb]
      exact hung_set hs hi.1 rfl (SuperviseTask.loop_returns (hstream.returns (hclosed _ _ hi.1)))
    · have hoff := h.off _ _ hi.1 (by simp [hi.2.1])
      refine quiet_set hs hall rfl ?_
      exact (hall _ _ hi.1).loop (by simp [hi.2.1]) SupervisorState.stopping_of_restarts (hclosed _ _ hi.1) hoff
  | again hi hpc =>
    obtain ⟨hstopping, hreturns⟩ := h.again _ _ hi hpc
    rw [hstopping]
    exact hung_set hs hi rfl (SuperviseTask.loop_returns hreturns)
  | source hw hi hpc hl hrun hj =>
    have hall := hq.resolve_left hw.not_hung
    exact quiet_set hs hall rfl ((hall _ _ hi).settle hpc (hclosed _ _ hi) hl hrun)
  | @woken i task duration hw hi hpc =>
    have hall := hq.resolve_left hw.not_hung
    have hoff := h.off _ _ hi (by simp [hpc])
    have hquiet := hall _ _ hi
    have hc := hclosed _ _ hi
    refine quiet_set hs hall rfl ?_
    refine SuperviseTask.Quiet.loop ?_ (by simp [hpc]) SupervisorState.stopping_of_restarts hc hoff
    exact hquiet
  | sleepRaises hw hi hpc =>
    have hall := hq.resolve_left hw.not_hung
    have hoff := h.off _ _ hi (by simp [hpc])
    exact quiet_set hs hall rfl ⟨(hall _ _ hi).exit, hoff.not_active⟩
  | stop hnone hfree =>
    rw [SupervisorState.Stopped, hnone] at hs
    cases hs
  | close hk hi hfree =>
    rw [SupervisorState.Stopped, hk, Option.some.injEq] at hs
    subst hs
    rw [List.getElem?_length] at hi
    cases hi

/-! ### Other states can start something -/

/-- A batch with one item. -/
def PendingBatch.single (item : PendingEvent) : PendingBatch := ⟨"", [item], item.seq + 1, 0, false, false⟩

/-- An `ERRORED` result. -/
def DispatchResult.failed (event : ClientEvent) : DispatchResult := ⟨.errored, event, none⟩

/-- After at most two more steps of its own the source starts something. -/
def SourceRun.Goes (source : SourceRun) : Prop :=
  ∃ l run, source.Step l run ∧ l.Own ∧ run.result = none ∧
    (run.Active ∨ ∃ l' run', run.Step l' run' ∧ l'.Own ∧ run'.result = none ∧ run'.Active)

/-- Where the body of the polling loop ends, another poll follows, at once or behind a sleep. -/
private theorem goes_of_finish {src : PollingSource} {u v : PollingState} {l : PollingLabel} (batch : PendingBatch)
    (h : src.Step u l v) (hl : l ≠ .run) (hv : v = src.finish u batch) : (SourceRun.polling src u).Goes := by
  have hown : (SourceLabel.polling l).Own := by
    cases l with
    | run => exact absurd rfl hl
    | _ => trivial
  subst hv
  unfold PollingSource.finish at h
  refine ⟨.polling l, _, .polling h, hown, ?_⟩
  cases hd : batch.drained with
  | false => exact ⟨rfl, Or.inl trivial⟩
  | true =>
    exact ⟨rfl, Or.inr ⟨.polling (.woken (.ok ())), _, .polling (.woken (by rfl)), trivial, rfl, trivial⟩⟩

/-- A polling source whose `run` is under way goes on to poll or to feed. -/
private theorem polling_goes {src : PollingSource} {u : PollingState} (h : ¬ u.pc.Off) :
    (SourceRun.polling src u).Goes := by
  cases hpc : u.pc with
  | idle | ended => exact absurd (by rw [hpc]; trivial) h
  | polling =>
    exact ⟨.polling (.polled (.ok (.single ⟨1, "", []⟩))), _, .polling (.polled _ hpc), trivial, rfl, Or.inl trivial⟩
  | feeding batch item rest allOk =>
    have hfed : src.Step u (.fed (.fromPending item .polling) (.ok (.failed (.fromPending item .polling)))) _ :=
      .fed _ hpc
    cases rest with
    | cons item' rest => exact ⟨.polling (.fed _ _), _, .polling hfed, trivial, rfl, Or.inl trivial⟩
    | nil =>
      refine goes_of_finish batch hfed (by simp) ?_
      simp [PollingSource.feedItems, DispatchResult.failed]
  | confirming batch => exact goes_of_finish batch (.confirmed 0 hpc) (by simp) rfl
  | sleeping duration =>
    exact ⟨.polling (.woken (.ok ())), _, .polling (.woken hpc), trivial, rfl, Or.inl trivial⟩

/-- A stream source that has a connection, or may still make one, goes on to connect or to feed. -/
private theorem stream_goes {src : StreamSource} {u : StreamState} (h : ¬ u.pc.Detached src.refuses) :
    (SourceRun.stream src u).Goes := by
  -- the next event of an open connection is fed
  have hread : ∀ v : StreamState, v.pc = .reading →
      ∃ l run, (SourceRun.stream src v).Step l run ∧ l.Own ∧ run.result = none ∧ run.Active := fun v hv =>
    ⟨.stream (.yielded ⟨1, "", [], src.transport, none, none⟩), _, .stream (.yielded _ hv), trivial, rfl, trivial⟩
  cases hpc : u.pc with
  | idle | sleeping | ended => exact absurd (by rw [hpc]; trivial) h
  | resuming =>
    have hr : src.refuses = false := by
      cases hr : src.refuses with
      | false => rfl
      | true => exact absurd (by rw [hpc]; exact hr) h
    exact ⟨.stream (.resumed 0), _, .stream (.resumed 0 hpc (by rw [hr, Bool.and_false])), trivial, rfl, Or.inl trivial⟩
  | connecting request =>
    exact ⟨.stream .connected, _, .stream (.connected hpc), trivial, rfl, Or.inr (hread _ rfl)⟩
  | reading =>
    obtain ⟨l, run, hstep, hown, hres, hact⟩ := hread u hpc
    exact ⟨l, run, hstep, hown, hres, Or.inl hact⟩
  | feeding event =>
    exact ⟨.stream (.fed (.ok (.failed event))), _, .stream (.fed _ hpc), trivial, rfl, Or.inr (hread _ rfl)⟩
  | advancing event =>
    exact ⟨.stream (.advanced (.ok ())), _, .stream (.advanced hpc), trivial, rfl, Or.inr (hread _ rfl)⟩

/-- Some continuation starts something. -/
def CanStart (sup : SourceSupervisor) (s : SupervisorState) : Prop :=
  ∃ path, Transition.Run sup.Step s path ∧ ∃ x ∈ path, Starts x.1 x.2

private theorem CanStart.of_step (h : sup.Step s l t) (hl : Starts l t) : CanStart sup s :=
  ⟨[(l, t)], ⟨h, trivial⟩, _, List.mem_singleton_self _, hl⟩

private theorem CanStart.cons (h : sup.Step s l t) (ht : CanStart sup t) : CanStart sup s := by
  obtain ⟨path, hrun, x, hx, hstart⟩ := ht
  exact ⟨(l, t) :: path, ⟨h, hrun⟩, x, List.mem_cons_of_mem _ hx, hstart⟩

section
variable {i : ℕ} {task : SuperviseTask}

theorem SupervisorState.Free.set {task' : SuperviseTask} (hfree : s.Free) (hpc : task'.pc ≠ .again) :
    (s.set i task').Free := by
  intro u hu
  rcases List.mem_or_eq_of_mem_set hu with hu | rfl
  · exact hfree u hu
  · exact hpc

theorem SupervisorState.Waiting.set {task' : SuperviseTask} (hw : s.Waiting)
    (hpc : task'.pc ≠ .top ∧ task'.pc ≠ .again) : (s.set i task').Waiting := by
  intro u hu
  rcases List.mem_or_eq_of_mem_set hu with hu | rfl
  · exact hw u hu
  · exact hpc

/-- A step of the source after which it still runs. -/
private theorem source_step {l : SourceLabel} {run : SourceRun} (hw : s.Waiting) (hi : s.tasks[i]? = some task)
    (hpc : task.pc = .running) (hl : l.Own) (h : task.source.Step l run) (hres : run.result = none) :
    sup.Step s (.source i l) (s.set i { task with source := run, pc := .running }) := by
  have hstep : sup.Step s (.source i l) _ := .source hw hi hpc hl h (jitterOf_zero task.backoff)
  rwa [SuperviseTask.settle_running hres] at hstep

private theorem canStart_of_goes (hw : s.Waiting) (hi : s.tasks[i]? = some task) (hpc : task.pc = .running)
    (h : task.source.Goes) : CanStart sup s := by
  obtain ⟨l, run, hstep, hl, hres, hact | ⟨l', run', hstep', hl', hres', hact⟩⟩ := h
  · exact .of_step (source_step hw hi hpc hl hstep hres) ⟨i, _, rfl, getElem?_set_self _ hi, hact⟩
  · have hi' := getElem?_set_self { task with source := run, pc := .running } hi
    have hw' : (s.set i { task with source := run, pc := .running }).Waiting := hw.set ⟨by simp, by simp⟩
    exact .cons (source_step hw hi hpc hl hstep hres)
      (.of_step (source_step hw' hi' rfl hl' hstep' hres') ⟨i, _, rfl, getElem?_set_self _ hi', hact⟩)

private theorem SupervisorState.exists_first (h : ¬ ∀ task ∈ s.tasks, task.pc ≠ .top) : ∃ i task, s.First i task := by
  classical
  push Not at h
  obtain ⟨task, hm, hpc⟩ := h
  have hex : ∃ (i : ℕ) (task : SuperviseTask), s.tasks[i]? = some task ∧ task.pc = .top := by
    obtain ⟨i, hi⟩ := List.mem_iff_getElem?.1 hm
    exact ⟨i, task, hi, hpc⟩
  obtain ⟨u, hu, hupc⟩ := Nat.find_spec hex
  exact ⟨Nat.find hex, u, hu, hupc, fun j hj v hv hvpc => Nat.find_min hex hj ⟨v, hv, hvpc⟩⟩

/-- While the supervisor is stopping, the tasks that have not begun are over as soon as they do. -/
private theorem canStart_of_stopping (hb : s.begun = true) (hs : s.stopping = true) (hfree : s.Free)
    (hi : s.tasks[i]? = some task) (hpc : task.pc = .running) (h : task.source.Goes) : CanStart sup s := by
  -- by induction on how many have not begun
  induction hn : s.tasks.countP (fun u => u.pc = .top) using Nat.strong_induction_on generalizing s with
  | _ n ih =>
    by_cases htop : ∀ u ∈ s.tasks, u.pc ≠ .top
    · exact canStart_of_goes (fun u hu => ⟨htop u hu, hfree u hu⟩) hi hpc h
    · -- the first of them begins, finds the supervisor stopping, and is over
      obtain ⟨j, u, hj⟩ := SupervisorState.exists_first htop
      have hji : j ≠ i := by
        rintro rfl
        have hpc' := hj.2.1
        rw [Option.some.inj (hj.1.symm.trans hi), hpc] at hpc'
        cases hpc'
      have hloop : u.loop s.stopping sup.minBackoff = { u with pc := .exited } := by
        rw [SuperviseTask.loop, if_pos hs]
      have hcount : (s.set j { u with pc := .exited }).tasks.countP (fun u => u.pc = .top) < n := by
        obtain ⟨hlt, hget⟩ := List.getElem?_eq_some_iff.1 hj.1
        have hpos : 0 < s.tasks.countP (fun u => u.pc = .top) :=
          List.countP_pos_iff.2 ⟨u, List.mem_of_getElem? hj.1, by simp [hj.2.1]⟩
        rw [SupervisorState.set, List.countP_set hlt]
        simp [hget, hj.2.1]
        omega
      refine .cons (.enter hb hj hfree) ?_
      rw [hloop]
      refine ih _ hcount hb hs (hfree.set (by simp)) ?_ rfl
      rw [SupervisorState.set, List.getElem?_set_ne hji]
      exact hi

/-- The task of a polling source calls `run`, and thereby polls, when its loop goes on. -/
private theorem loop_polls {src : PollingSource} {u : PollingState} (hsource : task.source = .polling src u)
    (minBackoff : ℚ) : (task.loop false minBackoff).source.Active := by
  rw [SuperviseTask.loop, if_neg (by simp), SuperviseTask.settle_source, hsource]
  trivial

private theorem canStart_of_first {src : PollingSource} {u : PollingState} (hb : s.begun = true)
    (hs : s.stopping = false)
    (hfree : s.Free) (hi : s.First i task) (hsource : task.source = .polling src u) : CanStart sup s := by
  refine .of_step (.enter hb hi hfree) ⟨i, _, rfl, getElem?_set_self _ hi.1, ?_⟩
  rw [hs]
  exact loop_polls hsource _

private theorem canStart_of_sleeping {src : PollingSource} {u : PollingState} {duration : ℚ} (hw : s.Waiting)
    (hs : s.stopping = false) (hi : s.tasks[i]? = some task) (hpc : task.pc = .sleeping duration)
    (hsource : task.source = .polling src u) : CanStart sup s := by
  refine .of_step (.woken hw hi hpc) ⟨i, _, rfl, getElem?_set_self _ hi, ?_⟩
  rw [hs]
  have hsource' : { task with backoff := min (task.backoff * 2) sup.maxBackoff }.source = .polling src u := hsource
  exact loop_polls hsource' _

/-- The source of a task that is not quiet runs, and goes on; or it is a polling source and will run. -/
private theorem SupervisorInv.not_quiet {restarts : Bool} (h : SupervisorInv s) (hi : s.tasks[i]? = some task)
    (hq : ¬ task.Quiet restarts) :
    (task.pc = .running ∧ task.source.Goes) ∨
      (task.pc ≠ .running ∧ task.pc ≠ .exited ∧ restarts = true ∧ ∃ src u, task.source = .polling src u) := by
  have hoff := h.off i task hi
  have hon := h.on i task hi
  rw [SuperviseTask.Quiet] at hq
  by_cases hpc : task.pc = .running
  · refine Or.inl ⟨hpc, ?_⟩
    cases hsource : task.source with
    | polling src u =>
      rw [hsource] at hon
      exact polling_goes (hon hpc)
    | stream src u =>
      rw [hsource] at hq
      exact stream_goes hq
  · refine Or.inr ⟨hpc, ?_⟩
    cases hsource : task.source with
    | polling src u =>
      simp only [hsource, not_and, not_or, Bool.not_eq_false] at hq
      exact ⟨(hq hpc).1, (hq hpc).2, src, u, rfl⟩
    | stream src u =>
      rw [hsource] at hq hoff
      have hu : u.pc.Off := hoff hpc
      cases hupc : u.pc <;> simp_all [StreamPc.Off, StreamPc.Detached]

/-- A task whose loop goes on, of a supervisor whose tasks all wait, can start something unless it is quiet. -/
private theorem SupervisorInv.canStart_of_waiting (h : SupervisorInv s) (hr : s.restarts = true) (hw : s.Waiting)
    (hi : s.tasks[i]? = some task) (hquiet : ¬ task.Quiet s.restarts) : CanStart sup s := by
  have hmem := List.mem_of_getElem? hi
  rcases h.not_quiet hi hquiet with ⟨hpc, hgoes⟩ | ⟨hrun, hexit, -, src, u, hsource⟩
  · exact canStart_of_goes hw hi hpc hgoes
  · have hb := h.begun hi (hw task hmem).1
    cases hpc : task.pc with
    | top => exact absurd hpc (hw task hmem).1
    | again => exact absurd hpc (hw task hmem).2
    | running => exact absurd hpc hrun
    | sleeping duration =>
      exact canStart_of_sleeping hw (SupervisorState.not_stopping_of_restarts hr hb) hi hpc hsource
    | exited => exact absurd hpc hexit

/-- The first task to begin is one of a polling source, or else the supervisor hangs. -/
private theorem canStart_of_top (hr : s.restarts = true) (hhung : ¬ s.Hung) (hfree : s.Free)
    (htop : ¬ ∀ u ∈ s.tasks, u.pc ≠ .top) : CanStart sup s := by
  obtain ⟨j, u, hj⟩ := SupervisorState.exists_first htop
  cases hsource : u.source with
  | polling src v =>
    cases hb : s.begun with
    | true => exact canStart_of_first hb (SupervisorState.not_stopping_of_restarts hr hb) hfree hj hsource
    | false =>
      -- a `run` that begins only now forgets that the supervisor is stopping
      refine .cons (.begin hb) ?_
      exact canStart_of_first (s := { s with stopping := false, begun := true }) rfl rfl hfree hj hsource
  | stream src v => exact absurd (Or.inr ⟨hr, j, u, hj, by rw [hsource]; trivial⟩) hhung

/-- A supervisor that is not quiet can start something. -/
private theorem SupervisorInv.canStart (sup : SourceSupervisor) (h : SupervisorInv s) (hq : ¬ s.Quiet) :
    CanStart sup s := by
  obtain ⟨hhung, i, task, hi, hquiet⟩ :
      ¬ s.Hung ∧ ∃ (i : ℕ) (task : SuperviseTask), s.tasks[i]? = some task ∧ ¬ task.Quiet s.restarts := by
    simpa [SupervisorState.Quiet] using hq
  have hfree : s.Free := by
    by_contra hfree
    exact hhung (Or.inl hfree)
  cases hr : s.restarts with
  | true =>
    by_cases htop : ∀ u ∈ s.tasks, u.pc ≠ .top
    · exact h.canStart_of_waiting hr (fun u hu => ⟨htop u hu, hfree u hu⟩) hi hquiet
    · exact canStart_of_top hr hhung hfree htop
  | false =>
    rcases h.not_quiet hi hquiet with ⟨hpc, hgoes⟩ | ⟨-, -, hr', -⟩
    · have hb := h.begun hi (by simp [hpc])
      exact canStart_of_stopping hb (SupervisorState.stopping_of_restarts hr) hfree hi hpc hgoes
    · rw [hr] at hr'
      cases hr'

end

/-- A quiet state stays quiet, and nothing is started. -/
private theorem SupervisorInv.nothing_starts {path : List (SupervisorLabel × SupervisorState)} (h : SupervisorInv s)
    (hs : s.Stopped) (hq : s.Quiet) (hrun : Transition.Run sup.Step s path) : ∀ x ∈ path, ¬ Starts x.1 x.2 := by
  induction path generalizing s with
  | nil => simp
  | cons x path ih =>
    obtain ⟨hs', hq', hstart⟩ := h.quiet_step hs hq hrun.1
    intro y hy
    rcases List.mem_cons.1 hy with rfl | hy
    · exact hstart
    · exact ih (h.step hrun.1) hs' hq' hrun.2 y hy

/-- After `stop` has completed, nothing is started any more in any continuation if and only if the event loop is kept
by one task for ever, or every task is quiet: no polling source is in `run` or will be, and no stream source has a
connection or makes one. -/
theorem stop_effective_iff {sources : List (PollingSource ⊕ StreamSource)}
    {path : List (SupervisorLabel × SupervisorState)} (hrun : Transition.Run sup.Step (sup.start sources) path)
    (hstopped : (Transition.last (sup.start sources) path).Stopped) :
    (∀ path', Transition.Run sup.Step (Transition.last (sup.start sources) path) path' →
      ∀ x ∈ path', ¬ Starts x.1 x.2) ↔ (Transition.last (sup.start sources) path).Quiet := by
  have hinv : SupervisorInv (Transition.last (sup.start sources) path) :=
    (hrun.always (fun _ _ _ h hstep => h.step hstep) (supervisorInv_start sources)).last
  constructor
  · intro hnone
    by_contra hq
    obtain ⟨path', hrun', x, hx, hstart⟩ := hinv.canStart sup hq
    exact hnone path' hrun' x hx hstart
  · exact fun hq path' hrun' => hinv.nothing_starts hstopped hq hrun'

/-! ### A stream source asleep, and a polling source at a poll -/

/-- A supervisor of one SSE source, and of one polling source. -/
def superviseSse : SupervisorState := SourceSupervisor.start {} [.inr (SSESource.source { account := seller })]

def supervisePolling : SupervisorState := SourceSupervisor.start {} [.inl { account := seller }]

section
variable {s : SupervisorState} {task : SuperviseTask} (h : s.tasks = [task])

include h

theorem free_of_alone (hpc : task.pc ≠ .again) : s.Free := by
  rw [SupervisorState.Free, h]
  simpa using hpc

theorem waiting_of_alone (hpc : task.pc ≠ .top ∧ task.pc ≠ .again) : s.Waiting := by
  rw [SupervisorState.Waiting, h]
  simpa using hpc

theorem first_of_alone (hpc : task.pc = .top) : s.First 0 task :=
  ⟨by rw [h]; rfl, hpc, fun j hj => absurd hj (Nat.not_lt_zero j)⟩

end

/-- The connection of the SSE source is lost, and the supervisor is stopped while the source sleeps. -/
theorem stop_effective_asleep :
    ∃ path, path.length = 5 ∧ Transition.Run (SourceSupervisor.Step {}) superviseSse path ∧
      (Transition.last superviseSse path).Stopped ∧
      ∀ path', Transition.Run (SourceSupervisor.Step {}) (Transition.last superviseSse path) path' →
        ∀ x ∈ path', ¬ Starts x.1 x.2 := by
  have effective : ∀ path, Transition.Run (SourceSupervisor.Step {}) superviseSse path → path.length = 5 →
      (Transition.last superviseSse path).Stopped → (Transition.last superviseSse path).Quiet → _ :=
    fun path hrun hlen hstopped hquiet =>
      And.intro hlen (And.intro hrun (And.intro hstopped ((stop_effective_iff hrun hstopped).2 hquiet)))
  refine ⟨_, effective [(.begin, _), (.enter 0, _), (.source 0 (.stream (.disconnected (some .httpError) 0)), _),
    (.stop, _), (.close, _)] ⟨.begin rfl, .enter rfl (first_of_alone rfl rfl) (free_of_alone rfl (by decide)),
      .source (waiting_of_alone rfl (by decide)) rfl rfl trivial (.stream (.lost trivial rfl (jitterOf_zero _)))
        (jitterOf_zero _), .stop rfl (free_of_alone rfl (by decide)),
      .close rfl rfl (free_of_alone rfl (by decide)), trivial⟩ rfl rfl (Or.inr ?_)⟩
  intro i task hi
  rcases i with _ | i
  · cases hi
    trivial
  · cases hi

/-- The supervisor is stopped while the polling source waits for a batch: the items of the batch are fed. -/
theorem stop_not_effective :
    ∃ path path', Transition.Run (SourceSupervisor.Step {}) supervisePolling path ∧
      (Transition.last supervisePolling path).Stopped ∧
      Transition.Run (SourceSupervisor.Step {}) (Transition.last supervisePolling path) path' ∧
      ∃ x ∈ path', Starts x.1 x.2 := by
  refine ⟨[(.begin, _), (.enter 0, _), (.stop, _), (.close, _)],
    [(.source 0 (.polling (.polled (.ok (.single ⟨1, "new_lot", []⟩)))), _)],
    ⟨.begin rfl, .enter rfl (first_of_alone rfl rfl) (free_of_alone rfl (by decide)),
      .stop rfl (free_of_alone rfl (by decide)), .close rfl rfl (free_of_alone rfl (by decide)), trivial⟩, rfl,
    ⟨.source (waiting_of_alone rfl (by decide)) rfl rfl trivial (.polling (.polled _ rfl)) (jitterOf_zero _), trivial⟩,
    _, List.mem_singleton_self _, 0, _, rfl, rfl, trivial⟩

end EventusSdk
