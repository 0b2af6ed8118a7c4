import EventusSdk.Polling
import EventusSdk.StreamSource

/-!
# The supervisor

`SourceSupervisor` runs its sources side by side, each in a `_supervise` task that calls `source.run` again and again
until the supervisor is stopping, after a crash behind a sleep.  `stop` closes the sources one after another.

The tasks share one event loop, and only a task that waits lets the others go on.  A `source.run` that returns without
having waited is called again at once, so that its task keeps the event loop to itself.
-/

namespace EventusSdk

/-! ### Sources of either kind -/

/-- A source with the state of its `run`. -/
inductive SourceRun where
  | polling (src : PollingSource) (s : PollingState)
  | stream (src : StreamSource) (s : StreamState)

inductive SourceLabel where
  | polling (l : PollingLabel)
  | stream (l : StreamLabel)

/-- The source goes on by itself: neither is its `run` called nor its `aclose`. -/
def SourceLabel.Own : SourceLabel → Prop
  | .polling .run | .stream .run | .stream .aclose => False
  | _ => True

def PollingPc.result : PollingPc → Option (Except Exn Unit)
  | .ended res => some res
  | _ => none

def StreamPc.result : StreamPc → Option (Except Exn Unit)
  | .ended res => some res
  | _ => none

namespace SourceRun

inductive Step : SourceRun → SourceLabel → SourceRun → Prop where
  | polling {src : PollingSource} {s t : PollingState} {l : PollingLabel} (h : src.Step s l t) :
      Step (.polling src s) (.polling l) (.polling src t)
  | stream {src : StreamSource} {s t : StreamState} {l : StreamLabel} (h : src.Step s l t) :
      Step (.stream src s) (.stream l) (.stream src t)

/-- A call of `run`, up to where it first waits. -/
def run : SourceRun → SourceRun
  | .polling src _ => .polling src ⟨.polling, src.config.interval⟩
  | .stream src s => .stream src ({ s with backoff := src.config.minBackoff } : StreamState).loop

/-- `aclose`; the polling source inherits the one of `BaseSource`, which does nothing. -/
def aclose : SourceRun → SourceRun
  | .polling src s => .polling src s
  | .stream src s => .stream src { s with closed := true }

/-- How `run` has ended. -/
def result : SourceRun → Option (Except Exn Unit)
  | .polling _ s => s.pc.result
  | .stream _ s => s.pc.result

def Off : SourceRun → Prop
  | .polling _ s => s.pc.Off
  | .stream _ s => s.pc.Off

/-- `run` has never been called. -/
def Idle : SourceRun → Prop
  | .polling _ s => s.pc = .idle
  | .stream _ s => s.pc = .idle

end SourceRun

/-! ### The supervisor -/

structure SourceSupervisor where
  minBackoff : ℚ := 1
  maxBackoff : ℚ := 60

/-- Where a `_supervise` task is: not begun, back at the test of its loop without having waited, in `source.run`, asleep
after a crash, or over. -/
inductive SupervisePc where
  | top
  | again
  | running
  | sleeping (duration : ℚ)
  | exited
deriving DecidableEq

structure SuperviseTask where
  pc : SupervisePc
  backoff : ℚ
  source : SourceRun

/-- `begun` says whether `run` has begun, `stop` how many sources `stop` has closed, if it was called. -/
structure SupervisorState where
  stopping : Bool
  begun : Bool
  stop : Option ℕ
  tasks : List SuperviseTask

namespace SupervisorState

def set (s : SupervisorState) (i : ℕ) (task : SuperviseTask) : SupervisorState :=
  { s with tasks := s.tasks.set i task }

/-- No task keeps the event loop to itself. -/
def Free (s : SupervisorState) : Prop := ∀ task ∈ s.tasks, task.pc ≠ .again

/-- All tasks have begun, and none keeps the event loop to itself. -/
def Waiting (s : SupervisorState) : Prop := ∀ task ∈ s.tasks, task.pc ≠ .top ∧ task.pc ≠ .again

/-- The task is the first of those that have not begun.  The event loop lets tasks begin in the order in which they
were created. -/
def First (s : SupervisorState) (i : ℕ) (task : SuperviseTask) : Prop :=
  s.tasks[i]? = some task ∧ task.pc = .top ∧ ∀ j < i, ∀ u, s.tasks[j]? = some u → u.pc ≠ .top

end SupervisorState

inductive SupervisorLabel where
  | begin
  | enter (i : ℕ)
  | source (i : ℕ) (l : SourceLabel)
  | woken (i : ℕ) (x : Except Exn Unit)
  | stop
  | close

namespace SuperviseTask

/-- What a task does when its source waits or `run` has ended. -/
def settle (task : SuperviseTask) (stopping : Bool) (minBackoff jitter : ℚ) : SuperviseTask :=
  match task.source.result with
  | none => { task with pc := .running }
  | some (.ok ()) =>
    if stopping then { task with pc := .exited } else { task with pc := .again, backoff := minBackoff }
  | some (.error e) =>
    -- an exception outside `Exception` is not a crash: it ends the task
    if e.isException then { task with pc := .sleeping (task.backoff + jitter) } else { task with pc := .exited }

/-- The test of `while not self._stopping`, and the call of `source.run`. -/
def loop (task : SuperviseTask) (stopping : Bool) (minBackoff : ℚ) : SuperviseTask :=
  if stopping then { task with pc := .exited }
  else ({ task with source := task.source.run } : SuperviseTask).settle stopping minBackoff 0

end SuperviseTask

namespace SourceSupervisor

variable (sup : SourceSupervisor)

def start (sources : List (PollingSource ⊕ StreamSource)) : SupervisorState where
  stopping := false
  begun := false
  stop := none
  tasks := sources.map fun
    | .inl src => ⟨.top, sup.minBackoff, .polling src {}⟩
    | .inr src => ⟨.top, sup.minBackoff, .stream src {}⟩

inductive Step : SupervisorState → SupervisorLabel → SupervisorState → Prop where
  -- `run` clears `_stopping`, also one that `stop` has set before
  | begin {s : SupervisorState} (h : s.begun = false) : Step s .begin { s with stopping := false, begun := true }
  | enter {s : SupervisorState} {i : ℕ} {task : SuperviseTask} (hb : s.begun = true) (hi : s.First i task)
      (hfree : s.Free) : Step s (.enter i) (s.set i (task.loop s.stopping sup.minBackoff))
  | again {s : SupervisorState} {i : ℕ} {task : SuperviseTask} (hi : s.tasks[i]? = some task)
      (hpc : task.pc = .again) : Step s (.enter i) (s.set i (task.loop s.stopping sup.minBackoff))
  | source {s : SupervisorState} {i : ℕ} {task : SuperviseTask} {l : SourceLabel} {run : SourceRun} {jitter : ℚ}
      (hw : s.Waiting) (hi : s.tasks[i]? = some task) (hpc : task.pc = .running) (hl : l.Own)
      (h : task.source.Step l run) (hj : JitterOf task.backoff jitter) :
      Step s (.source i l)
        (s.set i (({ task with source := run } : SuperviseTask).settle s.stopping sup.minBackoff jitter))
  | woken {s : SupervisorState} {i : ℕ} {task : SuperviseTask} {duration : ℚ} (hw : s.Waiting)
      (hi : s.tasks[i]? = some task) (hpc : task.pc = .sleeping duration) :
      Step s (.woken i (.ok ())) (s.set i
        (({ task with backoff := min (task.backoff * 2) sup.maxBackoff } : SuperviseTask).loop s.stopping
          sup.minBackoff))
  | sleepRaises {s : SupervisorState} {i : ℕ} {task : SuperviseTask} {duration : ℚ} {e : Exn} (hw : s.Waiting)
      (hi : s.tasks[i]? = some task) (hpc : task.pc = .sleeping duration) :
      Step s (.woken i (.error e)) (s.set i { task with pc := .exited })
  | stop {s : SupervisorState} (h : s.stop = none) (hfree : s.Free) :
      Step s .stop { s with stopping := true, stop := some 0 }
  | close {s : SupervisorState} {k : ℕ} {task : SuperviseTask} (hk : s.stop = some k) (hi : s.tasks[k]? = some task)
      (hfree : s.Free) :
      Step s .close { s.set k { task with source := task.source.aclose } with stop := some (k + 1) }

end SourceSupervisor

/-! ### Sources called, closed and settled -/

namespace SourceRun

theorem off_of_result {source : SourceRun} {res : Except Exn Unit} (h : source.result = some res) : source.Off := by
  cases source with
  | polling src s =>
    show s.pc.Off
    cases hpc : s.pc with
    | ended => trivial
    | _ => rw [result, hpc] at h; cases h
  | stream src s =>
    show s.pc.Off
    cases hpc : s.pc with
    | ended => trivial
    | _ => rw [result, hpc] at h; cases h

private theorem result_ne_none {source : SourceRun} (h : source.Off) :
    source.result ≠ none ∨ source.Idle := by
  cases source with
  | polling src s =>
    show s.pc.result ≠ none ∨ s.pc = .idle
    cases hpc : s.pc <;> simp_all [Off, PollingPc.Off, PollingPc.result]
  | stream src s =>
    show s.pc.result ≠ none ∨ s.pc = .idle
    cases hpc : s.pc <;> simp_all [Off, StreamPc.Off, StreamPc.result]

/-- Once called, a source is not idle any more. -/
theorem Step.not_idle {source source' : SourceRun} {l : SourceLabel} (h : source.Step l source') (hl : l.Own) :
    ¬ source'.Idle := by
  cases h with
  | polling h => exact h.goes_on.1
  | stream h => exact h.pc_ne_idle (by rintro rfl; exact hl)

theorem run_not_idle (source : SourceRun) : ¬ source.run.Idle := by
  cases source with
  | polling src s => exact fun h => by cases h
  | stream src s =>
    intro h
    have h' : ({ s with backoff := src.config.minBackoff } : StreamState).loop.pc = .idle := h
    rcases StreamState.loop_pc { s with backoff := src.config.minBackoff } with h | h <;> rw [h] at h' <;> cases h'

/-- A call of `run` would return without having waited: the source is a stream source, and closed. -/
def Returns : SourceRun → Prop
  | .polling .. => False
  | .stream _ s => s.closed = true

theorem run_result {source : SourceRun} (h : source.Returns) : source.run.result = some (.ok ()) := by
  cases source with
  | polling src s => exact h.elim
  | stream src s =>
    have hc : s.closed = true := h
    simp [run, result, StreamState.loop, StreamPc.result, hc]

theorem run_returns {source : SourceRun} (h : source.run.result = some (.ok ())) : source.run.Returns := by
  cases source with
  | polling src s => cases h
  | stream src s =>
    refine StreamState.loop_returned (s := { s with backoff := src.config.minBackoff }) ?_
    have hres : ({ s with backoff := src.config.minBackoff } : StreamState).loop.pc.result = some (.ok ()) := h
    unfold StreamPc.result at hres
    split at hres
    · next hpc => rw [hpc, Option.some.inj hres]
    · cases hres

/-- Once `run` has returned, so does every further call. -/
theorem Step.returns {source source' : SourceRun} {l : SourceLabel} (h : source.Step l source')
    (hres : source'.result = some (.ok ())) : source'.Returns := by
  cases h with
  | @polling src s t l h =>
    have hres' : t.pc.result = some (.ok ()) := hres
    unfold PollingPc.result at hres'
    split at hres'
    · next hpc => exact absurd (hpc.trans (by rw [Option.some.inj hres'])) h.goes_on.2
    · cases hres'
  | @stream src s t l h =>
    have hres' : t.pc.result = some (.ok ()) := hres
    unfold StreamPc.result at hres'
    split at hres'
    · next hpc => exact h.returned (hpc.trans (by rw [Option.some.inj hres']))
    · cases hres'

end SourceRun

namespace SuperviseTask

variable {task : SuperviseTask} {stopping : Bool} {minBackoff jitter : ℚ}

@[simp] theorem settle_source : (task.settle stopping minBackoff jitter).source = task.source := by
  unfold settle
  split
  · rfl
  · split <;> rfl
  · split <;> rfl

theorem settle_running (h : task.source.result = none) :
    task.settle stopping minBackoff jitter = { task with pc := .running } := by
  rw [settle, h]

theorem settle_off (h : (task.settle stopping minBackoff jitter).pc ≠ .running) : task.source.Off := by
  cases hres : task.source.result with
  | none =>
    rw [settle_running hres] at h
    exact absurd rfl h
  | some res => exact SourceRun.off_of_result hres

theorem settle_again (h : (task.settle stopping minBackoff jitter).pc = .again) :
    stopping = false ∧ task.source.result = some (.ok ()) := by
  cases hres : task.source.result with
  | none =>
    rw [settle_running hres] at h
    cases h
  | some res =>
    rw [settle, hres] at h
    rcases res with e | _
    · cases he : e.isException <;> simp [he] at h
    · cases stopping with
      | true => cases h
      | false => exact ⟨rfl, rfl⟩

theorem settle_on (h : (task.settle stopping minBackoff jitter).pc = .running) (hidle : ¬ task.source.Idle) :
    ¬ task.source.Off := by
  intro hoff
  obtain ⟨res, hres⟩ := Option.ne_none_iff_exists'.1 ((SourceRun.result_ne_none hoff).resolve_right hidle)
  rw [settle, hres] at h
  rcases res with e | _
  · cases he : e.isException <;> simp [he] at h
  · cases stopping <;> simp at h

end SuperviseTask

end EventusSdk
