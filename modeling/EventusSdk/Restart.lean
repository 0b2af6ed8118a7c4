import EventusSdk.Lib.Backoff
import EventusSdk.Lib.History
import EventusSdk.Stop

/-!
# Restarts and their backoff

`_supervise` for any source: all it sees of the source are the ways in which its `run` ends.  After a crash it sleeps,
for a backoff that doubles with every further crash, and calls `run` again.  After a `run` that returned it does not
sleep at all: it resets the backoff and calls `run` again at once.

A task of the supervisor is such a `_supervise`, with a source of this library in it.
-/

namespace EventusSdk

/-! ### A single `_supervise` -/

/-- What has happened in a `_supervise`. -/
inductive SuperviseEvent where
  | called
  | returned
  | crashed
  | slept (duration : ℚ)
deriving DecidableEq

/-- `_supervise` for one source, with the supervisor's flag and with what has happened so far, the last first. -/
structure SuperviseState where
  pc : SupervisePc
  backoff : ℚ
  stopping : Bool
  history : List SuperviseEvent

/-- The `run` of the source ends, the sleep is over, or the flag of the supervisor is written. -/
inductive SuperviseLabel where
  | begin
  | returned
  | raised (e : Exn) (jitter : ℚ)
  | woken (x : Except Exn Unit)
  | stopping (flag : Bool)

/-- The test of `while not self._stopping`, and the call of `source.run`. -/
def SuperviseState.loop (s : SuperviseState) : SuperviseState :=
  if s.stopping then { s with pc := .exited } else { s with pc := .running, history := .called :: s.history }

namespace SourceSupervisor

variable (sup : SourceSupervisor)

def superviseStart (stopping : Bool) : SuperviseState := ⟨.top, sup.minBackoff, stopping, []⟩

inductive SuperviseStep : SuperviseState → SuperviseLabel → SuperviseState → Prop where
  | begin {s : SuperviseState} (h : s.pc = .top) : SuperviseStep s .begin s.loop
  | returned {s : SuperviseState} (h : s.pc = .running) (hs : s.stopping = true) :
      SuperviseStep s .returned { s with pc := .exited, history := .returned :: s.history }
  -- no await between the end of `run` and the next call
  | restarted {s : SuperviseState} (h : s.pc = .running) (hs : s.stopping = false) :
      SuperviseStep s .returned
        ({ s with backoff := sup.minBackoff, history := .returned :: s.history } : SuperviseState).loop
  | crashed {s : SuperviseState} {e : Exn} {jitter : ℚ} (h : s.pc = .running) (he : e.isException = true)
      (hj : JitterOf s.backoff jitter) :
      SuperviseStep s (.raised e jitter)
        { s with pc := .sleeping (s.backoff + jitter), history := .crashed :: s.history }
  | raised {s : SuperviseState} {e : Exn} {jitter : ℚ} (h : s.pc = .running) (he : e.isException = false) :
      SuperviseStep s (.raised e jitter) { s with pc := .exited }
  | woken {s : SuperviseState} {duration : ℚ} (h : s.pc = .sleeping duration) :
      SuperviseStep s (.woken (.ok ()))
        ({ s with
          backoff := min (s.backoff * 2) sup.maxBackoff
          history := .slept duration :: s.history } : SuperviseState).loop
  | sleepRaises {s : SuperviseState} {duration : ℚ} {e : Exn} (h : s.pc = .sleeping duration) :
      SuperviseStep s (.woken (.error e)) { s with pc := .exited }
  | stopping {s : SuperviseState} (flag : Bool) : SuperviseStep s (.stopping flag) { s with stopping := flag }

/-! ### What a restart should look like -/

/-- How often `run` has crashed since it last returned, or since the beginning. -/
def crashes : List SuperviseEvent → ℕ
  | [] | .returned :: _ => 0
  | .crashed :: history => crashes history + 1
  | .called :: history | .slept _ :: history => crashes history

/-- The least backoff, doubled after each of `n` crashes, up to the greatest. -/
def backoffAfter (n : ℕ) : ℚ := min (sup.minBackoff * 2 ^ n) sup.maxBackoff

/-- Between two calls of `run` there is a sleep that is as long as the backoff, and no more than a quarter longer. -/
def BackedOff (between before : List SuperviseEvent) : Prop :=
  ∃ backoff duration, backoff = sup.backoffAfter (crashes before) ∧ sup.minBackoff ≤ backoff ∧
    backoff ≤ sup.maxBackoff ∧ .slept duration ∈ between ∧ backoff ≤ duration ∧ duration ≤ 5 / 4 * backoff

/-- Every two consecutive calls of `run` are backed off. -/
def RestartsBackedOff (s : SuperviseState) : Prop := History.Gaps .called sup.BackedOff s.history

/-- If `run` returns, the supervisor is stopping. -/
def NoCleanReturn (s : SuperviseState) (l : SuperviseLabel) : Prop := l = .returned → s.stopping = true

/-! ### What holds of a run -/

/-- The backoff is that of the crashes so far; a crash is the last that has happened while `_supervise` sleeps. -/
def SuperviseInv (s : SuperviseState) : Prop :=
  match s.pc with
  | .top => s.history = [] ∧ s.backoff = sup.backoffAfter 0
  | .running => ∃ before, s.history = .called :: before ∧ s.backoff = sup.backoffAfter (crashes before)
  | .sleeping duration => ∃ before, s.history = .crashed :: .called :: before ∧
      s.backoff = sup.backoffAfter (crashes before) ∧ s.backoff ≤ duration ∧ duration ≤ 5 / 4 * s.backoff
  | .exited => True
  | .again => False

section
variable {sup} {s t : SuperviseState} {l : SuperviseLabel}

private theorem backoffAfter_zero (hle : sup.minBackoff ≤ sup.maxBackoff) : sup.backoffAfter 0 = sup.minBackoff :=
  Backoff.capped_zero hle

/-- One more crash doubles the backoff. -/
private theorem backoffAfter_succ (hmax : 0 ≤ sup.maxBackoff) (n : ℕ) :
    sup.backoffAfter (n + 1) = min (sup.backoffAfter n * 2) sup.maxBackoff :=
  Backoff.capped_succ hmax n

private theorem backoffAfter_bounds (hmin : 0 < sup.minBackoff) (hle : sup.minBackoff ≤ sup.maxBackoff) (n : ℕ) :
    sup.minBackoff ≤ sup.backoffAfter n ∧ sup.backoffAfter n ≤ sup.maxBackoff :=
  ⟨Backoff.le_capped hmin.le hle n, Backoff.capped_le n⟩

private theorem superviseInv_loop (hb : s.backoff = sup.backoffAfter (crashes s.history)) :
    sup.SuperviseInv s.loop := by
  unfold SuperviseState.loop
  split
  · trivial
  · exact ⟨s.history, rfl, hb⟩

private theorem SuperviseInv.step (hmin : 0 < sup.minBackoff) (hle : sup.minBackoff ≤ sup.maxBackoff)
    (h : sup.SuperviseInv s) (hstep : sup.SuperviseStep s l t) : sup.SuperviseInv t := by
  have hmax : 0 ≤ sup.maxBackoff := hmin.le.trans hle
  cases hstep with
  | begin hpc =>
    rw [SuperviseInv, hpc] at h
    refine superviseInv_loop ?_
    rw [h.1]
    exact h.2
  | returned | raised | sleepRaises => trivial
  | restarted => exact superviseInv_loop (backoffAfter_zero hle).symm
  | crashed hpc he hj =>
    rw [SuperviseInv, hpc] at h
    obtain ⟨before, hh, hb⟩ := h
    have hnonneg : 0 ≤ s.backoff := by
      rw [hb]
      exact hmin.le.trans (backoffAfter_bounds hmin hle _).1
    obtain ⟨hlow, hhigh⟩ := hj.bounds hnonneg
    exact ⟨before, by rw [hh], hb, hlow, hhigh⟩
  | woken hpc =>
    rw [SuperviseInv, hpc] at h
    obtain ⟨before, hh, hb, -, -⟩ := h
    refine superviseInv_loop ?_
    simp only [hh, crashes, backoffAfter_succ hmax, hb]
  | stopping flag => exact h

/-- A step keeps the restarts backed off exactly when it is not a `run` that returns without the supervisor
stopping. -/
private theorem step_backedOff_iff (hmin : 0 < sup.minBackoff) (hle : sup.minBackoff ≤ sup.maxBackoff)
    (h : sup.SuperviseInv s) (hs : sup.RestartsBackedOff s) (hstep : sup.SuperviseStep s l t) :
    sup.RestartsBackedOff t ↔ NoCleanReturn s l := by
  cases hstep with
  | begin hpc =>
    refine iff_of_true ?_ (fun h => by cases h)
    rw [SuperviseInv, hpc] at h
    unfold SuperviseState.loop
    split
    · exact hs
    · rw [RestartsBackedOff, h.1]
      exact History.gaps_first List.not_mem_nil
  | returned hpc hst => exact iff_of_true ((History.gaps_cons (by simp)).2 hs) fun _ => hst
  | restarted hpc hst =>
    rw [SuperviseInv, hpc] at h
    obtain ⟨before, hh, -⟩ := h
    refine iff_of_false (fun hgap => ?_) (fun hcond => by rw [hcond rfl] at hst; cases hst)
    simp only [RestartsBackedOff, SuperviseState.loop, hst, hh] at hgap
    obtain ⟨⟨_, _, -, -, -, hslept, -⟩, -⟩ := (History.gaps_mark [SuperviseEvent.returned] (by simp)).1 hgap
    simp at hslept
  | crashed => exact iff_of_true ((History.gaps_cons (by simp)).2 hs) fun h => by cases h
  | @woken duration hpc =>
    refine iff_of_true ?_ (fun h => by cases h)
    rw [SuperviseInv, hpc] at h
    obtain ⟨before, hh, hb, hlow, hhigh⟩ := h
    have hslept : History.Gaps .called sup.BackedOff (.slept duration :: s.history) :=
      (History.gaps_cons (by simp)).2 hs
    unfold SuperviseState.loop
    split
    · exact hslept
    · obtain ⟨hle1, hle2⟩ := backoffAfter_bounds hmin hle (crashes before)
      rw [hh] at hslept
      rw [RestartsBackedOff, hh]
      refine (History.gaps_mark [SuperviseEvent.slept duration, .crashed] (by simp)).2 ⟨?_, hslept⟩
      exact ⟨_, _, rfl, hle1, hle2, List.mem_cons_self .., hb ▸ hlow, hb ▸ hhigh⟩
  | raised | sleepRaises | stopping => exact iff_of_true hs fun h => by cases h

/-- In a run of `_supervise`, every two calls of the source's `run` have a sleep between them that is as long as the
backoff, if and only if the source's `run` never returns while the supervisor is not stopping. -/
theorem restarts_backedOff_iff {stopping : Bool} {path : List (SuperviseLabel × SuperviseState)}
    (hmin : 0 < sup.minBackoff) (hle : sup.minBackoff ≤ sup.maxBackoff)
    (hrun : Transition.Run sup.SuperviseStep (sup.superviseStart stopping) path) :
    Transition.Always sup.RestartsBackedOff (sup.superviseStart stopping) path ↔
      Transition.Meets NoCleanReturn (sup.superviseStart stopping) path :=
  hrun.always_iff_meets sup.SuperviseInv (fun _ _ _ h _ hstep _ => h.step hmin hle hstep)
    (fun _ _ _ h hs hstep => step_backedOff_iff hmin hle h hs hstep) ⟨rfl, (backoffAfter_zero hle).symm⟩
    (History.gaps_of_notMem List.not_mem_nil)

end

end SourceSupervisor

/-! ### The tasks of a supervisor -/

/-- A task back at the test of its loop is about to call `run`, which here happens at once. -/
def SupervisePc.shown : SupervisePc → SupervisePc
  | .again => .running
  | pc => pc

/-- The task is the `_supervise` of its source. -/
structure SuperviseTask.ShownBy (task : SuperviseTask) (stopping : Bool) (a : SuperviseState) : Prop where
  pc : a.pc = task.pc.shown
  backoff : a.backoff = task.backoff
  flag : a.stopping = stopping
  again : task.pc = .again → stopping = false

namespace SuperviseTask

variable {sup : SourceSupervisor} {task : SuperviseTask} {stopping : Bool} {a : SuperviseState}

/-- What the task makes of how its source's `run` goes on. -/
private theorem settle_shownBy {jitter : ℚ} (hpc : a.pc = .running) (hb : a.backoff = task.backoff)
    (hst : a.stopping = stopping) (hj : JitterOf task.backoff jitter) :
    ∃ path, Transition.Run sup.SuperviseStep a path ∧
      (task.settle stopping sup.minBackoff jitter).ShownBy stopping (Transition.last a path) := by
  unfold settle
  split
  · exact ⟨[], trivial, hpc, hb, hst, by simp⟩
  · split
    · next hs =>
      subst hs
      exact ⟨[(.returned, _)], ⟨.returned hpc hst, trivial⟩, rfl, hb, hst, by simp⟩
    · next hs =>
      have hst' : a.stopping = false := by rw [hst, Bool.eq_false_of_not_eq_true hs]
      refine ⟨[(.returned, _)], ⟨.restarted hpc hst', trivial⟩, ?_⟩
      simp only [Transition.last, SuperviseState.loop, hst', Bool.false_eq_true, if_false]
      exact ⟨rfl, rfl, hst' ▸ hst, fun _ => hst ▸ hst'⟩
  · split
    · next he =>
      exact ⟨[(.raised _ jitter, _)], ⟨.crashed hpc he (hb ▸ hj), trivial⟩, by rw [Transition.last, hb]; rfl, hb, hst,
        by simp⟩
    · next he =>
      exact ⟨[(.raised _ jitter, _)], ⟨.raised hpc (Bool.eq_false_of_not_eq_true he), trivial⟩, rfl, hb, hst, by simp⟩

private theorem loop_shownBy (sup : SourceSupervisor) (hb : a.backoff = task.backoff) (hst : a.stopping = stopping) :
    ∃ path, Transition.Run sup.SuperviseStep a.loop path ∧
      (task.loop stopping sup.minBackoff).ShownBy stopping (Transition.last a.loop path) := by
  cases hs : stopping with
  | true =>
    rw [hs] at hst
    rw [SuperviseState.loop, if_pos hst, loop, if_pos rfl]
    exact ⟨[], trivial, rfl, hb, hst, by simp⟩
  | false =>
    rw [hs] at hst
    rw [SuperviseState.loop, if_neg (by simp [hst]), loop, if_neg (by simp)]
    exact settle_shownBy rfl hb hst (jitterOf_zero _)

end SuperviseTask

/-- The `i`-th task is the `_supervise` of its source. -/
def SupervisorState.Shows (i : ℕ) (s : SupervisorState) (a : SuperviseState) : Prop :=
  ∃ task, s.tasks[i]? = some task ∧ task.ShownBy s.stopping a

section
variable {sup : SourceSupervisor} {s t : SupervisorState} {l : SupervisorLabel} {a : SuperviseState} {i : ℕ}

/-- The `i`-th task is the one that was set, or it is as before. -/
theorem SupervisorState.Shows.set {j : ℕ} {task task' : SuperviseTask} (h : s.Shows i a)
    (hj : s.tasks[j]? = some task) (hset : task.ShownBy s.stopping a →
      ∃ path, Transition.Run sup.SuperviseStep a path ∧ task'.ShownBy s.stopping (Transition.last a path)) :
    ∃ path, Transition.Run sup.SuperviseStep a path ∧ (s.set j task').Shows i (Transition.last a path) := by
  obtain ⟨task, hi, hshown⟩ := h
  by_cases hij : i = j
  · subst hij
    obtain rfl := Option.some.inj (hi.symm.trans hj)
    obtain ⟨path, hrun, h'⟩ := hset hshown
    exact ⟨path, hrun, task', getElem?_set_self task' hi, h'⟩
  · refine ⟨[], trivial, task, ?_, hshown⟩
    rw [SupervisorState.set, List.getElem?_set_ne (Ne.symm hij)]
    exact hi

/-- Every step of the supervisor is, for each of its tasks, a run of `_supervise`. -/
private theorem shows_step (h : s.Shows i a) (hstep : sup.Step s l t) :
    ∃ path, Transition.Run sup.SuperviseStep a path ∧ t.Shows i (Transition.last a path) := by
  cases hstep with
  | begin =>
    obtain ⟨task, hi, hshown⟩ := h
    exact ⟨[(.stopping false, _)], ⟨.stopping false, trivial⟩, task, hi, hshown.pc, hshown.backoff, rfl, fun _ => rfl⟩
  | stop _ hfree =>
    obtain ⟨task, hi, hshown⟩ := h
    refine ⟨[(.stopping true, _)], ⟨.stopping true, trivial⟩, task, hi, hshown.pc, hshown.backoff, rfl, fun hpc => ?_⟩
    exact absurd hpc (hfree task (List.mem_of_getElem? hi))
  | enter _ hfirst =>
    refine h.set hfirst.1 fun hshown => ?_
    have hpc : a.pc = .top := by rw [hshown.pc, hfirst.2.1]; rfl
    obtain ⟨path, hrun, h'⟩ := SuperviseTask.loop_shownBy sup hshown.backoff hshown.flag
    exact ⟨(.begin, _) :: path, ⟨.begin hpc, hrun⟩, h'⟩
  | again hi' hpc =>
    refine h.set hi' fun hshown => ?_
    have hs := hshown.again hpc
    have hrunning : a.pc = .running := by rw [hshown.pc, hpc]; rfl
    rw [SuperviseTask.loop, if_neg (by simp [hs])]
    exact SuperviseTask.settle_shownBy hrunning hshown.backoff hshown.flag (jitterOf_zero _)
  | source _ hi' hpc _ _ hj =>
    refine h.set hi' fun hshown => ?_
    have hrunning : a.pc = .running := by rw [hshown.pc, hpc]; rfl
    exact SuperviseTask.settle_shownBy hrunning hshown.backoff hshown.flag hj
  | @woken _ task duration _ hi' hpc =>
    refine h.set hi' fun hshown => ?_
    have hsleeping : a.pc = .sleeping duration := by rw [hshown.pc, hpc]; rfl
    let a' : SuperviseState :=
      { a with backoff := min (a.backoff * 2) sup.maxBackoff, history := .slept duration :: a.history }
    let task' : SuperviseTask := { task with backoff := min (task.backoff * 2) sup.maxBackoff }
    have hb : a'.backoff = task'.backoff := by simp only [a', task', hshown.backoff]
    obtain ⟨path, hrun, h'⟩ := SuperviseTask.loop_shownBy sup hb hshown.flag
    exact ⟨(.woken (.ok ()), _) :: path, ⟨.woken hsleeping, hrun⟩, h'⟩
  | @sleepRaises _ _ duration e _ hi' hpc =>
    refine h.set hi' fun hshown => ?_
    have hsleeping : a.pc = .sleeping duration := by rw [hshown.pc, hpc]; rfl
    exact ⟨[(.woken (.error e), _)], ⟨.sleepRaises hsleeping, trivial⟩, rfl, hshown.backoff, hshown.flag, by simp⟩
  | close _ hi' =>
    refine h.set hi' fun hshown => ?_
    exact ⟨[], trivial, hshown.pc, hshown.backoff, hshown.flag, hshown.again⟩

/-- What a task of the supervisor does in a run is a run of `_supervise`. -/
theorem supervisor_refines {sources : List (PollingSource ⊕ StreamSource)}
    {path : List (SupervisorLabel × SupervisorState)} (hi : i < sources.length)
    (hrun : Transition.Run sup.Step (sup.start sources) path) :
    ∃ path', Transition.Run sup.SuperviseStep (sup.superviseStart false) path' ∧
      (Transition.last (sup.start sources) path).Shows i (Transition.last (sup.superviseStart false) path') := by
  refine hrun.matched (SupervisorState.Shows i) (fun _ _ _ _ h hstep => shows_step h hstep) ?_
  obtain ⟨task, htask⟩ : ∃ task, (sup.start sources).tasks[i]? = some task := by
    simp [SourceSupervisor.start, hi]
  have hmem := List.mem_of_getElem? htask
  obtain ⟨src, -, rfl⟩ := List.mem_map.1 hmem
  cases src with
  | inl => exact ⟨_, htask, rfl, rfl, rfl, by simp⟩
  | inr => exact ⟨_, htask, rfl, rfl, rfl, by simp⟩

end

/-! ### A source that crashes, and one that is closed -/

/-- After a crash, `run` is called again behind a sleep of one second. -/
theorem restarts_backedOff_crash :
    ∃ path, Transition.Run (SourceSupervisor.SuperviseStep {}) (SourceSupervisor.superviseStart {} false) path ∧
      (Transition.last (SourceSupervisor.superviseStart {} false) path).history =
        [.called, .slept 1, .crashed, .called] ∧
      Transition.Always (SourceSupervisor.RestartsBackedOff {}) (SourceSupervisor.superviseStart {} false) path := by
  have backedOff : ∀ path,
      Transition.Run (SourceSupervisor.SuperviseStep {}) (SourceSupervisor.superviseStart {} false) path →
      Transition.Meets SourceSupervisor.NoCleanReturn (SourceSupervisor.superviseStart {} false) path →
      Transition.Always (SourceSupervisor.RestartsBackedOff {}) (SourceSupervisor.superviseStart {} false) path :=
    fun path hrun hmeets => (SourceSupervisor.restarts_backedOff_iff (by norm_num) (by norm_num) hrun).2 hmeets
  have hrun : Transition.Run (SourceSupervisor.SuperviseStep {}) (SourceSupervisor.superviseStart {} false)
      [(.begin, _), (.raised .httpError 0, _), (.woken (.ok ()), _)] :=
    ⟨.begin rfl, .crashed rfl rfl (jitterOf_zero _), .woken rfl, trivial⟩
  refine ⟨_, hrun, by simp [Transition.last, SuperviseState.loop, SourceSupervisor.superviseStart], ?_⟩
  refine backedOff _ hrun ⟨?_, ?_, ?_, trivial⟩ <;>
    · intro h
      cases h

/-- The `run` of a closed source returns at once, and is called again without a sleep. -/
theorem restarts_not_backedOff :
    (SourceRun.stream (SSESource.source { account := seller }) { closed := true }).run.result = some (.ok ()) ∧
      ∃ path, Transition.Run (SourceSupervisor.SuperviseStep {}) (SourceSupervisor.superviseStart {} false) path ∧
        ¬ Transition.Always (SourceSupervisor.RestartsBackedOff {}) (SourceSupervisor.superviseStart {} false)
          path := by
  refine ⟨SourceRun.run_result rfl, [(.begin, _), (.returned, _)], ⟨.begin rfl, .restarted rfl rfl, trivial⟩,
    fun h => ?_⟩
  obtain ⟨_, _, -, -, -, hslept, -⟩ := h.last [] [.returned] [] rfl (by simp)
  simp at hslept

end EventusSdk
