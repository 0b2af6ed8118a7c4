import EventusSdk.Lib.Simulation
import EventusSdk.Stop

/-!
# One source among others

`SourceSupervisor` promises that a source that crashes never takes down its siblings.  What a supervisor of one source
does with it is what every supervisor of several does with each of them: leaving out the steps of the others makes of
any run of the second a run of the first (`alone`), and a step that the source could make if it were alone it can make
among the others as well, whatever has become of these, once the tasks of all have begun.

The event loop is shared, so that the last is no matter of course: a task that is called again and again without
waiting lets nobody else go on.  There is such a task only if `stop` has been called before `run`.  What is no crash,
an exception outside `Exception` or one that leaves the sleep behind a crash, ends the task, and the task group then
cancels the others; the runs of which it is said that no task hinders another are those without such an exception.
-/

namespace EventusSdk

open Transition

/-! ### The supervisor of one of the sources -/

/-- `stop` has come past the `i`-th source, or it has not. -/
def SupervisorState.alone (i : ℕ) (s : SupervisorState) : SupervisorState :=
  { s with
    stop := s.stop.map fun k => if i < k then 1 else 0
    tasks := s.tasks[i]?.toList }

/-- The step, if it is one of the supervisor itself or of the `i`-th source. -/
def SupervisorLabel.alone (i : ℕ) (s : SupervisorState) : SupervisorLabel → Option SupervisorLabel
  | .begin => some .begin
  | .enter j => if j = i then some (.enter 0) else none
  | .source j l => if j = i then some (.source 0 l) else none
  | .woken j x => if j = i then some (.woken 0 x) else none
  | .stop => some .stop
  | .close => if s.stop = some i then some .close else none

/-- A step of the only source, as one of the `i`-th. -/
def SupervisorLabel.among (i : ℕ) : SupervisorLabel → SupervisorLabel
  | .enter _ => .enter i
  | .source _ l => .source i l
  | .woken _ x => .woken i x
  | l => l

/-- The exception with which the source goes on. -/
def SourceLabel.raises : SourceLabel → Option Exn
  | .polling (.polled (.error e)) | .polling (.fed _ (.error e)) | .polling (.confirmed (.error e))
  | .polling (.woken (.error e)) => some e
  | .stream (.disconnected (some e) _) | .stream (.fed (.error e)) | .stream (.advanced (.error e))
  | .stream (.woken (.error e)) => some e
  | _ => none

/-- `stop` is called once `run` has begun, and no exception leaves a task. -/
structure Calm (s : SupervisorState) (l : SupervisorLabel) : Prop where
  stop : l = .stop → s.begun = true
  source : ∀ i l' e, l = .source i l' → l'.raises = some e → e.isException = true
  woken : ∀ i e, l ≠ .woken i (.error e)

/-- All tasks have begun. -/
def SupervisorState.AllBegun (s : SupervisorState) : Prop := ∀ task ∈ s.tasks, task.pc ≠ .top

/-- Whatever step the `i`-th source could make alone, it can make, and the others are as before. -/
def SupervisorState.Undisturbed (sup : SourceSupervisor) (i : ℕ) (s : SupervisorState) : Prop :=
  ∀ l t, l.task = some 0 → sup.Step (s.alone i) l t →
    ∃ s', sup.Step s (l.among i) s' ∧ s'.alone i = t ∧ ∀ j ≠ i, s'.alone j = s.alone j

/-- A task is over only because the supervisor is stopping. -/
def SupervisorState.Ended (s : SupervisorState) : Prop := ∀ task ∈ s.tasks, task.pc = .exited → s.stopping = true

/-! ### Tasks set and looked up -/

section
variable {sup : SourceSupervisor} {s t : SupervisorState} {l : SupervisorLabel} {i j : ℕ} {task task' : SuperviseTask}

private theorem SupervisorState.alone_tasks (hi : s.tasks[i]? = some task) : (s.alone i).tasks = [task] := by
  simp [alone, hi]

private theorem SupervisorState.alone_set_ne (h : j ≠ i) : (s.set j task').alone i = s.alone i := by
  simp [alone, set, List.getElem?_set_ne h]

private theorem SupervisorState.alone_set_self (hi : s.tasks[i]? = some task) :
    (s.set i task').alone i = (s.alone i).set 0 task' := by
  have hset : (s.tasks.set i task')[i]? = some task' := getElem?_set_self task' hi
  simp [alone, set, hi, hset]

private theorem SupervisorState.mem_of_alone (h : task ∈ (s.alone i).tasks) : task ∈ s.tasks := by
  rw [alone, Option.mem_toList] at h
  exact List.mem_of_getElem? h

theorem SupervisorState.Free.alone (h : s.Free) : (s.alone i).Free :=
  fun task hmem => h task (mem_of_alone hmem)

theorem SupervisorState.Waiting.alone (h : s.Waiting) : (s.alone i).Waiting :=
  fun task hmem => h task (mem_of_alone hmem)

private theorem SupervisorState.alone_getElem? (hi : s.tasks[i]? = some task) : (s.alone i).tasks[0]? = some task := by
  rw [alone_tasks hi]
  rfl

/-! ### A run of several, as one of each -/

/-- A step of another task is none of the `i`-th source's. -/
private theorem alone_silent (hstep : sup.Step s l t) (hl : l.alone i s = none) : t.alone i = s.alone i := by
  cases hstep with
  | begin | stop => cases hl
  | @enter j | @again j | @source j | @woken j | @sleepRaises j =>
    have hne : j ≠ i := fun h => by simp [SupervisorLabel.alone, h] at hl
    exact SupervisorState.alone_set_ne hne
  | @close k task hk =>
    have hne : k ≠ i := fun h => by simp [SupervisorLabel.alone, hk, h] at hl
    have hlt : i < k + 1 ↔ i < k := by omega
    simp [SupervisorState.alone, SupervisorState.set, List.getElem?_set_ne hne, hk, hlt]

theorem SupervisorState.First.alone (hi : s.First i task) : (s.alone i).First 0 task :=
  ⟨alone_getElem? hi.1, hi.2.1, fun _ hj => absurd hj (Nat.not_lt_zero _)⟩

private theorem alone_step {l' : SupervisorLabel} (hstep : sup.Step s l t) (hl : l.alone i s = some l') :
    sup.Step (s.alone i) l' (t.alone i) := by
  cases hstep with
  | begin h =>
    cases hl
    exact .begin h
  | stop h hfree =>
    cases hl
    have hs : (s.alone i).stop = none := by simp [SupervisorState.alone, h]
    exact .stop hs hfree.alone
  | @enter j task hb hj hfree =>
    obtain ⟨rfl, ⟨⟩⟩ := Option.ite_none_right_eq_some.1 hl
    rw [SupervisorState.alone_set_self hj.1]
    exact .enter hb hj.alone hfree.alone
  | @again j task hj hpc =>
    obtain ⟨rfl, ⟨⟩⟩ := Option.ite_none_right_eq_some.1 hl
    rw [SupervisorState.alone_set_self hj]
    exact .again (SupervisorState.alone_getElem? hj) hpc
  | @source j task l run jitter hw hj hpc hown h hjit =>
    obtain ⟨rfl, ⟨⟩⟩ := Option.ite_none_right_eq_some.1 hl
    rw [SupervisorState.alone_set_self hj]
    exact .source hw.alone (SupervisorState.alone_getElem? hj) hpc hown h hjit
  | @woken j task duration hw hj hpc =>
    obtain ⟨rfl, ⟨⟩⟩ := Option.ite_none_right_eq_some.1 hl
    rw [SupervisorState.alone_set_self hj]
    exact .woken hw.alone (SupervisorState.alone_getElem? hj) hpc
  | @sleepRaises j task duration e hw hj hpc =>
    obtain ⟨rfl, ⟨⟩⟩ := Option.ite_none_right_eq_some.1 hl
    rw [SupervisorState.alone_set_self hj]
    exact .sleepRaises hw.alone (SupervisorState.alone_getElem? hj) hpc
  | @close k task hk hj hfree =>
    obtain ⟨hki, ⟨⟩⟩ := Option.ite_none_right_eq_some.1 hl
    obtain rfl : k = i := Option.some.inj (hk.symm.trans hki)
    have hs : (s.alone k).stop = some 0 := by simp [SupervisorState.alone, hk]
    have htask' : (s.tasks.set k { task with source := task.source.aclose })[k]? =
        some { task with source := task.source.aclose } := getElem?_set_self _ hj
    have ht : SupervisorState.alone k { s.set k { task with source := task.source.aclose } with stop := some (k + 1) } =
        { (s.alone k).set 0 { task with source := task.source.aclose } with stop := some 1 } := by
      simp [SupervisorState.alone, SupervisorState.set, hj, htask']
    rw [ht]
    exact .close hs (SupervisorState.alone_getElem? hj) hfree.alone

end

/-- What a supervisor of several sources does with the `i`-th is what a supervisor does that has no other. -/
def SourceSupervisor.alone (sup : SourceSupervisor) (i : ℕ) : Simulation sup.Step sup.Step where
  Inv := fun _ => True
  state := SupervisorState.alone i
  label := fun s l => l.alone i s
  keeps := fun _ _ _ _ _ => trivial
  silent := fun _ _ _ _ hstep hl => alone_silent hstep hl
  simulates := fun _ _ _ _ _ hstep hl => alone_step hstep hl

/-! ### A step of one, among several -/

section
variable {sup : SourceSupervisor} {s t : SupervisorState} {l : SupervisorLabel} {i : ℕ}

/-- The tasks of the others do not keep the `i`-th from going on. -/
private theorem SupervisorState.Waiting.undisturbed (hw : s.Waiting) : s.Undisturbed sup i := by
  intro l t hl hstep
  have hlook : ∀ task, (s.alone i).tasks[0]? = some task → s.tasks[i]? = some task := by
    intro task htask
    cases hi : s.tasks[i]? with
    | none => simp [SupervisorState.alone, hi] at htask
    | some task' => rwa [alone_getElem? hi] at htask
  have hmem : ∀ task, s.tasks[i]? = some task → task.pc ≠ .top ∧ task.pc ≠ .again :=
    fun task hi => hw task (List.mem_of_getElem? hi)
  have hset : ∀ {task} task', s.tasks[i]? = some task →
      (s.set i task').alone i = (s.alone i).set 0 task' ∧ ∀ j ≠ i, (s.set i task').alone j = s.alone j :=
    fun task' hi => ⟨alone_set_self hi, fun j hj => alone_set_ne (Ne.symm hj)⟩
  cases hstep with
  | begin | stop | close => cases hl
  | @enter j task hb hj =>
    cases hl
    exact absurd hj.2.1 (hmem task (hlook task hj.1)).1
  | @again j task hj hpc =>
    cases hl
    exact absurd hpc (hmem task (hlook task hj)).2
  | @source j task l run jitter _ hj hpc hown h hjit =>
    cases hl
    have hi := hlook task hj
    exact ⟨_, .source hw hi hpc hown h hjit, hset _ hi⟩
  | @woken j task duration _ hj hpc =>
    cases hl
    have hi := hlook task hj
    exact ⟨_, .woken hw hi hpc, hset _ hi⟩
  | @sleepRaises j task duration e _ hj hpc =>
    cases hl
    have hi := hlook task hj
    exact ⟨_, .sleepRaises hw hi hpc, hset _ hi⟩

/-- The supervisor has been told to stop only when it was running, and a source is closed only by then. -/
structure SupervisorState.Told (s : SupervisorState) : Prop where
  unclosed : s.stop = none → ∀ task ∈ s.tasks, ¬ task.source.Returns
  stopping : s.stop ≠ none → s.begun = true ∧ s.stopping = true

private theorem SourceRun.Step.stays_unclosed {source source' : SourceRun} {l : SourceLabel} (h : source.Step l source')
    (hl : l.Own) (hs : ¬ source.Returns) : ¬ source'.Returns := by
  cases h with
  | polling h => exact hs
  | @stream src s t l h =>
    cases h with
    | aclose => exact hl.elim
    | _ => exact hs

private theorem SourceRun.run_unclosed {source : SourceRun} (h : ¬ source.Returns) : ¬ source.run.Returns := by
  cases source with
  | polling src s => exact h
  | stream src s => exact h

private theorem SuperviseTask.loop_unclosed (task : SuperviseTask) {stopping : Bool} {minBackoff : ℚ}
    (h : ¬ task.source.Returns) : ¬ (task.loop stopping minBackoff).source.Returns := by
  unfold SuperviseTask.loop
  split
  · exact h
  · rw [SuperviseTask.settle_source]
    exact SourceRun.run_unclosed h

theorem SupervisorState.Told.set {i : ℕ} {task task' : SuperviseTask} (h : s.Told) (hi : s.tasks[i]? = some task)
    (htask : ¬ task.source.Returns → ¬ task'.source.Returns) : (s.set i task').Told where
  unclosed := fun hs u hu => by
    obtain ⟨j, hj⟩ := List.mem_iff_getElem?.1 hu
    rcases SupervisorState.getElem?_set hj with ⟨rfl, rfl⟩ | ⟨-, hj⟩
    · exact htask (h.unclosed hs task (List.mem_of_getElem? hi))
    · exact h.unclosed hs u (List.mem_of_getElem? hj)
  stopping := h.stopping

private theorem SupervisorState.Told.step (h : s.Told) (hcond : Calm s l) (hstep : sup.Step s l t) : t.Told := by
  cases hstep with
  | begin hb =>
    refine ⟨h.unclosed, fun hs => ?_⟩
    rw [(h.stopping hs).1] at hb
    cases hb
  | stop hs => exact ⟨fun hnone => (by cases hnone), fun _ => ⟨hcond.stop rfl, rfl⟩⟩
  | close hk => exact ⟨fun hnone => (by cases hnone), fun _ => h.stopping (by simp [hk])⟩
  | enter _ hi => exact h.set hi.1 fun hopen => SuperviseTask.loop_unclosed _ hopen
  | again hi | woken _ hi => exact h.set hi fun hopen => SuperviseTask.loop_unclosed _ hopen
  | sleepRaises _ hi => exact h.set hi id
  | source _ hi _ hl hrun =>
    refine h.set hi fun hopen => ?_
    rw [SuperviseTask.settle_source]
    exact hrun.stays_unclosed hl hopen

private theorem SupervisorState.Told.free (h : s.Told) (hinv : SupervisorInv s) : s.Free := by
  intro task hmem hpc
  obtain ⟨i, hi⟩ := List.mem_iff_getElem?.1 hmem
  obtain ⟨hs, hret⟩ := hinv.again i task hi hpc
  cases hstop : s.stop with
  | none => exact h.unclosed hstop task hmem hret
  | some k =>
    rw [(h.stopping (by simp [hstop])).2] at hs
    cases hs

/-! ### How a task ends -/

private theorem PollingPc.ended_of_result {pc : PollingPc} {res : Except Exn Unit} (h : pc.result = some res) :
    pc = .ended res := by
  cases pc with
  | ended => exact congrArg _ (Option.some.inj h)
  | _ => cases h

private theorem StreamPc.ended_of_result {pc : StreamPc} {res : Except Exn Unit} (h : pc.result = some res) :
    pc = .ended res := by
  cases pc with
  | ended => exact congrArg _ (Option.some.inj h)
  | _ => cases h

private theorem SourceRun.run_result_ok {source : SourceRun} {res : Except Exn Unit}
    (h : source.run.result = some res) : res = .ok () := by
  cases source with
  | polling src s => cases h
  | stream src s =>
    have hended := StreamPc.ended_of_result h
    rcases StreamState.loop_pc { s with backoff := src.config.minBackoff } with hpc | hpc <;>
      cases hpc.symm.trans hended
    rfl

private theorem PollingSource.Step.raised {src : PollingSource} {s t : PollingState} {l : PollingLabel} {e : Exn}
    (h : src.Step s l t) (hres : t.pc = .ended (.error e)) : (SourceLabel.polling l).raises = some e := by
  have hfinish : ∀ batch, (src.finish s batch).pc ≠ .ended (.error e) := by
    intro batch
    unfold finish
    cases batch.drained <;> simp
  have hfeed : ∀ batch rest allOk, (src.feedItems s batch rest allOk).pc ≠ .ended (.error e) := by
    intro batch rest allOk
    cases rest with
    | cons item rest => simp [feedItems]
    | nil =>
      rw [feedItems]
      split
      · simp
      · exact hfinish batch
  cases h with
  | polled | fed => exact absurd hres (hfeed _ _ _)
  | confirmed => exact absurd hres (hfinish _)
  | run | woken => cases hres
  | pollRaises | feedRaises | confirmRaises | sleepRaises =>
    cases hres
    rfl

/-- What a stream source raises by itself is an `Exception`. -/
private theorem StreamSource.Step.raised {src : StreamSource} {s t : StreamState} {l : StreamLabel} {e : Exn}
    (h : src.Step s l t) (hl : l ≠ .aclose) (hres : t.pc = .ended (.error e)) :
    (SourceLabel.stream l).raises = some e ∨ e.isException = true := by
  have hloop : ∀ u : StreamState, u.loop.pc ≠ .ended (.error e) := fun u => by
    rcases u.loop_pc with h | h <;> simp [h]
  have hpause : ∀ jitter, (s.pause jitter).pc ≠ .ended (.error e) := fun jitter => by
    rcases s.pause_pc jitter with h | ⟨_, h⟩ <;> simp [h]
  cases h with
  | run | woken => exact absurd hres (hloop _)
  | finished | lost => exact absurd hres (hpause _)
  | refused =>
    cases hres
    exact Or.inr rfl
  | @fed event result =>
    have hset : StreamPc.settled event result ≠ .ended (.error e) := by
      unfold StreamPc.settled
      split <;> simp
    exact absurd hres hset
  | resumed | connected | yielded | advanced => cases hres
  | failed | feedRaises | advanceRaises | sleepRaises =>
    cases hres
    exact Or.inl rfl
  | aclose => exact absurd rfl hl

private theorem SourceRun.Step.raised {source source' : SourceRun} {l : SourceLabel} {e : Exn}
    (h : source.Step l source')
    (hl : l.Own) (hres : source'.result = some (.error e)) : l.raises = some e ∨ e.isException = true := by
  cases h with
  | polling h => exact Or.inl (h.raised (PollingPc.ended_of_result hres))
  | stream h => exact h.raised (by rintro rfl; exact hl) (StreamPc.ended_of_result hres)

/-- A task that its source has ended, and no exception outside `Exception`, is stopping. -/
private theorem SuperviseTask.settle_exited {task : SuperviseTask} {stopping : Bool} {minBackoff jitter : ℚ}
    (h : (task.settle stopping minBackoff jitter).pc = .exited)
    (hraised : ∀ e, task.source.result = some (.error e) → e.isException = true) : stopping = true := by
  cases hres : task.source.result with
  | none =>
    rw [settle_running hres] at h
    cases h
  | some res =>
    rw [settle, hres] at h
    rcases res with e | _
    · simp [hraised e hres] at h
    · cases stopping with
      | true => rfl
      | false => cases h

private theorem SuperviseTask.loop_exited {task : SuperviseTask} {stopping : Bool} {minBackoff : ℚ}
    (h : (task.loop stopping minBackoff).pc = .exited) : stopping = true := by
  cases stopping with
  | true => rfl
  | false =>
    rw [loop, if_neg (by simp)] at h
    exact settle_exited h fun e hres => by cases SourceRun.run_result_ok hres

theorem SupervisorState.Ended.set {task : SuperviseTask} (h : s.Ended)
    (htask : task.pc = .exited → s.stopping = true) : (s.set i task).Ended := by
  intro u hu hpc
  obtain ⟨j, hj⟩ := List.mem_iff_getElem?.1 hu
  rcases SupervisorState.getElem?_set hj with ⟨-, rfl⟩ | ⟨-, hj⟩
  · exact htask hpc
  · exact h u (List.mem_of_getElem? hj) hpc

private theorem SupervisorState.Ended.step (h : s.Ended) (hinv : SupervisorInv s) (hcond : Calm s l)
    (hstep : sup.Step s l t) : t.Ended := by
  cases hstep with
  | begin hb =>
    intro task hmem hpc
    obtain ⟨i, hi⟩ := List.mem_iff_getElem?.1 hmem
    rw [hinv.top hb i task hi] at hpc
    cases hpc
  | enter | again | woken => exact h.set SuperviseTask.loop_exited
  | source _ _ _ hl hrun =>
    refine h.set fun hpc => SuperviseTask.settle_exited hpc fun e hres => ?_
    exact (hrun.raised hl hres).elim (hcond.source _ _ e rfl) id
  | sleepRaises => exact absurd rfl (hcond.woken _ _)
  | stop => exact fun _ _ _ => rfl
  | close _ hk => exact h.set fun hpc => h _ (List.mem_of_getElem? hk) hpc

/-! ### Runs -/

private theorem supervisorTold_start (sources : List (PollingSource ⊕ StreamSource)) : (sup.start sources).Told := by
  refine ⟨fun _ task hmem => ?_, fun hs => absurd rfl hs⟩
  obtain ⟨source, -, rfl⟩ := List.mem_map.1 hmem
  cases source with
  | inl => exact id
  | inr => exact Bool.false_ne_true

private theorem ended_start (sources : List (PollingSource ⊕ StreamSource)) : (sup.start sources).Ended := by
  intro task hmem hpc
  obtain ⟨source, -, rfl⟩ := List.mem_map.1 hmem
  cases source <;> cases hpc

private theorem calm_last {sources : List (PollingSource ⊕ StreamSource)}
    {path : List (SupervisorLabel × SupervisorState)}
    (hrun : Run sup.Step (sup.start sources) path) (hcalm : Meets Calm (sup.start sources) path) :
    SupervisorInv (last (sup.start sources) path) ∧ (last (sup.start sources) path).Told ∧
      (last (sup.start sources) path).Ended := by
  have hkeep : ∀ s l t, SupervisorInv s ∧ s.Told ∧ s.Ended → Calm s l → sup.Step s l t →
      SupervisorInv t ∧ t.Told ∧ t.Ended :=
    fun s l t h hcond hstep => ⟨h.1.step hstep, h.2.1.step hcond hstep, h.2.2.step h.1 hcond hstep⟩
  have hstart : SupervisorInv (sup.start sources) ∧ (sup.start sources).Told ∧ (sup.start sources).Ended :=
    ⟨supervisorInv_start sources, supervisorTold_start sources, ended_start sources⟩
  exact (hrun.always_of_meets hkeep hstart hcalm).last

private theorem start_alone {sources : List (PollingSource ⊕ StreamSource)} {source : PollingSource ⊕ StreamSource}
    (hi : sources[i]? = some source) : (sup.start sources).alone i = sup.start [source] := by
  simp [SourceSupervisor.start, SupervisorState.alone, hi]

/-- In any run of a supervisor, the steps of a source are a run of the supervisor that has only this one, and end where
it ends.  Unless `stop` was called before `run`, or an exception has left a task, the tasks are over only if the
supervisor is stopping, and as soon as all have begun each source can go on as it could alone, however the others have
fared. -/
theorem siblings_unaffected {sources : List (PollingSource ⊕ StreamSource)} {source : PollingSource ⊕ StreamSource}
    {path : List (SupervisorLabel × SupervisorState)} (hi : sources[i]? = some source)
    (hrun : Run sup.Step (sup.start sources) path) :
    Run sup.Step (sup.start [source]) ((sup.alone i).path (sup.start sources) path) ∧
    last (sup.start [source]) ((sup.alone i).path (sup.start sources) path) =
      (last (sup.start sources) path).alone i ∧
    (Meets Calm (sup.start sources) path → (last (sup.start sources) path).Ended ∧
      ((last (sup.start sources) path).AllBegun → (last (sup.start sources) path).Undisturbed sup i)) := by
  obtain ⟨hpath, hlast⟩ := (sup.alone i).run_path trivial hrun
  rw [← start_alone hi]
  refine ⟨hpath, hlast, fun hcalm => ?_⟩
  obtain ⟨hs, htold, hended⟩ := calm_last hrun hcalm
  refine ⟨hended, fun hbegun => SupervisorState.Waiting.undisturbed fun task hmem => ?_⟩
  exact ⟨hbegun task hmem, htold.free hs task hmem⟩

end

/-! ### A polling source that crashes beside an SSE source -/

def superviseBoth : SupervisorState :=
  SourceSupervisor.start {} [.inl { account := seller }, .inr (SSESource.source { account := seller })]

section
variable {s : SupervisorState} {first second : SuperviseTask} (h : s.tasks = [first, second])

include h

private theorem free_of_both (hfirst : first.pc ≠ .again) (hsecond : second.pc ≠ .again) : s.Free := by
  rw [SupervisorState.Free, h]
  simpa using ⟨hfirst, hsecond⟩

private theorem waiting_of_both (hfirst : first.pc ≠ .top ∧ first.pc ≠ .again)
    (hsecond : second.pc ≠ .top ∧ second.pc ≠ .again) : s.Waiting := by
  rw [SupervisorState.Waiting, h]
  simpa using ⟨hfirst, hsecond⟩

private theorem first_of_both (hfirst : first.pc = .top) : s.First 0 first :=
  ⟨by rw [h]; rfl, hfirst, fun j hj => absurd hj (Nat.not_lt_zero j)⟩

private theorem second_of_both (hfirst : first.pc ≠ .top) (hsecond : second.pc = .top) : s.First 1 second := by
  refine ⟨by rw [h]; rfl, hsecond, fun j hj u hu => ?_⟩
  obtain rfl : j = 0 := by omega
  rw [h] at hu
  exact Option.some.inj hu ▸ hfirst

end

private theorem calm_begin {s : SupervisorState} : Calm s .begin := ⟨nofun, fun _ _ _ hl => (by cases hl), nofun⟩

private theorem calm_enter {s : SupervisorState} {i : ℕ} :
    Calm s (.enter i) := ⟨nofun, fun _ _ _ hl => (by cases hl), nofun⟩

private theorem calm_poll {s : SupervisorState} {i : ℕ} {e : Exn} (he : e.isException = true) :
    Calm s (.source i (.polling (.polled (.error e)))) where
  stop := nofun
  source := fun j l' e' hl hraises => by
    cases hl
    cases hraises
    exact he
  woken := nofun

/-- The polling source sleeps behind its crash, and the SSE source goes on. -/
theorem siblings_unaffected_crash :
    ∃ path, Run (SourceSupervisor.Step {}) superviseBoth path ∧
      (last superviseBoth path).tasks.map SuperviseTask.pc = [.sleeping 1, .running] ∧
      (last superviseBoth path).Undisturbed {} 1 := by
  have hrun : ∃ path, Run (SourceSupervisor.Step {}) superviseBoth path ∧ Meets Calm superviseBoth path ∧
      (last superviseBoth path).tasks.map SuperviseTask.pc = [.sleeping (1 + 0), .running] :=
    ⟨[(.begin, _), (.enter 0, _), (.enter 1, _), (.source 0 (.polling (.polled (.error .httpError))), _)],
      ⟨.begin rfl, .enter rfl (first_of_both rfl rfl) (free_of_both rfl (by decide) (by decide)),
        .enter rfl (second_of_both rfl (by decide) rfl) (free_of_both rfl (by decide) (by decide)),
        .source (waiting_of_both rfl (by decide) (by decide)) rfl rfl trivial (.polling (.pollRaises .httpError rfl))
          (jitterOf_zero _), trivial⟩,
      ⟨calm_begin, calm_enter, calm_enter, calm_poll rfl, trivial⟩, rfl⟩
  obtain ⟨path, hrun, hcalm, hpcs⟩ := hrun
  rw [add_zero] at hpcs
  refine ⟨path, hrun, hpcs, ((siblings_unaffected rfl hrun).2.2 hcalm).2 fun task hmem htop => ?_⟩
  have hpc : task.pc ∈ (last superviseBoth path).tasks.map SuperviseTask.pc := List.mem_map_of_mem hmem
  rw [hpcs, htop] at hpc
  simp at hpc

end EventusSdk
