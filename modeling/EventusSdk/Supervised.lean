import EventusSdk.Lib.Simulation
import EventusSdk.Stop

/-!
# A source under its supervisor

To a source, its supervisor is somebody who calls `run`, again after every end of a `run` and never during one, and who
may call `aclose` at any time.  What becomes of it among others is therefore a run of the source itself, and every
invariant of a source holds of the source as it is supervised, over all its crashes and restarts.
-/

namespace EventusSdk

open Transition

/-! ### What a step is to a source -/

namespace SourceRun

/-- A source on which nothing has been called. -/
def start : PollingSource ⊕ StreamSource → SourceRun
  | .inl src => .polling src {}
  | .inr src => .stream src {}

def runLabel : SourceRun → SourceLabel
  | .polling .. => .polling .run
  | .stream .. => .stream .run

/-- A polling source does not notice that it is closed. -/
def acloseLabel : SourceRun → Option SourceLabel
  | .polling .. => none
  | .stream .. => some (.stream .aclose)

/-- `run` is the step of the source that its label says. -/
private theorem runLabel_step {source : SourceRun} (h : source.Off) : source.Step source.runLabel source.run := by
  cases source with
  | polling src s => exact .polling (.run h)
  | stream src s => exact .stream (.run h)

private theorem aclose_silent {source : SourceRun} (h : source.acloseLabel = none) : source.aclose = source := by
  cases source with
  | polling => rfl
  | stream => cases h

private theorem aclose_step {source : SourceRun} {l : SourceLabel} (h : source.acloseLabel = some l) :
    source.Step l source.aclose := by
  cases source with
  | polling => cases h
  | stream src s =>
    cases h
    exact .stream (.aclose s)

end SourceRun

/-- The `i`-th source. -/
def SupervisorState.source (i : ℕ) (source : PollingSource ⊕ StreamSource) (s : SupervisorState) : SourceRun :=
  (s.tasks[i]?.map SuperviseTask.source).getD (.start source)

/-- A call of the `run` of the `i`-th source, if the supervisor is not stopping. -/
def SupervisorState.calls (i : ℕ) (s : SupervisorState) : Option SourceLabel :=
  if s.stopping then none else s.tasks[i]?.map fun task => task.source.runLabel

/-- What the step is to the `i`-th source. -/
def SupervisorLabel.toSource (i : ℕ) (s : SupervisorState) : SupervisorLabel → Option SourceLabel
  | .enter j | .woken j (.ok _) => if j = i then s.calls i else none
  | .source j l => if j = i then some l else none
  | .close => if s.stop = some i then s.tasks[i]?.bind fun task => task.source.acloseLabel else none
  | .begin | .woken _ (.error _) | .stop => none

section
variable {sup : SourceSupervisor} {s t : SupervisorState} {l : SupervisorLabel} {l' : SourceLabel} {i j : ℕ}
  {source : PollingSource ⊕ StreamSource} {task task' : SuperviseTask}

private theorem SuperviseTask.loop_source {stopping : Bool} {minBackoff : ℚ} :
    (task.loop stopping minBackoff).source = if stopping then task.source else task.source.run := by
  unfold SuperviseTask.loop
  split
  · rfl
  · exact SuperviseTask.settle_source

private theorem SupervisorState.source_eq (hi : s.tasks[i]? = some task) : s.source i source = task.source := by
  rw [SupervisorState.source, hi]
  rfl

private theorem SupervisorState.source_set_self (hi : s.tasks[i]? = some task) :
    (s.set i task').source i source = task'.source :=
  source_eq (getElem?_set_self task' hi)

private theorem SupervisorState.source_set_ne (h : j ≠ i) : (s.set j task').source i source = s.source i source := by
  rw [SupervisorState.source, SupervisorState.set, List.getElem?_set_ne h]
  rfl

/-- A task at the test of its loop does not call `run`, or it is another's. -/
private theorem SupervisorState.loop_silent (hj : s.tasks[j]? = some task) (hsource : task'.source = task.source)
    {minBackoff : ℚ} (hl : (if j = i then s.calls i else none) = none) :
    (s.set j (task'.loop s.stopping minBackoff)).source i source = s.source i source := by
  by_cases hji : j = i
  · subst hji
    rw [if_pos rfl] at hl
    rw [source_set_self hj, source_eq hj, SuperviseTask.loop_source, hsource]
    cases hs : s.stopping with
    | true => rfl
    | false => simp [calls, hs, hj] at hl
  · exact source_set_ne hji

/-- A task at the test of its loop calls `run`. -/
private theorem SupervisorState.loop_step (hj : s.tasks[j]? = some task) (hsource : task'.source = task.source)
    {minBackoff : ℚ} (hoff : task.source.Off) (hl : (if j = i then s.calls i else none) = some l') :
    (s.source i source).Step l' ((s.set j (task'.loop s.stopping minBackoff)).source i source) := by
  obtain ⟨rfl, hcalls⟩ := Option.ite_none_right_eq_some.1 hl
  rw [source_set_self hj, source_eq hj, SuperviseTask.loop_source, hsource]
  cases hs : s.stopping with
  | true => simp [calls, hs] at hcalls
  | false =>
    rw [calls, hs, hj] at hcalls
    cases hcalls
    exact SourceRun.runLabel_step hoff

private theorem toSource_silent (hstep : sup.Step s l t) (hl : l.toSource i s = none) :
    t.source i source = s.source i source := by
  cases hstep with
  | begin | stop => rfl
  | enter _ hj => exact SupervisorState.loop_silent hj.1 rfl hl
  | again hj | woken _ hj =>
    refine SupervisorState.loop_silent hj ?_ hl
    rfl
  | @source j =>
    have hji : j ≠ i := fun h => by simp [SupervisorLabel.toSource, h] at hl
    exact SupervisorState.source_set_ne hji
  | @sleepRaises j task duration e hw hj =>
    by_cases hji : j = i
    · subst hji
      rw [SupervisorState.source_set_self hj, SupervisorState.source_eq hj]
    · exact SupervisorState.source_set_ne hji
  | @close k task hk hi =>
    show (s.set k { task with source := task.source.aclose }).source i source = _
    by_cases hki : k = i
    · subst hki
      have hlabel : task.source.acloseLabel = none := by simpa [SupervisorLabel.toSource, hk, hi] using hl
      rw [SupervisorState.source_set_self hi, SupervisorState.source_eq hi]
      exact SourceRun.aclose_silent hlabel
    · exact SupervisorState.source_set_ne hki

private theorem toSource_step (h : SupervisorInv s) (hstep : sup.Step s l t) (hl : l.toSource i s = some l') :
    (s.source i source).Step l' (t.source i source) := by
  cases hstep with
  | begin | stop | sleepRaises => cases hl
  | enter _ hj =>
    have hoff := h.off _ _ hj.1 (by simp [hj.2.1])
    exact SupervisorState.loop_step hj.1 rfl hoff hl
  | again hj hpc | woken _ hj hpc =>
    have hoff := h.off _ _ hj (by simp [hpc])
    refine SupervisorState.loop_step hj ?_ hoff hl
    rfl
  | @source j task l run jitter hw hj hpc hown hrun =>
    obtain ⟨rfl, ⟨⟩⟩ := Option.ite_none_right_eq_some.1 hl
    rw [SupervisorState.source_set_self hj, SupervisorState.source_eq hj, SuperviseTask.settle_source]
    exact hrun
  | @close k task hk hi =>
    obtain ⟨hki, hlabel⟩ := Option.ite_none_right_eq_some.1 hl
    obtain rfl : k = i := Option.some.inj (hk.symm.trans hki)
    rw [hi, Option.bind_some] at hlabel
    show (s.source k source).Step l' ((s.set k { task with source := task.source.aclose }).source k source)
    rw [SupervisorState.source_set_self hi, SupervisorState.source_eq hi]
    exact SourceRun.aclose_step hlabel

end

/-- What a supervisor makes of its `i`-th source is what the source can do. -/
def SourceSupervisor.source (sup : SourceSupervisor) (i : ℕ) (source : PollingSource ⊕ StreamSource) :
    Simulation sup.Step SourceRun.Step where
  Inv := SupervisorInv
  state := SupervisorState.source i source
  label := fun s l => l.toSource i s
  keeps := fun _ _ _ h hstep => h.step hstep
  silent := fun _ _ _ _ hstep hl => toSource_silent hstep hl
  simulates := fun _ _ _ _ h hstep hl => toSource_step h hstep hl

/-! ### Runs -/

section
variable {sup : SourceSupervisor} {sources : List (PollingSource ⊕ StreamSource)}
  {source : PollingSource ⊕ StreamSource} {i : ℕ} {path : List (SupervisorLabel × SupervisorState)}

private theorem source_start (hi : sources[i]? = some source) :
    (sup.start sources).source i source = .start source := by
  rw [SupervisorState.source, SourceSupervisor.start, List.getElem?_map, hi]
  cases source <;> rfl

/-- In any run of a supervisor, what happens to a source is a run of the source itself, from the state in which nothing
has been called on it to the state in which its task has it.  What holds in every state of every run of the source
holds of it throughout the run of the supervisor. -/
theorem supervised_source (hi : sources[i]? = some source) (hrun : Run sup.Step (sup.start sources) path) :
    Run SourceRun.Step (.start source) ((sup.source i source).path (sup.start sources) path) ∧
    (∀ task, (last (sup.start sources) path).tasks[i]? = some task →
      last (.start source) ((sup.source i source).path (sup.start sources) path) = task.source) ∧
    ∀ P : SourceRun → Prop, (∀ run, Run SourceRun.Step (.start source) run → Always P (.start source) run) →
      Always (fun s => ∀ task, s.tasks[i]? = some task → P task.source) (sup.start sources) path := by
  have h0 : (sup.source i source).Inv (sup.start sources) := supervisorInv_start sources
  have hstart : (sup.source i source).state (sup.start sources) = .start source := source_start hi
  obtain ⟨hpath, hlast⟩ := (sup.source i source).run_path h0 hrun
  rw [hstart] at hpath hlast
  refine ⟨hpath, fun task htask => hlast.trans (SupervisorState.source_eq htask), fun P hP => ?_⟩
  have halways := hP _ hpath
  rw [← hstart] at halways
  refine (((sup.source i source).always_path h0 hrun).2 halways).mono fun s hs task htask => ?_
  exact SupervisorState.source_eq htask ▸ hs

end

/-- A polling source that crashes is called, and called again behind the sleep. -/
theorem supervised_source_crash :
    ∃ run, Run SourceRun.Step (.start (.inl { account := seller })) run ∧
      run.map Prod.fst = [.polling .run, .polling (.polled (.error .httpError)), .polling .run] := by
  have hrun : ∃ path, Run (SourceSupervisor.Step {}) supervisePolling path ∧
      ((SourceSupervisor.source {} 0 (.inl { account := seller })).path supervisePolling path).map Prod.fst =
        [.polling .run, .polling (.polled (.error .httpError)), .polling .run] :=
    ⟨[(.begin, _), (.enter 0, _), (.source 0 (.polling (.polled (.error .httpError))), _), (.woken 0 (.ok ()), _)],
      ⟨.begin rfl, .enter rfl (first_of_alone rfl rfl) (free_of_alone rfl (by decide)),
        .source (waiting_of_alone rfl (by decide)) rfl rfl trivial (.polling (.pollRaises .httpError rfl))
          (jitterOf_zero _), .woken (waiting_of_alone rfl ⟨nofun, nofun⟩) rfl rfl, trivial⟩, rfl⟩
  obtain ⟨path, hrun, hlabels⟩ := hrun
  exact ⟨_, (supervised_source rfl hrun).1, hlabels⟩

end EventusSdk
