import EventusSdk.Dispatcher
import EventusSdk.Lib.Backoff
import EventusSdk.Lib.History
import EventusSdk.Lib.Transition
import EventusSdk.StreamSource

/-!
# The backoff of a stream

`SSESource.stream` and `WSSource.stream` as the generator they are, for any consumer: it is asked for an event, makes an
attempt, hands the event over, and, when the attempt is over, sleeps.  The sleep behind an attempt depends on how many
attempts there have been since the last one that brought an event.
-/

namespace EventusSdk

open Transition

/-! ### The generator -/

/-- What `stream` does: it makes an attempt, hands over an event of it, and sleeps. -/
inductive GeneratorEvent where
  | attempted
  | yielded
  | slept (duration : ℚ)

/-- Where the generator is: not started, in `_stream_once` or `_connect_once`, suspended at its `yield`, in a sleep, or
over. -/
inductive GeneratorPc where
  | created
  | attempting
  | yielded (event : ClientEvent)
  | sleeping (duration : ℚ)
  | ended (res : Except Exn Unit)

/-- A generator, with the flag of its source and with what it has done, the last first. -/
structure GeneratorState where
  pc : GeneratorPc := .created
  backoff : ℚ := 0
  closed : Bool := false
  history : List GeneratorEvent := []

/-- A call of `stream`. -/
def GeneratorState.start (closed : Bool) : GeneratorState := { closed }

/-- The consumer asks for the first event, or for another; an attempt brings an event, or it ends by itself, by an
exception or by one that the consumer throws in; a sleep is over; `aclose` is called. -/
inductive GeneratorLabel where
  | started
  | resumed
  | yielded (event : ClientEvent)
  | disconnected (exc : Option Exn) (jitter : ℚ)
  | woken (x : Except Exn Unit)
  | aclose

/-- The generator is inside its `try`. -/
def GeneratorPc.InAttempt : GeneratorPc → Prop
  | .attempting | .yielded _ => True
  | _ => False

/-- The test of `while not self._closed`, and the attempt behind it. -/
def GeneratorState.loop (s : GeneratorState) : GeneratorState :=
  if s.closed then { s with pc := .ended (.ok ()) }
  else { s with pc := .attempting, history := .attempted :: s.history }

/-- The end of an attempt: return if the source is closed, else sleep. -/
def GeneratorState.pause (s : GeneratorState) (jitter : ℚ) : GeneratorState :=
  if s.closed then { s with pc := .ended (.ok ()) }
  else { s with pc := .sleeping (s.backoff + jitter), history := .slept (s.backoff + jitter) :: s.history }

namespace StreamSource

inductive GeneratorStep (src : StreamSource) : GeneratorState → GeneratorLabel → GeneratorState → Prop where
  | started {s : GeneratorState} (h : s.pc = .created) :
      GeneratorStep src s .started ({ s with backoff := src.config.minBackoff } : GeneratorState).loop
  | yielded {s : GeneratorState} (event : ClientEvent) (h : s.pc = .attempting) :
      GeneratorStep src s (.yielded event)
        { s with pc := .yielded event, backoff := src.config.minBackoff, history := .yielded :: s.history }
  | resumed {s : GeneratorState} {event : ClientEvent} (h : s.pc = .yielded event) :
      GeneratorStep src s .resumed { s with pc := .attempting }
  | finished {s : GeneratorState} {jitter : ℚ} (h : s.pc = .attempting) (hj : JitterOf s.backoff jitter) :
      GeneratorStep src s (.disconnected none jitter) (s.pause jitter)
  | lost {s : GeneratorState} {e : Exn} {jitter : ℚ} (h : s.pc.InAttempt) (he : src.reconnects e = true)
      (hj : JitterOf s.backoff jitter) : GeneratorStep src s (.disconnected (some e) jitter) (s.pause jitter)
  | failed {s : GeneratorState} {e : Exn} {jitter : ℚ} (h : s.pc.InAttempt) (he : src.reconnects e = false) :
      GeneratorStep src s (.disconnected (some e) jitter) { s with pc := .ended (.error e) }
  | woken {s : GeneratorState} {duration : ℚ} (h : s.pc = .sleeping duration) :
      GeneratorStep src s (.woken (.ok ()))
        ({ s with backoff := min (s.backoff * 2) src.config.maxBackoff } : GeneratorState).loop
  | sleepRaises {s : GeneratorState} {duration : ℚ} (e : Exn) (h : s.pc = .sleeping duration) :
      GeneratorStep src s (.woken (.error e)) { s with pc := .ended (.error e) }
  | aclose (s : GeneratorState) : GeneratorStep src s .aclose { s with closed := true }

end StreamSource

/-! ### What the sleeps should be -/

/-- The attempts since the last one that brought an event, with this one among them, or since the start. -/
def attempts : List GeneratorEvent → ℕ
  | [] => 0
  | .yielded :: _ => 1
  | .attempted :: history => attempts history + 1
  | .slept _ :: history => attempts history

def GeneratorEvent.duration : GeneratorEvent → Option ℚ
  | .slept duration => some duration
  | _ => none

/-- Between two attempts there is one sleep. -/
def OneSleep (between _before : List GeneratorEvent) : Prop := (between.filterMap GeneratorEvent.duration).length = 1

namespace StreamConfig

variable (config : StreamConfig)

/-- The sleep behind the `k`-th attempt: the least backoff doubled `k - 1` times, up to the greatest, and no more than
a quarter of it on top. -/
def SleepAfter (k : ℕ) (duration : ℚ) : Prop :=
  1 ≤ k ∧ min (config.minBackoff * 2 ^ (k - 1)) config.maxBackoff ≤ duration ∧
    duration ≤ 5 / 4 * min (config.minBackoff * 2 ^ (k - 1)) config.maxBackoff

/-- Every sleep is as long as the attempts before it say, and there is one between every two attempts. -/
def BacksOff (s : GeneratorState) : Prop :=
  History.Gaps .attempted OneSleep s.history ∧
    ∀ duration before, .slept duration :: before <:+ s.history → config.SleepAfter (attempts before) duration ∧
      config.minBackoff ≤ duration ∧ duration ≤ 5 / 4 * config.maxBackoff

/-! ### What holds of a run -/

/-- Behind the last attempt there are `n` sleeps, and the backoff is that of the attempts so far. -/
def Behind (n : ℕ) (s : GeneratorState) : Prop :=
  s.backoff = Backoff.capped config.minBackoff config.maxBackoff (attempts s.history - 1) ∧
    ∃ between before, s.history = between ++ .attempted :: before ∧ .attempted ∉ between ∧
      (between.filterMap GeneratorEvent.duration).length = n

def GeneratorInv (s : GeneratorState) : Prop :=
  config.BacksOff s ∧
    match s.pc with
    | .created => s.history = []
    | .attempting | .yielded _ => config.Behind 0 s
    | .sleeping duration => config.Behind 1 s ∧ ∃ before, s.history = .slept duration :: before
    | .ended _ => True

variable {config} {s t : GeneratorState} {n : ℕ}

private theorem attempts_pos {history : List GeneratorEvent} (h : .attempted ∈ history) : 1 ≤ attempts history := by
  induction history with
  | nil => cases h
  | cons x history ih =>
    cases x with
    | attempted => exact Nat.le_add_left 1 _
    | yielded => exact Nat.le_refl 1
    | slept duration =>
      rcases List.mem_cons.1 h with h | h
      · cases h
      · exact ih h

private theorem Behind.attempts_pos (h : config.Behind n s) : 1 ≤ attempts s.history := by
  obtain ⟨-, between, before, hh, -⟩ := h
  refine StreamConfig.attempts_pos ?_
  rw [hh]
  exact List.mem_append_right _ (List.mem_cons_self ..)

/-- Only a sleep needs a reason. -/
private theorem BacksOff.cons {x : GeneratorEvent} (h : config.BacksOff s) (hx : ∀ duration, x ≠ .slept duration)
    (hgaps : History.Gaps .attempted OneSleep (x :: s.history)) (ht : t.history = x :: s.history) :
    config.BacksOff t := by
  rw [BacksOff, ht]
  refine ⟨hgaps, fun duration before hsuffix => ?_⟩
  rcases List.suffix_cons_iff.1 hsuffix with heq | hsuffix
  · exact absurd (List.cons.inj heq).1.symm (hx duration)
  · exact h.2 duration before hsuffix

private theorem BacksOff.same (h : config.BacksOff s) (ht : t.history = s.history) : config.BacksOff t := by
  rw [BacksOff, ht]
  exact h

/-- The test of the loop: the next attempt is one more. -/
private theorem generatorInv_loop (h : config.BacksOff s) (hgap : s.history = [] ∨ ∃ between before,
      s.history = between ++ .attempted :: before ∧ .attempted ∉ between ∧ OneSleep between before)
    (hb : s.backoff = Backoff.capped config.minBackoff config.maxBackoff (attempts s.history)) :
    config.GeneratorInv s.loop := by
  unfold GeneratorState.loop
  split
  · exact ⟨h.same rfl, trivial⟩
  · refine ⟨h.cons (by simp) ?_ rfl, hb, [], s.history, rfl, List.not_mem_nil, rfl⟩
    rcases hgap with hnil | ⟨between, before, hh, hnot, hone⟩
    · rw [hnil]
      exact History.gaps_first List.not_mem_nil
    · rw [hh, History.gaps_mark between hnot, ← hh]
      exact ⟨hone, h.1⟩

/-- The end of an attempt. -/
private theorem generatorInv_pause {jitter : ℚ} (hmin : 0 < config.minBackoff)
    (hle : config.minBackoff ≤ config.maxBackoff)
    (h : config.BacksOff s) (hb : config.Behind 0 s) (hj : JitterOf s.backoff jitter) :
    config.GeneratorInv (s.pause jitter) := by
  unfold GeneratorState.pause
  split
  · exact ⟨h.same rfl, trivial⟩
  · have hk := hb.attempts_pos
    obtain ⟨hbackoff, between, before, hh, hnot, hnone⟩ := hb
    have hlow : config.minBackoff ≤ s.backoff := by
      rw [hbackoff]
      exact Backoff.le_capped hmin.le hle _
    have hhigh : s.backoff ≤ config.maxBackoff := by
      rw [hbackoff]
      exact Backoff.capped_le _
    obtain ⟨hj1, hj2⟩ := hj.bounds (hmin.le.trans hlow)
    refine ⟨⟨(History.gaps_cons (by simp)).2 h.1, fun duration before' hsuffix => ?_⟩, ⟨hbackoff,
      .slept (s.backoff + jitter) :: between, before, by rw [hh]; rfl, by simpa using hnot, ?_⟩, s.history, rfl⟩
    · rcases List.suffix_cons_iff.1 hsuffix with heq | hsuffix
      · obtain ⟨hd, rfl⟩ := List.cons.inj heq
        obtain rfl := GeneratorEvent.slept.inj hd
        refine ⟨⟨hk, ?_, ?_⟩, hlow.trans hj1, by linarith⟩
        · exact hbackoff.symm.trans_le hj1
        · rw [← Backoff.capped, ← hbackoff]
          exact hj2
      · exact h.2 duration before' hsuffix
    · show (between.filterMap GeneratorEvent.duration).length + 1 = 1
      rw [hnone]

private theorem GeneratorInv.step {src : StreamSource} {l : GeneratorLabel} (hmin : 0 < src.config.minBackoff)
    (hle : src.config.minBackoff ≤ src.config.maxBackoff) (h : src.config.GeneratorInv s)
    (hstep : src.GeneratorStep s l t) : src.config.GeneratorInv t := by
  obtain ⟨hbacks, hpc⟩ := h
  cases hstep with
  | started hs =>
    rw [hs] at hpc
    refine generatorInv_loop (hbacks.same rfl) (Or.inl hpc) ?_
    show src.config.minBackoff = Backoff.capped _ _ (attempts s.history)
    rw [show s.history = [] from hpc, attempts, Backoff.capped_zero hle]
  | yielded event hs =>
    rw [hs] at hpc
    obtain ⟨-, between, before, hh, hnot, hnone⟩ := hpc
    refine ⟨hbacks.cons (x := .yielded) (by simp) ((History.gaps_cons (by simp)).2 hbacks.1) rfl,
      (Backoff.capped_zero hle).symm, .yielded :: between, before, ?_, by simpa using hnot, hnone⟩
    show .yielded :: s.history = _
    rw [hh]
    rfl
  | resumed hs =>
    rw [hs] at hpc
    exact ⟨hbacks.same rfl, hpc⟩
  | finished hs hj =>
    rw [hs] at hpc
    exact generatorInv_pause hmin hle hbacks hpc hj
  | lost hs he hj =>
    have hb : src.config.Behind 0 s := by
      cases hpc' : s.pc <;> rw [hpc'] at hs hpc
      · cases hs
      · exact hpc
      · exact hpc
      · cases hs
      · cases hs
    exact generatorInv_pause hmin hle hbacks hb hj
  | failed | sleepRaises => exact ⟨hbacks.same rfl, trivial⟩
  | woken hs =>
    rw [hs] at hpc
    have hk := hpc.1.attempts_pos
    obtain ⟨⟨hbackoff, between, before, hh, hnot, hone⟩, -⟩ := hpc
    refine generatorInv_loop (hbacks.same rfl) (Or.inr ⟨between, before, hh, hnot, hone⟩) ?_
    show min (s.backoff * 2) src.config.maxBackoff = _
    rw [hbackoff, ← Backoff.capped_succ (hmin.le.trans hle), Nat.sub_add_cancel hk]
  | aclose => exact ⟨hbacks.same rfl, hpc⟩

end StreamConfig

/-! ### The sleeps of `stream` -/

namespace StreamSource

variable {src : StreamSource} {closed : Bool}

private theorem generatorInv_start : src.config.GeneratorInv (.start closed) := by
  refine ⟨⟨History.gaps_of_notMem List.not_mem_nil, fun duration before hsuffix => ?_⟩, rfl⟩
  cases List.eq_nil_of_suffix_nil hsuffix

private theorem generatorInv_run (hmin : 0 < src.config.minBackoff)
    (hle : src.config.minBackoff ≤ src.config.maxBackoff)
    {path : List (GeneratorLabel × GeneratorState)} (hrun : Run src.GeneratorStep (.start closed) path) :
    Always src.config.GeneratorInv (.start closed) path :=
  hrun.always (fun _ _ _ h hstep => h.step hmin hle hstep) generatorInv_start

/-- In every run there is one sleep between every two attempts, and every sleep is that of the attempts since the last
one that brought an event. -/
theorem stream_backsOff (src : StreamSource) (hmin : 0 < src.config.minBackoff)
    (hle : src.config.minBackoff ≤ src.config.maxBackoff) (closed : Bool)
    {path : List (GeneratorLabel × GeneratorState)} (hrun : Run src.GeneratorStep (.start closed) path) :
    Always src.config.BacksOff (.start closed) path :=
  (generatorInv_run hmin hle hrun).mono fun _ h => h.1

/-- An attempt that fails, one that brings an event, and one that fails again: the backoff starts over at the event. -/
theorem stream_backsOff_sse :
    ∃ path, Run (SSESource.source { account := seller }).GeneratorStep (.start false) path ∧
      (last (GeneratorState.start false) path).history.length = 7 ∧
      Always (SSESource.source { account := seller }).config.BacksOff (.start false) path := by
  have hbacks : ∀ path, Run (SSESource.source { account := seller }).GeneratorStep (.start false) path →
      Always (SSESource.source { account := seller }).config.BacksOff (.start false) path :=
    fun path hrun => stream_backsOff _ (by decide) (by decide) false hrun
  have hrun : Run (SSESource.source { account := seller }).GeneratorStep (.start false)
      [(.started, _), (.disconnected (some .httpError) 0, _), (.woken (.ok ()), _), (.yielded newLot, _),
        (.resumed, _), (.disconnected none 0, _), (.woken (.ok ()), _), (.disconnected (some .httpError) 0, _)] :=
    ⟨.started rfl, .lost trivial rfl (jitterOf_zero _), .woken rfl, .yielded _ rfl, .resumed rfl,
      .finished rfl (jitterOf_zero _), .woken rfl, .lost trivial rfl (jitterOf_zero _), trivial⟩
  exact ⟨_, hrun, rfl, hbacks _ hrun⟩

end StreamSource

/-! ### The sleeps of `run` -/

/-- Where `run` is in the loop of its generator: while an event is fed, or the cursor advanced, the generator is
suspended at its `yield`. -/
inductive StreamPc.Drives : StreamPc → GeneratorPc → Prop where
  | off {pc : StreamPc} (h : pc.Off) (pc' : GeneratorPc) : Drives pc pc'
  | attempting {pc : StreamPc} (h : pc.Attempting) : Drives pc .attempting
  | feeding (event : ClientEvent) : Drives (.feeding event) (.yielded event)
  | advancing (event : ClientEvent) : Drives (.advancing event) (.yielded event)
  | sleeping (duration : ℚ) : Drives (.sleeping duration) (.sleeping duration)

/-- `run` has brought its generator to where it is. -/
def StreamState.Drives (s : StreamState) (g : GeneratorState) : Prop :=
  s.closed = g.closed ∧ (s.pc.Off ∨ s.backoff = g.backoff) ∧ s.pc.Drives g.pc

section
variable {s : StreamState} {g : GeneratorState}

private theorem StreamState.Drives.attempting (h : s.Drives g) (ha : s.pc.Attempting) :
    g.pc = .attempting ∧ s.backoff = g.backoff := by
  obtain ⟨-, hb, hpc⟩ := h
  generalize s.pc = pc at ha hb hpc
  generalize g.pc = pc' at hpc
  cases hpc with
  | off ho => cases pc <;> simp_all [StreamPc.Off, StreamPc.Attempting]
  | attempting => exact ⟨rfl, hb.resolve_left fun ho => by cases pc <;> simp_all [StreamPc.Off, StreamPc.Attempting]⟩
  | feeding | advancing | sleeping => cases ha

private theorem StreamState.Drives.suspended {event : ClientEvent} (h : s.Drives g)
    (hs : s.pc = .feeding event ∨ s.pc = .advancing event) : g.pc = .yielded event ∧ s.backoff = g.backoff := by
  obtain ⟨-, hb, hpc⟩ := h
  generalize g.pc = pc' at hpc
  rcases hs with hs | hs <;> rw [hs] at hb hpc
  · cases hpc with
    | off ho => cases ho
    | attempting ha => cases ha
    | feeding => exact ⟨rfl, hb.resolve_left id⟩
  · cases hpc with
    | off ho => cases ho
    | attempting ha => cases ha
    | advancing => exact ⟨rfl, hb.resolve_left id⟩

private theorem StreamState.Drives.sleeping {duration : ℚ} (h : s.Drives g) (hs : s.pc = .sleeping duration) :
    g.pc = .sleeping duration ∧ s.backoff = g.backoff := by
  obtain ⟨-, hb, hpc⟩ := h
  generalize g.pc = pc' at hpc
  rw [hs] at hb hpc
  cases hpc with
  | off ho => cases ho
  | attempting ha => cases ha
  | sleeping => exact ⟨rfl, hb.resolve_left id⟩

private theorem StreamState.Drives.loop (hc : s.closed = g.closed) (hb : s.backoff = g.backoff) :
    s.loop.Drives g.loop := by
  obtain ⟨pc, backoff, closed⟩ := s
  obtain ⟨pc', backoff', closed', history⟩ := g
  obtain rfl : closed = closed' := hc
  obtain rfl : backoff = backoff' := hb
  cases closed with
  | true => exact ⟨rfl, Or.inl trivial, .off (show StreamPc.Off (.ended (.ok ())) from trivial) _⟩
  | false => exact ⟨rfl, Or.inr rfl, .attempting trivial⟩

private theorem StreamState.Drives.pause {jitter : ℚ} (hc : s.closed = g.closed) (hb : s.backoff = g.backoff) :
    (s.pause jitter).Drives (g.pause jitter) := by
  obtain ⟨pc, backoff, closed⟩ := s
  obtain ⟨pc', backoff', closed', history⟩ := g
  obtain rfl : closed = closed' := hc
  obtain rfl : backoff = backoff' := hb
  cases closed with
  | true => exact ⟨rfl, Or.inl trivial, .off (show StreamPc.Off (.ended (.ok ())) from trivial) _⟩
  | false => exact ⟨rfl, Or.inr rfl, .sleeping _⟩

/-- What `run` does is done by its generator. -/
private theorem StreamSource.Step.driven {src : StreamSource} {t : StreamState} {l : StreamLabel} (hl : l ≠ .run)
    (h : src.Step s l t) (hd : s.Drives g) : ∃ path, Run src.GeneratorStep g path ∧ t.Drives (last g path) := by
  have hc := hd.1
  cases h with
  | run => exact absurd rfl hl
  | resumed lastSeq hpc hr =>
    obtain ⟨ha, hb⟩ := hd.attempting (by rw [hpc]; trivial)
    refine ⟨[], trivial, hc, Or.inr hb, ?_⟩
    show StreamPc.Drives (.connecting _) g.pc
    rw [ha]
    exact .attempting trivial
  | connected hpc =>
    obtain ⟨ha, hb⟩ := hd.attempting (by rw [hpc]; trivial)
    refine ⟨[], trivial, hc, Or.inr hb, ?_⟩
    show StreamPc.Drives .reading g.pc
    rw [ha]
    exact .attempting trivial
  | yielded event hpc =>
    obtain ⟨ha, hb⟩ := hd.attempting (by rw [hpc]; trivial)
    exact ⟨[(_, _)], ⟨.yielded event ha, trivial⟩, hc, Or.inr rfl, .feeding event⟩
  | finished hpc hj =>
    obtain ⟨ha, hb⟩ := hd.attempting (by rw [hpc]; trivial)
    exact ⟨[(_, _)], ⟨.finished ha (hb ▸ hj), trivial⟩, .pause hc hb⟩
  | lost hpc he hj =>
    obtain ⟨ha, hb⟩ := hd.attempting hpc
    exact ⟨[(_, _)], ⟨.lost (by rw [ha]; trivial) he (hb ▸ hj), trivial⟩, .pause hc hb⟩
  | @fed event result hpc =>
    obtain ⟨hy, hb⟩ := hd.suspended (Or.inl hpc)
    unfold StreamPc.settled
    split
    · exact ⟨[(_, _)], ⟨.resumed hy, trivial⟩, hc, Or.inr hb, .attempting trivial⟩
    · refine ⟨[], trivial, hc, Or.inr hb, ?_⟩
      show StreamPc.Drives (.advancing event) g.pc
      rw [hy]
      exact .advancing event
  | advanced hpc =>
    obtain ⟨hy, hb⟩ := hd.suspended (Or.inr hpc)
    exact ⟨[(_, _)], ⟨.resumed hy, trivial⟩, hc, Or.inr hb, .attempting trivial⟩
  | woken hpc =>
    obtain ⟨hs, hb⟩ := hd.sleeping hpc
    refine ⟨[(_, _)], ⟨.woken hs, trivial⟩, .loop hc ?_⟩
    show min (s.backoff * 2) _ = min (g.backoff * 2) _
    rw [hb]
  | aclose => exact ⟨[(_, _)], ⟨.aclose g, trivial⟩, rfl, hd.2.1, hd.2.2⟩
  | refused | failed | feedRaises | advanceRaises | sleepRaises =>
    exact ⟨[], trivial, hc, Or.inl trivial, .off (show StreamPc.Off (.ended _) from trivial) _⟩

end

/-- Whatever becomes of its events, `run` sleeps no less than the least backoff and no more than a quarter above the
greatest. -/
theorem StreamSource.run_sleep_bounds {src : StreamSource} {s t : StreamState} {path : List (StreamLabel × StreamState)}
    {duration : ℚ} (hmin : 0 < src.config.minBackoff) (hle : src.config.minBackoff ≤ src.config.maxBackoff)
    (h : src.Step s .run t) (hrun : Run (fun s l t => l ≠ .run ∧ src.Step s l t) t path)
    (hpc : (last t path).pc = .sleeping duration) :
    src.config.minBackoff ≤ duration ∧ duration ≤ 5 / 4 * src.config.maxBackoff := by
  have hstart : ∃ l g, src.GeneratorStep (.start s.closed) l g ∧ t.Drives g := by
    cases h with
    | run => exact ⟨_, _, .started rfl, .loop rfl rfl⟩
  obtain ⟨l, g, hstep, hd⟩ := hstart
  obtain ⟨path', hrun', hd'⟩ := hrun.matched StreamState.Drives (fun _ _ _ _ hd h => h.2.driven h.1 hd) hd
  have hrun : Run src.GeneratorStep (.start s.closed) ((l, g) :: path') := ⟨hstep, hrun'⟩
  have hall := generatorInv_run hmin hle hrun
  obtain ⟨hbacks, hinv⟩ := hall.last
  have hsleeps : (last (GeneratorState.start s.closed) ((l, g) :: path')).pc = .sleeping duration :=
    (hd'.sleeping hpc).1
  rw [hsleeps] at hinv
  obtain ⟨-, before, hh⟩ := hinv
  exact (hbacks.2 duration before (by rw [hh])).2

end EventusSdk
