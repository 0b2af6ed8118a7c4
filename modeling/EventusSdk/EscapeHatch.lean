import EventusSdk.Lib.Simulation
import EventusSdk.PollingSleep

/-!
# `stream` driven through the dispatcher

A source is driven by `BaseSource.run`, which takes the events of `stream` and feeds them.  `PollingSource` overrides
it with a `run` that has a copy of the loop of `stream` in it, so that it can confirm a batch behind its last event.
Apart from the confirmations the two do the same: they poll, feed and sleep alike.
-/

namespace EventusSdk

open Transition

/-! ### `BaseSource.run` over the polling generator -/

/-- Where `async for` is: it has not begun, waits for the generator or for a feed, or is over. -/
inductive DrivePc where
  | idle
  | asking
  | feeding (event : ClientEvent)
  | ended (res : Except Exn Unit)

structure DriveState where
  pc : DrivePc := .idle
  generator : PollingGenerator := {}

def DrivePc.Off : DrivePc → Prop
  | .idle | .ended _ => True
  | _ => False

/-- What `async for` makes of where its generator is. -/
def PollingGeneratorPc.drive : PollingGeneratorPc → DrivePc
  | .yielded event _ _ => .feeding event
  | .ended res => .ended res
  | .created | .polling | .sleeping _ => .asking

def PollingGenerator.driven (g : PollingGenerator) : DriveState := ⟨g.pc.drive, g⟩

namespace PollingSource

variable (src : PollingSource)

inductive DriveStep : DriveState → PollingLabel → DriveState → Prop where
  | run {d : DriveState} {g : PollingGenerator} (h : d.pc.Off) (hg : src.GeneratorStep {} .started g) :
      DriveStep d .run g.driven
  | polled {d : DriveState} {x : Except Exn PendingBatch} {g : PollingGenerator} (h : d.pc = .asking)
      (hg : src.GeneratorStep d.generator (.polled x) g) : DriveStep d (.polled x) g.driven
  | fed {d : DriveState} {event : ClientEvent} {g : PollingGenerator} (result : DispatchResult)
      (h : d.pc = .feeding event) (hg : src.GeneratorStep d.generator .resumed g) :
      DriveStep d (.fed event (.ok result)) g.driven
  -- the exception does not go through the generator, which stays suspended
  | feedRaises {d : DriveState} {event : ClientEvent} (e : Exn) (h : d.pc = .feeding event) :
      DriveStep d (.fed event (.error e)) { d with pc := .ended (.error e) }
  | woken {d : DriveState} {x : Except Exn Unit} {g : PollingGenerator} (h : d.pc = .asking)
      (hg : src.GeneratorStep d.generator (.woken x) g) : DriveStep d (.woken x) g.driven

/-- The two loops are at the same place.  While `run` confirms a batch, `stream` is past it. -/
def Abreast (s : PollingState) (d : DriveState) : Prop :=
  match s.pc with
  | .idle => d.pc = .idle
  | .polling => d = PollingGenerator.driven ⟨.polling, s.sleepFor⟩
  | .feeding batch item rest _ =>
    d = PollingGenerator.driven ⟨.yielded (.fromPending item .polling) batch rest, s.sleepFor⟩
  | .confirming batch => d = (src.finishStream ⟨.polling, s.sleepFor⟩ batch).driven
  | .sleeping duration => d = PollingGenerator.driven ⟨.sleeping duration, s.sleepFor⟩
  | .ended res => d.pc = .ended res

end PollingSource

/-- What is left of a step without the confirmations. -/
def PollingLabel.unconfirmed : PollingLabel → Option PollingLabel
  | .confirmed _ => none
  | l => some l

def PollingPc.Confirming : PollingPc → Prop
  | .confirming _ => True
  | _ => False

/-- No `confirm_read` raises. -/
def PollingLabel.Confirms (l : PollingLabel) : Prop := ∀ e, l ≠ .confirmed (.error e)

namespace PollingSource

variable {src : PollingSource} {s t : PollingState} {d d' : DriveState} {l : PollingLabel} {batch : PendingBatch}

/-! ### From `run` to `stream` -/

private theorem finish_abreast {g : PollingGenerator} (hg : g.sleepFor = s.sleepFor) :
    src.Abreast (src.finish s batch) (src.finishStream g batch).driven := by
  unfold finish finishStream
  rw [hg]
  cases batch.drained <;> rfl

private theorem feedItems_abreast {g : PollingGenerator} (hg : g.sleepFor = s.sleepFor) (rest : List PendingEvent)
    (allOk : Bool) : src.Abreast (src.feedItems s batch rest allOk) (src.yieldItems g batch rest).driven := by
  cases rest with
  | cons item rest =>
    rw [feedItems, yieldItems, hg]
    rfl
  | nil =>
    rw [feedItems, yieldItems]
    split
    · show _ = _
      rw [finishStream, finishStream, hg]
    · exact finish_abreast hg

private theorem Abreast.off (h : src.Abreast s d) (hoff : s.pc.Off) : d.pc.Off := by
  rw [Abreast] at h
  cases hpc : s.pc with
  | idle | ended =>
    rw [hpc] at h
    rw [h]
    trivial
  | _ =>
    rw [hpc] at hoff
    cases hoff

/-- A step of `run` is the same step of `stream` and the dispatcher, or a confirmation. -/
private theorem Abreast.step (h : src.Abreast s d) (hl : l.Confirms) (hstep : src.Step s l t) :
    ∃ run', Run src.DriveStep d run' ∧ trace some run' = l.unconfirmed.toList ∧ src.Abreast t (last d run') := by
  cases hstep with
  | run hoff => exact ⟨[(.run, _)], ⟨.run (h.off hoff) (.started rfl), trivial⟩, rfl, rfl⟩
  | polled batch hpc =>
    rw [Abreast, hpc] at h
    subst h
    exact ⟨[(.polled (.ok batch), _)], ⟨.polled rfl (.polled batch rfl), trivial⟩, rfl, feedItems_abreast rfl _ _⟩
  | pollRaises e hpc =>
    rw [Abreast, hpc] at h
    subst h
    exact ⟨[(.polled (.error e), _)], ⟨.polled rfl (.pollRaises e rfl), trivial⟩, rfl, rfl⟩
  | fed result hpc =>
    rw [Abreast, hpc] at h
    subst h
    exact ⟨[(.fed _ (.ok result), _)], ⟨.fed result rfl (.resumed rfl), trivial⟩, rfl, feedItems_abreast rfl _ _⟩
  | feedRaises e hpc =>
    rw [Abreast, hpc] at h
    subst h
    exact ⟨[(.fed _ (.error e), _)], ⟨.feedRaises e rfl, trivial⟩, rfl, rfl⟩
  | confirmed n hpc =>
    rw [Abreast, hpc] at h
    subst h
    exact ⟨[], trivial, rfl, finish_abreast rfl⟩
  | confirmRaises e => exact absurd rfl (hl e)
  | woken hpc =>
    rw [Abreast, hpc] at h
    subst h
    exact ⟨[(.woken (.ok ()), _)], ⟨.woken rfl (.woken rfl), trivial⟩, rfl, rfl⟩
  | sleepRaises e hpc =>
    rw [Abreast, hpc] at h
    subst h
    exact ⟨[(.woken (.error e), _)], ⟨.woken rfl (.sleepRaises e rfl), trivial⟩, rfl, rfl⟩

/-! ### From `stream` to `run` -/

/-- `async for` waits for its generator while a batch is polled, and while the loop sleeps. -/
private theorem Abreast.asking (h : src.Abreast s d) (hs : ¬ s.pc.Confirming) (hd : d.pc = .asking) :
    (s.pc = .polling ∧ d = PollingGenerator.driven ⟨.polling, s.sleepFor⟩) ∨
      ∃ duration, s.pc = .sleeping duration ∧ d = PollingGenerator.driven ⟨.sleeping duration, s.sleepFor⟩ := by
  rw [Abreast] at h
  cases hpc : s.pc <;> rw [hpc] at h hs
  case polling => exact Or.inl ⟨rfl, h⟩
  case sleeping duration => exact Or.inr ⟨duration, rfl, h⟩
  case confirming => exact absurd trivial hs
  case feeding =>
    subst h
    cases hd
  all_goals
    rw [h] at hd
    cases hd

private theorem Abreast.feeding {event : ClientEvent} (h : src.Abreast s d) (hs : ¬ s.pc.Confirming)
    (hd : d.pc = .feeding event) :
    ∃ batch item rest allOk, s.pc = .feeding batch item rest allOk ∧ event = .fromPending item .polling ∧
      d = PollingGenerator.driven ⟨.yielded event batch rest, s.sleepFor⟩ := by
  rw [Abreast] at h
  cases hpc : s.pc <;> rw [hpc] at h hs
  case feeding batch item rest allOk =>
    subst h
    obtain rfl := DrivePc.feeding.inj hd
    exact ⟨batch, item, rest, allOk, rfl, rfl, rfl⟩
  case confirming => exact absurd trivial hs
  case polling | sleeping =>
    subst h
    cases hd
  all_goals
    rw [h] at hd
    cases hd

private theorem Abreast.off_run (h : src.Abreast s d) (hs : ¬ s.pc.Confirming) (hd : d.pc.Off) : s.pc.Off := by
  rw [Abreast] at h
  cases hpc : s.pc <;> rw [hpc] at h hs
  case confirming => exact absurd trivial hs
  case idle | ended => trivial
  all_goals
    subst h
    cases hd

/-- A step of `stream` and the dispatcher is the same step of `run`, unless `run` is still confirming. -/
private theorem Abreast.back (h : src.Abreast s d) (hs : ¬ s.pc.Confirming) (hstep : src.DriveStep d l d') :
    ∃ t, l.Confirms ∧ l.unconfirmed = some l ∧ src.Step s l t ∧ src.Abreast t d' := by
  cases hstep with
  | run hoff hg =>
    cases hg
    exact ⟨_, nofun, rfl, .run (h.off_run hs hoff), rfl⟩
  | polled hd hg =>
    rcases h.asking hs hd with ⟨hpc, rfl⟩ | ⟨duration, hpc, rfl⟩
    · cases hg with
      | polled batch => exact ⟨_, nofun, rfl, .polled batch hpc, feedItems_abreast rfl _ _⟩
      | pollRaises e => exact ⟨_, nofun, rfl, .pollRaises e hpc, rfl⟩
    · cases hg with
      | polled batch hg | pollRaises e hg => cases hg
  | fed result hd hg =>
    obtain ⟨batch, item, rest, allOk, hpc, rfl, rfl⟩ := h.feeding hs hd
    cases hg with
    | resumed hg =>
      cases hg
      exact ⟨_, nofun, rfl, .fed result hpc, feedItems_abreast rfl _ _⟩
  | feedRaises e hd =>
    obtain ⟨batch, item, rest, allOk, hpc, rfl, rfl⟩ := h.feeding hs hd
    exact ⟨_, nofun, rfl, .feedRaises e hpc, rfl⟩
  | woken hd hg =>
    rcases h.asking hs hd with ⟨hpc, rfl⟩ | ⟨duration, hpc, rfl⟩
    · cases hg with
      | woken hg | sleepRaises e hg => cases hg
    · cases hg with
      | woken => exact ⟨_, nofun, rfl, .woken hpc, rfl⟩
      | sleepRaises e => exact ⟨_, nofun, rfl, .sleepRaises e hpc, rfl⟩

private theorem finish_not_confirming : ¬ (src.finish s batch).pc.Confirming := by
  unfold finish
  cases batch.drained <;> exact id

/-- What is left to be confirmed can be confirmed. -/
private theorem Abreast.confirm (h : src.Abreast s d) :
    ∃ run, Run (fun s l t => l.Confirms ∧ src.Step s l t) s run ∧ trace PollingLabel.unconfirmed run = [] ∧
      src.Abreast (last s run) d ∧ ¬ (last s run).pc.Confirming := by
  by_cases hs : s.pc.Confirming
  · cases hpc : s.pc <;> rw [hpc] at hs
    case confirming batch =>
      rw [Abreast, hpc] at h
      subst h
      exact ⟨[(.confirmed (.ok 0), _)], ⟨⟨nofun, .confirmed 0 hpc⟩, trivial⟩, rfl, finish_abreast rfl,
        finish_not_confirming⟩
    all_goals cases hs
  · exact ⟨[], trivial, rfl, h, hs⟩

/-! ### Without confirmations -/

private theorem feedItems_manual {rest : List PendingEvent} {allOk : Bool} (hmode : src.config.confirm = .manual) :
    ¬ (src.feedItems s batch rest allOk).pc.Confirming := by
  cases rest with
  | cons item rest => exact id
  | nil =>
    rw [feedItems, hmode]
    exact finish_not_confirming

/-- In `MANUAL` mode nothing is confirmed. -/
private theorem Step.manual (hmode : src.config.confirm = .manual) (hs : ¬ s.pc.Confirming) (hstep : src.Step s l t) :
    l.unconfirmed = some l ∧ ¬ t.pc.Confirming := by
  cases hstep with
  | polled | fed => exact ⟨rfl, feedItems_manual hmode⟩
  | confirmed _ hpc | confirmRaises _ hpc =>
    rw [hpc] at hs
    exact absurd trivial hs
  | _ => exact ⟨rfl, id⟩

private theorem trace_manual {run : List (PollingLabel × PollingState)} (hmode : src.config.confirm = .manual)
    (hs : ¬ s.pc.Confirming) (hrun : Run src.Step s run) :
    trace PollingLabel.unconfirmed run = run.map Prod.fst := by
  induction run generalizing s with
  | nil => rfl
  | cons x run ih =>
    obtain ⟨hl, ht⟩ := hrun.1.manual hmode hs
    rw [trace_cons, hl, ih ht hrun.2]
    rfl

/-! ### Both ways -/

/-- The `run` of the polling source, as long as no confirmation fails, polls, feeds and sleeps as `BaseSource.run` would
over `stream`, and the other way round;  all that it does besides is confirm, and in `MANUAL` mode nothing at all. -/
theorem run_drives_stream (src : PollingSource) :
    (∀ run, Run (fun s l t => l.Confirms ∧ src.Step s l t) {} run →
      ∃ run', Run src.DriveStep {} run' ∧ run'.map Prod.fst = trace PollingLabel.unconfirmed run ∧
        src.Abreast (last {} run) (last {} run')) ∧
    (∀ run', Run src.DriveStep {} run' →
      ∃ run, Run (fun s l t => l.Confirms ∧ src.Step s l t) {} run ∧
        trace PollingLabel.unconfirmed run = run'.map Prod.fst ∧ src.Abreast (last {} run) (last {} run')) ∧
    (src.config.confirm = .manual → ∀ run, Run src.Step {} run →
      trace PollingLabel.unconfirmed run = run.map Prod.fst) := by
  have h0 : src.Abreast {} {} := rfl
  refine ⟨fun run hrun => ?_, fun run' hrun' => ?_, fun hmode run hrun => trace_manual hmode id hrun⟩
  · obtain ⟨run', hrun', htrace, hlast⟩ := hrun.traced src.Abreast (fun s l t d h hstep => h.step hstep.1 hstep.2) h0
    exact ⟨run', hrun', trace_some.symm.trans htrace, hlast⟩
  · have hmatched : ∀ d l d' s, src.Abreast s d ∧ ¬ s.pc.Confirming → src.DriveStep d l d' →
        ∃ run, Run (fun s l t => l.Confirms ∧ src.Step s l t) s run ∧
          trace PollingLabel.unconfirmed run = (some l).toList ∧ src.Abreast (last s run) d' ∧
          ¬ (last s run).pc.Confirming := by
      rintro d l d' s ⟨h, hs⟩ hstep
      obtain ⟨t, hl, hseen, hstep, ht⟩ := h.back hs hstep
      obtain ⟨run, hrun, htrace, hlast⟩ := ht.confirm
      refine ⟨(l, t) :: run, ⟨⟨hl, hstep⟩, hrun⟩, ?_, hlast⟩
      rw [trace_cons, hseen, htrace]
      rfl
    obtain ⟨run, hrun, htrace, hlast⟩ := hrun'.traced (fun d s => src.Abreast s d ∧ ¬ s.pc.Confirming) hmatched
      ⟨h0, id⟩
    exact ⟨run, hrun, htrace.trans trace_some, hlast.1⟩

end PollingSource

def oneLot : PendingBatch := ⟨"sub-1", [⟨1, "new_lot", []⟩], 2, 0, false, false⟩

/-- A lot is fed and confirmed, and then the queue is empty; a consumer of `stream` feeds it and sleeps as long. -/
theorem run_drives_stream_lot :
    ∃ run', Run (PollingSource.DriveStep { account := seller }) {} run' ∧
      run'.map Prod.fst = [.run, .polled (.ok oneLot),
        .fed (.fromPending ⟨1, "new_lot", []⟩ .polling) (.ok ⟨.handled, newLot, none⟩), .polled (.ok drainedBatch)] ∧
      (last ({} : DriveState) run').pc = .asking := by
  have hrun : Run (fun s l t => PollingLabel.Confirms l ∧ PollingSource.Step { account := seller } s l t) {}
      [(.run, _), (.polled (.ok oneLot), _), (.fed _ (.ok ⟨.handled, newLot, none⟩), _),
        (.confirmed (.ok 1), _), (.polled (.ok drainedBatch), _)] :=
    ⟨⟨nofun, .run trivial⟩, ⟨nofun, .polled _ rfl⟩, ⟨nofun, .fed _ rfl⟩, ⟨nofun, .confirmed 1 rfl⟩,
      ⟨nofun, .polled _ rfl⟩, trivial⟩
  obtain ⟨run', hrun', htrace, hlast⟩ := (PollingSource.run_drives_stream { account := seller }).1 _ hrun
  exact ⟨run', hrun', htrace, congrArg DriveState.pc hlast⟩

end EventusSdk
