import EventusSdk.Lib.Backoff
import EventusSdk.Pacing

/-!
# The sleeps of the polling source

`PollingSource.run` and `PollingSource.stream` each have a copy of the loop that polls and sleeps.  What they share is
a pace: a batch comes, and if it is drained there is a sleep behind it, of `interval` after items, and twice as long as
the last value, up to `empty_backoff_max`, after none.  That bound may lie below `interval`, and then an idle queue is
polled faster than one with items in it.
-/

namespace EventusSdk

open Transition

/-! ### The pace -/

/-- What happens in the loop: it is entered, a batch comes, and there is a sleep. -/
inductive SleepEvent where
  | called
  | answered (batch : PendingBatch)
  | slept (duration : ℚ)

/-- Behind the last batch there is nothing left to be done. -/
def Settled (history : List SleepEvent) : Prop :=
  ∀ batch before, history = .answered batch :: before → batch.drained = false

/-- A stretch of empty batches, within one call. -/
def IdleStretch (between : List SleepEvent) : Prop :=
  ∀ x ∈ between, (∃ batch, x = .answered batch ∧ batch.items = []) ∨ ∃ duration, x = .slept duration

namespace PollingSource

variable (src : PollingSource)

/-- The value of `sleep_for`, from what has happened, the last first. -/
def sleepAfter : List SleepEvent → ℚ
  | [] | .called :: _ => src.config.interval
  | .answered batch :: history => src.nextSleep (sleepAfter history) batch
  | .slept _ :: history => sleepAfter history

/-- A step of the pace, with the batch that comes in it. -/
inductive PaceStep : List SleepEvent → Option PendingBatch → List SleepEvent → Prop where
  | called (history : List SleepEvent) : PaceStep history none (.called :: history)
  | waits (history : List SleepEvent) : PaceStep history none history
  | answered {history : List SleepEvent} {batch : PendingBatch} (hs : Settled history)
      (hb : batch.items ≠ [] ∨ batch.drained = false) : PaceStep history (some batch) (.answered batch :: history)
  | idle {history : List SleepEvent} {batch : PendingBatch} (hs : Settled history) (hi : batch.items = [])
      (hd : batch.drained = true) :
      PaceStep history (some batch)
        (.slept (src.sleepAfter (.answered batch :: history)) :: .answered batch :: history)
  | finished {history : List SleepEvent} {batch : PendingBatch} (hi : batch.items ≠ []) (hd : batch.drained = true) :
      PaceStep (.answered batch :: history) none
        (.slept (src.sleepAfter (.answered batch :: history)) :: .answered batch :: history)

/-- The end of the loop's body: a sleep, if the batch is drained. -/
def settle (batch : PendingBatch) (history : List SleepEvent) : List SleepEvent :=
  if batch.drained then .slept (src.sleepAfter (.answered batch :: history)) :: .answered batch :: history
  else .answered batch :: history

/-- A sleep comes right behind a drained batch and is as long as `sleep_for` says, and behind a drained batch there is
a sleep, unless the loop is entered anew. -/
structure InPace (history : List SleepEvent) : Prop where
  sleep : ∀ duration before, .slept duration :: before <:+ history → duration = src.sleepAfter before ∧
    ∃ batch before', before = .answered batch :: before' ∧ batch.drained = true
  drained : ∀ x batch before, x :: .answered batch :: before <:+ history → batch.drained = true →
    x = .called ∨ ∃ duration, x = .slept duration

/-- Every sleep lasts `interval` at least and no longer than the greater of the two values of the config, sleeps do not
get shorter while the batches are empty, and the first behind a drained batch with items is `interval`. -/
structure Unhurried (history : List SleepEvent) : Prop where
  bounds : ∀ duration, .slept duration ∈ history → src.config.interval ≤ duration ∧
    duration ≤ max src.config.interval src.config.emptyBackoffMax
  grows : ∀ duration duration' between batch before,
    .slept duration' :: (between ++ .slept duration :: .answered batch :: before) <:+ history →
    batch.items = [] → IdleStretch between → duration ≤ duration'
  resets : ∀ duration between batch before, .slept duration :: (between ++ .answered batch :: before) <:+ history →
    batch.items ≠ [] → batch.drained = true → (∀ x ∈ between, ∃ batch', x = .answered batch') →
    duration = src.config.interval

/-- An empty batch that is drained may slow the loop down. -/
def Slows (batch : PendingBatch) : Prop :=
  batch.items = [] → batch.drained = true → src.config.interval ≤ src.config.emptyBackoffMax

/-! ### The values of `sleep_for` -/

section
variable {src} {history before : List SleepEvent} {batch : PendingBatch}

/-- What holds of `interval`, and of every value that an empty batch makes of one of which it holds, holds of
`sleep_for`. -/
private theorem sleepAfter_induction (P : ℚ → Prop) (hstart : P src.config.interval)
    (hempty : ∀ x, P x → P (min (x * 2) src.config.emptyBackoffMax)) (history : List SleepEvent) :
    P (src.sleepAfter history) := by
  induction history with
  | nil => exact hstart
  | cons x history ih =>
    cases x with
    | called => exact hstart
    | slept duration => exact ih
    | answered batch =>
      show P (src.nextSleep (src.sleepAfter history) batch)
      by_cases hi : batch.items = []
      · rw [nextSleep_empty hi]
        exact hempty _ ih
      · rw [nextSleep_items hi]
        exact hstart

private theorem sleepAfter_pos (hint : 0 < src.config.interval) (hmax : 0 < src.config.emptyBackoffMax)
    (history : List SleepEvent) : 0 < src.sleepAfter history :=
  sleepAfter_induction (fun x => 0 < x) hint (fun _ hx => lt_min (by linarith) hmax) history

private theorem sleepAfter_le (history : List SleepEvent) :
    src.sleepAfter history ≤ max src.config.interval src.config.emptyBackoffMax := by
  refine sleepAfter_induction (fun x => x ≤ max src.config.interval src.config.emptyBackoffMax) ?_ ?_ history
  · exact le_max_left ..
  · exact fun x _ => (min_le_right ..).trans (le_max_right ..)

/-- Where the bound is not below `interval`, neither is `sleep_for`. -/
private theorem le_sleepAfter (hint : 0 < src.config.interval) (hle : src.config.interval ≤ src.config.emptyBackoffMax)
    (history : List SleepEvent) : src.config.interval ≤ src.sleepAfter history :=
  sleepAfter_induction (fun x => src.config.interval ≤ x) le_rfl (fun _ hx => le_min (by linarith) hle) history

/-- Over a stretch of empty batches `sleep_for` does not decrease, once it is within its bound. -/
private theorem sleepAfter_stretch (hint : 0 < src.config.interval) (hmax : 0 < src.config.emptyBackoffMax)
    {between : List SleepEvent} (hidle : IdleStretch between)
    (hb : src.sleepAfter before ≤ src.config.emptyBackoffMax) :
    src.sleepAfter before ≤ src.sleepAfter (between ++ before) ∧
      src.sleepAfter (between ++ before) ≤ src.config.emptyBackoffMax := by
  induction between with
  | nil => exact ⟨le_rfl, hb⟩
  | cons x between ih =>
    obtain ⟨hlow, hhigh⟩ := ih fun y hy => hidle y (List.mem_cons_of_mem _ hy)
    rcases hidle x (List.mem_cons_self ..) with ⟨batch, rfl, hi⟩ | ⟨duration, rfl⟩
    · show _ ≤ src.nextSleep (src.sleepAfter (between ++ before)) batch ∧
        src.nextSleep (src.sleepAfter (between ++ before)) batch ≤ _
      rw [nextSleep_empty hi]
      have hnonneg := (sleepAfter_pos hint hmax (between ++ before)).le
      exact ⟨hlow.trans (Backoff.le_min_double hnonneg hhigh), min_le_right ..⟩
    · exact ⟨hlow, hhigh⟩

/-! ### The pace is kept -/

private theorem InPace.nil : src.InPace [] := by
  constructor
  · intro duration before h
    cases List.eq_nil_of_suffix_nil h
  · intro x batch before h
    cases List.eq_nil_of_suffix_nil h

private theorem InPace.called (h : src.InPace history) : src.InPace (.called :: history) := by
  constructor
  · intro duration before hsuffix
    rcases List.suffix_cons_iff.1 hsuffix with heq | hsuffix
    · cases (List.cons.inj heq).1
    · exact h.sleep duration before hsuffix
  · intro x batch before hsuffix hd
    rcases List.suffix_cons_iff.1 hsuffix with heq | hsuffix
    · exact Or.inl (List.cons.inj heq).1
    · exact h.drained x batch before hsuffix hd

private theorem InPace.answered (h : src.InPace history) (hs : Settled history) :
    src.InPace (.answered batch :: history) := by
  constructor
  · intro duration before hsuffix
    rcases List.suffix_cons_iff.1 hsuffix with heq | hsuffix
    · cases (List.cons.inj heq).1
    · exact h.sleep duration before hsuffix
  · intro x batch' before hsuffix hd
    rcases List.suffix_cons_iff.1 hsuffix with heq | hsuffix
    · have hnot := hs batch' before (List.cons.inj heq).2.symm
      rw [hd] at hnot
      cases hnot
    · exact h.drained x batch' before hsuffix hd

private theorem InPace.slept (h : src.InPace (.answered batch :: history)) (hd : batch.drained = true) :
    src.InPace (.slept (src.sleepAfter (.answered batch :: history)) :: .answered batch :: history) := by
  constructor
  · intro duration before hsuffix
    rcases List.suffix_cons_iff.1 hsuffix with heq | hsuffix
    · obtain ⟨hslept, rfl⟩ := List.cons.inj heq
      obtain rfl := SleepEvent.slept.inj hslept
      exact ⟨rfl, batch, history, rfl, hd⟩
    · exact h.sleep duration before hsuffix
  · intro x batch' before hsuffix hd'
    rcases List.suffix_cons_iff.1 hsuffix with heq | hsuffix
    · exact Or.inr ⟨_, (List.cons.inj heq).1⟩
    · exact h.drained x batch' before hsuffix hd'

private theorem InPace.step {history' : List SleepEvent} {answer : Option PendingBatch} (h : src.InPace history)
    (hstep : src.PaceStep history answer history') : src.InPace history' := by
  cases hstep with
  | called => exact h.called
  | waits => exact h
  | answered hs hb => exact h.answered hs
  | idle hs hi hd => exact (h.answered hs).slept hd
  | finished hi hd => exact h.slept hd

/-! ### When the loop is not hurried -/

/-- Over a stretch of empty batches the sleeps do not get shorter. -/
private theorem InPace.grows (h : src.InPace history) (hint : 0 < src.config.interval)
    (hmax : 0 < src.config.emptyBackoffMax)
    {duration duration' : ℚ} {between : List SleepEvent} (hi : batch.items = []) (hidle : IdleStretch between)
    (hsuffix : .slept duration' :: (between ++ .slept duration :: .answered batch :: before) <:+ history) :
    duration ≤ duration' := by
  have hsuffix' : .slept duration :: .answered batch :: before <:+ history :=
    List.IsSuffix.trans ⟨.slept duration' :: between, rfl⟩ hsuffix
  have hd := (h.sleep duration _ hsuffix').1
  have hd' := (h.sleep duration' _ hsuffix).1
  have hcap : src.sleepAfter (.slept duration :: .answered batch :: before) ≤ src.config.emptyBackoffMax := by
    show src.nextSleep _ batch ≤ _
    rw [nextSleep_empty hi]
    exact min_le_right ..
  rw [hd, hd']
  exact (sleepAfter_stretch hint hmax hidle hcap).1

/-- The first sleep behind a drained batch with items is the interval. -/
private theorem InPace.resets (h : src.InPace history) {duration : ℚ} {between : List SleepEvent}
    (hi : batch.items ≠ []) (hd : batch.drained = true) (hbetween : ∀ x ∈ between, ∃ batch', x = .answered batch')
    (hsuffix : .slept duration :: (between ++ .answered batch :: before) <:+ history) :
    duration = src.config.interval := by
  rcases List.eq_nil_or_concat between with rfl | ⟨between, x, rfl⟩
  · rw [(h.sleep duration _ hsuffix).1]
    exact nextSleep_items hi
  · -- a drained batch is not followed by another batch
    have hsuffix' : x :: .answered batch :: before <:+ history := by
      refine List.IsSuffix.trans ⟨.slept duration :: between, ?_⟩ hsuffix
      rw [List.concat_append]
      rfl
    obtain ⟨batch', rfl⟩ := hbetween x (by simp)
    rcases h.drained _ batch before hsuffix' hd with hx | ⟨_, hx⟩ <;> cases hx

/-- All that can go wrong is a sleep behind an empty batch, where the bound lies below `interval`. -/
private theorem unhurried_iff (hint : 0 < src.config.interval) (hmax : 0 < src.config.emptyBackoffMax)
    (h : src.InPace history) :
    src.Unhurried history ↔ ∀ duration batch before, .slept duration :: .answered batch :: before <:+ history →
      batch.items = [] → src.config.interval ≤ src.config.emptyBackoffMax := by
  constructor
  · intro hu duration batch before hsuffix hi
    have hlow := (hu.bounds duration (hsuffix.subset (List.mem_cons_self ..))).1
    have hd := (h.sleep duration _ hsuffix).1
    have hnext : src.sleepAfter (.answered batch :: before) = min _ _ := nextSleep_empty hi
    rw [hd, hnext] at hlow
    exact hlow.trans (min_le_right ..)
  · intro hslow
    refine ⟨fun duration hmem => ?_, fun _ _ _ _ _ hsuffix hi hidle => h.grows hint hmax hi hidle hsuffix,
      fun _ _ _ _ hsuffix hi hd hbetween => h.resets hi hd hbetween hsuffix⟩
    obtain ⟨after, before, rfl⟩ := List.append_of_mem hmem
    have hsuffix : .slept duration :: before <:+ after ++ .slept duration :: before := List.suffix_append ..
    obtain ⟨hd, batch, before', rfl, -⟩ := h.sleep duration before hsuffix
    refine ⟨?_, by rw [hd]; exact sleepAfter_le _⟩
    rw [hd]
    by_cases hi : batch.items = []
    · exact le_sleepAfter hint (hslow duration batch before' hsuffix hi) _
    · exact (nextSleep_items hi).ge

/-- What is no batch leaves nothing to be done. -/
private theorem settled_cons {x : SleepEvent} (hx : ∀ batch, x ≠ .answered batch) : Settled (x :: history) :=
  fun batch _ heq => absurd (List.cons.inj heq).1 (hx batch)

private theorem settle_items (hi : batch.items ≠ []) :
    src.PaceStep (.answered batch :: history) none (src.settle batch history) := by
  unfold settle
  split
  · next hd => exact .finished hi hd
  · exact .waits _

private theorem settle_empty (hi : batch.items = []) (hs : Settled history) :
    src.PaceStep history (some batch) (src.settle batch history) := by
  unfold settle
  split
  · next hd => exact .idle hs hi hd
  · next hd => exact .answered hs (Or.inr (by simpa using hd))

/-- A step leaves the loop unhurried exactly if the batch that comes in it slows it down. -/
private theorem unhurried_step_iff {history' : List SleepEvent} {answer : Option PendingBatch}
    (hint : 0 < src.config.interval) (hmax : 0 < src.config.emptyBackoffMax) (h : src.InPace history)
    (hu : src.Unhurried history) (hstep : src.PaceStep history answer history') :
    src.Unhurried history' ↔ ∀ batch ∈ answer, src.Slows batch := by
  have hold := (unhurried_iff hint hmax h).1 hu
  rw [unhurried_iff hint hmax (h.step hstep)]
  cases hstep with
  | called =>
    refine iff_of_true (fun duration batch before hsuffix hi => ?_) (by simp)
    rcases List.suffix_cons_iff.1 hsuffix with heq | hsuffix
    · cases (List.cons.inj heq).1
    · exact hold duration batch before hsuffix hi
  | waits => exact iff_of_true hold (by simp)
  | answered hs hb =>
    refine iff_of_true (fun duration batch before hsuffix hi => ?_) (fun batch hbatch hi hd => ?_)
    · rcases List.suffix_cons_iff.1 hsuffix with heq | hsuffix
      · cases (List.cons.inj heq).1
      · exact hold duration batch before hsuffix hi
    · obtain rfl := Option.some.inj hbatch
      rcases hb with hb | hb
      · exact absurd hi hb
      · rw [hd] at hb
        cases hb
  | @idle history batch hs hi hd =>
    constructor
    · intro hslow batch' hbatch _ _
      exact hslow _ batch history (List.suffix_refl _) hi
    · intro hslow duration batch' before hsuffix hi'
      exact hslow batch rfl hi hd
  | @finished history batch hi hd =>
    refine iff_of_true (fun duration batch' before hsuffix hi' => ?_) (by simp)
    rcases List.suffix_cons_iff.1 hsuffix with heq | hsuffix
    · obtain ⟨hbatch, -⟩ := List.cons.inj (List.cons.inj heq).2
      exact absurd (SleepEvent.answered.inj hbatch ▸ hi') hi
    · exact hold duration batch' before hsuffix hi'

end

/-! ### `run` -/

end PollingSource

/-- The source with what has happened in its loop, the last first. -/
structure SleepState where
  source : PollingState
  history : List SleepEvent

def SleepState.start : SleepState := ⟨{}, []⟩

def PollingLabel.answer : PollingLabel → Option PendingBatch
  | .polled (.ok batch) => some batch
  | _ => none

/-- What a step adds before it comes to a sleep. -/
def PollingLabel.entries : PollingLabel → List SleepEvent
  | .run => [.called]
  | .polled (.ok batch) => [.answered batch]
  | _ => []

/-- A step that ends in a sleep has begun it. -/
def PollingPc.sleeps : PollingPc → List SleepEvent
  | .sleeping duration => [.slept duration]
  | _ => []

namespace PollingSource

variable (src : PollingSource)

def SleepStep (s : SleepState) (l : PollingLabel) (t : SleepState) : Prop :=
  src.Step s.source l t.source ∧ t.history = t.source.pc.sleeps ++ (l.entries ++ s.history)

/-- What the history says of where the source waits. -/
def SleepInv (s : SleepState) : Prop :=
  match s.source.pc with
  | .idle => s.history = []
  | .polling => s.source.sleepFor = src.sleepAfter s.history ∧ Settled s.history
  | .feeding batch _ _ _ | .confirming batch => batch.items ≠ [] ∧
      ∃ before, s.history = .answered batch :: before ∧ s.source.sleepFor = src.sleepAfter before
  | .sleeping duration => s.source.sleepFor = src.sleepAfter s.history ∧ ∃ before, s.history = .slept duration :: before
  | .ended _ => True

section
variable {src} {s t : SleepState} {l : PollingLabel} {batch : PendingBatch} {before : List SleepEvent}

private theorem finish_paces {u : PollingState} (hu : u.sleepFor = src.sleepAfter before) :
    (src.finish u batch).pc.sleeps ++ .answered batch :: before = src.settle batch before ∧
      src.SleepInv ⟨src.finish u batch, src.settle batch before⟩ := by
  have hnext : src.nextSleep u.sleepFor batch = src.sleepAfter (.answered batch :: before) := by
    rw [hu]
    rfl
  cases hd : batch.drained with
  | true =>
    rw [finish, settle, hd, if_pos rfl, if_pos rfl, hnext]
    exact ⟨rfl, rfl, _, rfl⟩
  | false =>
    rw [finish, settle, hd, if_neg Bool.false_ne_true, if_neg Bool.false_ne_true, hnext]
    refine ⟨rfl, rfl, fun batch' before' heq => ?_⟩
    rw [← SleepEvent.answered.inj (List.cons.inj heq).1]
    exact hd

/-- The items that are left, of a batch with items. -/
private theorem feedItems_paces {u : PollingState} {rest : List PendingEvent} {allOk : Bool}
    {history' : List SleepEvent} (hi : batch.items ≠ []) (hu : u.sleepFor = src.sleepAfter before)
    (hh : history' = (src.feedItems u batch rest allOk).pc.sleeps ++ .answered batch :: before) :
    src.PaceStep (.answered batch :: before) none history' ∧
      src.SleepInv ⟨src.feedItems u batch rest allOk, history'⟩ := by
  subst hh
  cases rest with
  | cons item rest => exact ⟨.waits _, hi, before, rfl, hu⟩
  | nil =>
    rw [feedItems]
    split
    · exact ⟨.waits _, hi, before, rfl, hu⟩
    · obtain ⟨heq, hinv⟩ := finish_paces hu
      rw [heq]
      exact ⟨settle_items hi, hinv⟩

private theorem SleepInv.step (h : src.SleepInv s) (hstep : src.SleepStep s l t) :
    src.PaceStep s.history l.answer t.history ∧ src.SleepInv t := by
  obtain ⟨u, history⟩ := s
  obtain ⟨v, history'⟩ := t
  obtain ⟨hstep, hh⟩ : src.Step u l v ∧ history' = v.pc.sleeps ++ (l.entries ++ history) := hstep
  rw [SleepInv] at h
  cases hstep with
  | run =>
    subst hh
    exact ⟨.called _, rfl, settled_cons (by simp)⟩
  | polled batch hpc =>
    rw [hpc] at h
    obtain ⟨hu, hs⟩ := h
    by_cases hi : batch.items = []
    · rw [hi, feedItems_empty hi] at hh ⊢
      obtain ⟨heq, hinv⟩ := finish_paces hu
      obtain rfl : history' = src.settle batch history := hh.trans heq
      exact ⟨settle_empty hi hs, hinv⟩
    · obtain ⟨item, rest, hitems⟩ := List.exists_cons_of_ne_nil hi
      rw [hitems] at hh ⊢
      subst hh
      exact ⟨.answered hs (Or.inl hi), hi, history, rfl, hu⟩
  | fed result hpc =>
    rw [hpc] at h
    obtain ⟨hi, before, hhistory, hu⟩ := h
    obtain rfl : history = .answered _ :: before := hhistory
    exact feedItems_paces hi hu hh
  | @confirmed batch lastSeq hpc =>
    rw [hpc] at h
    obtain ⟨hi, before, hhistory, hu⟩ := h
    obtain rfl : history = .answered batch :: before := hhistory
    obtain ⟨heq, hinv⟩ := finish_paces hu
    obtain rfl : history' = src.settle batch before := hh.trans heq
    exact ⟨settle_items hi, hinv⟩
  | woken hpc =>
    rw [hpc] at h
    obtain ⟨hu, before, hhistory⟩ := h
    obtain rfl : history = .slept _ :: before := hhistory
    subst hh
    exact ⟨.waits _, hu, settled_cons (by simp)⟩
  | pollRaises | feedRaises | confirmRaises | sleepRaises =>
    subst hh
    exact ⟨.waits _, trivial⟩

end

/-! ### `stream` -/

end PollingSource

/-- Where the generator is: not started, waiting for a batch, suspended at its `yield` with the items left, in a sleep,
or over. -/
inductive PollingGeneratorPc where
  | created
  | polling
  | yielded (event : ClientEvent) (batch : PendingBatch) (rest : List PendingEvent)
  | sleeping (duration : ℚ)
  | ended (res : Except Exn Unit)

structure PollingGenerator where
  pc : PollingGeneratorPc := .created
  sleepFor : ℚ := 0

/-- The consumer asks for the first event, or for another, or throws an exception in; an await comes back. -/
inductive PollingGeneratorLabel where
  | started
  | resumed
  | thrown (e : Exn)
  | polled (x : Except Exn PendingBatch)
  | woken (x : Except Exn Unit)

namespace PollingSource

variable (src : PollingSource)

/-- The end of the loop's body in `stream`. -/
def finishStream (g : PollingGenerator) (batch : PendingBatch) : PollingGenerator :=
  { pc := if batch.drained then .sleeping (src.nextSleep g.sleepFor batch) else .polling
    sleepFor := src.nextSleep g.sleepFor batch }

/-- The `for` loop over the items left. -/
def yieldItems (g : PollingGenerator) (batch : PendingBatch) : List PendingEvent → PollingGenerator
  | item :: rest => { g with pc := .yielded (.fromPending item .polling) batch rest }
  | [] => src.finishStream g batch

inductive GeneratorStep : PollingGenerator → PollingGeneratorLabel → PollingGenerator → Prop where
  | started {g : PollingGenerator} (h : g.pc = .created) : GeneratorStep g .started ⟨.polling, src.config.interval⟩
  | polled {g : PollingGenerator} (batch : PendingBatch) (h : g.pc = .polling) :
      GeneratorStep g (.polled (.ok batch)) (src.yieldItems g batch batch.items)
  | pollRaises {g : PollingGenerator} (e : Exn) (h : g.pc = .polling) :
      GeneratorStep g (.polled (.error e)) { g with pc := .ended (.error e) }
  | resumed {g : PollingGenerator} {event : ClientEvent} {batch : PendingBatch} {rest : List PendingEvent}
      (h : g.pc = .yielded event batch rest) : GeneratorStep g .resumed (src.yieldItems g batch rest)
  | thrown {g : PollingGenerator} {event : ClientEvent} {batch : PendingBatch} {rest : List PendingEvent} (e : Exn)
      (h : g.pc = .yielded event batch rest) : GeneratorStep g (.thrown e) { g with pc := .ended (.error e) }
  | woken {g : PollingGenerator} {duration : ℚ} (h : g.pc = .sleeping duration) :
      GeneratorStep g (.woken (.ok ())) { g with pc := .polling }
  | sleepRaises {g : PollingGenerator} {duration : ℚ} (e : Exn) (h : g.pc = .sleeping duration) :
      GeneratorStep g (.woken (.error e)) { g with pc := .ended (.error e) }

end PollingSource

/-- The generator with what has happened in its loop, the last first. -/
structure StreamSleepState where
  generator : PollingGenerator
  history : List SleepEvent

def StreamSleepState.start : StreamSleepState := ⟨{}, []⟩

def PollingGeneratorLabel.answer : PollingGeneratorLabel → Option PendingBatch
  | .polled (.ok batch) => some batch
  | _ => none

/-- What a step adds before it comes to a sleep. -/
def PollingGeneratorLabel.entries : PollingGeneratorLabel → List SleepEvent
  | .started => [.called]
  | .polled (.ok batch) => [.answered batch]
  | _ => []

/-- A step that ends in a sleep has begun it. -/
def PollingGeneratorPc.sleeps : PollingGeneratorPc → List SleepEvent
  | .sleeping duration => [.slept duration]
  | _ => []

namespace PollingSource

variable (src : PollingSource)

def StreamSleepStep (s : StreamSleepState) (l : PollingGeneratorLabel) (t : StreamSleepState) : Prop :=
  src.GeneratorStep s.generator l t.generator ∧ t.history = t.generator.pc.sleeps ++ (l.entries ++ s.history)

/-- What the history says of where the generator is. -/
def StreamSleepInv (s : StreamSleepState) : Prop :=
  match s.generator.pc with
  | .created => s.history = []
  | .polling => s.generator.sleepFor = src.sleepAfter s.history ∧ Settled s.history
  | .yielded _ batch _ => batch.items ≠ [] ∧
      ∃ before, s.history = .answered batch :: before ∧ s.generator.sleepFor = src.sleepAfter before
  | .sleeping duration =>
    s.generator.sleepFor = src.sleepAfter s.history ∧ ∃ before, s.history = .slept duration :: before
  | .ended _ => True

section
variable {src} {s t : StreamSleepState} {l : PollingGeneratorLabel} {batch : PendingBatch} {before : List SleepEvent}

private theorem finishStream_paces {g : PollingGenerator} (hg : g.sleepFor = src.sleepAfter before) :
    (src.finishStream g batch).pc.sleeps ++ .answered batch :: before = src.settle batch before ∧
      src.StreamSleepInv ⟨src.finishStream g batch, src.settle batch before⟩ := by
  have hnext : src.nextSleep g.sleepFor batch = src.sleepAfter (.answered batch :: before) := by
    rw [hg]
    rfl
  cases hd : batch.drained with
  | true =>
    rw [finishStream, settle, hd, if_pos rfl, if_pos rfl, hnext]
    exact ⟨rfl, rfl, _, rfl⟩
  | false =>
    rw [finishStream, settle, hd, if_neg Bool.false_ne_true, if_neg Bool.false_ne_true, hnext]
    refine ⟨rfl, rfl, fun batch' before' heq => ?_⟩
    rw [← SleepEvent.answered.inj (List.cons.inj heq).1]
    exact hd

private theorem StreamSleepInv.step (h : src.StreamSleepInv s) (hstep : src.StreamSleepStep s l t) :
    src.PaceStep s.history l.answer t.history ∧ src.StreamSleepInv t := by
  obtain ⟨u, history⟩ := s
  obtain ⟨v, history'⟩ := t
  obtain ⟨hstep, hh⟩ : src.GeneratorStep u l v ∧ history' = v.pc.sleeps ++ (l.entries ++ history) := hstep
  rw [StreamSleepInv] at h
  cases hstep with
  | started =>
    subst hh
    exact ⟨.called _, rfl, settled_cons (by simp)⟩
  | polled batch hpc =>
    rw [hpc] at h
    obtain ⟨hu, hs⟩ := h
    by_cases hi : batch.items = []
    · rw [hi, yieldItems] at hh ⊢
      obtain ⟨heq, hinv⟩ := finishStream_paces hu
      obtain rfl : history' = src.settle batch history := hh.trans heq
      exact ⟨settle_empty hi hs, hinv⟩
    · obtain ⟨item, rest, hitems⟩ := List.exists_cons_of_ne_nil hi
      rw [hitems] at hh ⊢
      subst hh
      exact ⟨.answered hs (Or.inl hi), hi, history, rfl, hu⟩
  | @resumed event batch rest hpc =>
    rw [hpc] at h
    obtain ⟨hi, before, hhistory, hu⟩ := h
    obtain rfl : history = .answered batch :: before := hhistory
    cases rest with
    | cons item rest =>
      subst hh
      exact ⟨.waits _, hi, before, rfl, hu⟩
    | nil =>
      obtain ⟨heq, hinv⟩ := finishStream_paces hu
      obtain rfl : history' = src.settle batch before := hh.trans heq
      exact ⟨settle_items hi, hinv⟩
  | woken hpc =>
    rw [hpc] at h
    obtain ⟨hu, before, hhistory⟩ := h
    obtain rfl : history = .slept _ :: before := hhistory
    subst hh
    exact ⟨.waits _, hu, settled_cons (by simp)⟩
  | pollRaises | thrown | sleepRaises =>
    subst hh
    exact ⟨.waits _, trivial⟩

end

/-! ### Both loops -/

/-- In every run of `run`, and in every run of `stream`, the loop is never hurried if and only if no empty batch comes
that is drained, unless the bound is not below `interval`. -/
theorem sleeps_unhurried_iff (hint : 0 < src.config.interval) (hmax : 0 < src.config.emptyBackoffMax) :
    (∀ path, Run src.SleepStep .start path → (Always (fun s => src.Unhurried s.history) .start path ↔
        Meets (fun _ l => ∀ batch ∈ l.answer, src.Slows batch) .start path)) ∧
      ∀ path, Run src.StreamSleepStep .start path → (Always (fun s => src.Unhurried s.history) .start path ↔
        Meets (fun _ l => ∀ batch ∈ l.answer, src.Slows batch) .start path) := by
  have hnil : src.Unhurried [] := (unhurried_iff hint hmax .nil).2 fun duration batch before h => by
    cases List.eq_nil_of_suffix_nil h
  constructor
  · intro path hrun
    refine hrun.always_iff_meets (fun s => src.SleepInv s ∧ src.InPace s.history) ?_ ?_ ⟨rfl, .nil⟩ hnil
    · intro s l t h _ hstep _
      obtain ⟨hpace, hinv⟩ := h.1.step hstep
      exact ⟨hinv, h.2.step hpace⟩
    · intro s l t h hu hstep
      exact unhurried_step_iff hint hmax h.2 hu (h.1.step hstep).1
  · intro path hrun
    refine hrun.always_iff_meets (fun s => src.StreamSleepInv s ∧ src.InPace s.history) ?_ ?_ ⟨rfl, .nil⟩ hnil
    · intro s l t h _ hstep _
      obtain ⟨hpace, hinv⟩ := h.1.step hstep
      exact ⟨hinv, h.2.step hpace⟩
    · intro s l t h hu hstep
      exact unhurried_step_iff hint hmax h.2 hu (h.1.step hstep).1

end PollingSource

/-! ### An empty queue -/

/-- The two values of the default are in order, and every run is unhurried. -/
theorem sleeps_unhurried_default :
    (∃ path, Run (PollingSource.SleepStep { account := seller }) .start path ∧
      (last SleepState.start path).history.length = 3 ∧
      Always (fun s => PollingSource.Unhurried { account := seller } s.history) .start path) ∧
      ∃ path, Run (PollingSource.StreamSleepStep { account := seller }) .start path ∧
        (last StreamSleepState.start path).history.length = 3 ∧
        Always (fun s => PollingSource.Unhurried { account := seller } s.history) .start path := by
  obtain ⟨hrunning, hstreaming⟩ := PollingSource.sleeps_unhurried_iff { account := seller } (by decide) (by decide)
  have hslows : PollingSource.Slows { account := seller } drainedBatch := fun _ _ => by decide
  have hrun : Run (PollingSource.SleepStep { account := seller }) .start
      [(.run, ⟨_, _⟩), (.polled (.ok drainedBatch), ⟨_, _⟩)] :=
    ⟨⟨.run trivial, rfl⟩, ⟨.polled _ rfl, rfl⟩, trivial⟩
  have hstream : Run (PollingSource.StreamSleepStep { account := seller }) .start
      [(.started, ⟨_, _⟩), (.polled (.ok drainedBatch), ⟨_, _⟩)] :=
    ⟨⟨.started rfl, rfl⟩, ⟨.polled _ rfl, rfl⟩, trivial⟩
  refine ⟨⟨_, hrun, rfl, (hrunning _ hrun).2 ⟨by simp [PollingLabel.answer], ?_, trivial⟩⟩,
    ⟨_, hstream, rfl, (hstreaming _ hstream).2 ⟨by simp [PollingGeneratorLabel.answer], ?_, trivial⟩⟩⟩
  · intro batch hbatch
    obtain rfl := Option.some.inj hbatch
    exact hslows
  · intro batch hbatch
    obtain rfl := Option.some.inj hbatch
    exact hslows

/-- Only the interval is set, to two minutes. -/
def slowPolling : PollingSource := { account := seller, config := { interval := 120 } }

/-- The first empty batch halves the time between two polls. -/
theorem sleeps_hurried :
    (∃ path, Run slowPolling.SleepStep .start path ∧
      ¬ Always (fun s => slowPolling.Unhurried s.history) .start path) ∧
      ∃ path, Run slowPolling.StreamSleepStep .start path ∧
        ¬ Always (fun s => slowPolling.Unhurried s.history) .start path := by
  have hslept : slowPolling.nextSleep 120 drainedBatch < 120 := by
    rw [PollingSource.nextSleep_empty rfl]
    norm_num [slowPolling]
  have hhurried : ∀ before, ¬ slowPolling.Unhurried (.slept (slowPolling.nextSleep 120 drainedBatch) :: before) :=
    fun before hu => absurd (hu.bounds _ (List.mem_cons_self ..)).1 (not_le.2 hslept)
  constructor
  · refine ⟨[(.run, ⟨_, _⟩), (.polled (.ok drainedBatch), ⟨_, _⟩)],
      ⟨⟨.run trivial, rfl⟩, ⟨.polled _ rfl, rfl⟩, trivial⟩, fun h => ?_⟩
    exact hhurried _ h.last
  · refine ⟨[(.started, ⟨_, _⟩), (.polled (.ok drainedBatch), ⟨_, _⟩)],
      ⟨⟨.started rfl, rfl⟩, ⟨.polled _ rfl, rfl⟩, trivial⟩, fun h => ?_⟩
    exact hhurried _ h.last

end EventusSdk
