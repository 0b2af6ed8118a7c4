import EventusSdk.Lib.Interp
import EventusSdk.Lib.Pool
import EventusSdk.Lib.Transition
import EventusSdk.Middleware
import EventusSdk.Stores

/-!
# Concurrent deliveries over one dedup store

Any number of `feed` calls of one dispatcher run side by side; each may be suspended wherever it awaits something.  The
world they share is the dedup store, with the clock; it also keeps the attempts to mark a key, newest first, which the
code does not record.  `lastMark` is what the attempts say the store should hold, and `Exclusive` which of them passed.

A delivery that has come to the `IdempotencyMiddleware` is an `Arrival`.  The step that answers it leads to the next
link of the chain or to `DUPLICATE`, and `idempotency_exclusive` says when to which.
-/

namespace EventusSdk

/-- A call of `mark_if_new`: of which delivery, for which key, when, and whether it marked the key. -/
structure Attempt where
  delivery : ℕ
  key : String
  ttl : ℚ
  readings : Readings
  passed : Bool

/-- The instant up to which the mark of an attempt that passed is alive. -/
def Attempt.deadline (a : Attempt) : ℚ := a.readings.write + a.ttl

structure DedupWorld where
  store : IdempotencyStore
  now : ℚ
  attempts : List Attempt

namespace DedupWorld

/-- A fresh store; the clock shows `t`. -/
def start (t : ℚ) : DedupWorld := ⟨.empty, t, []⟩

/-- `mark_if_new` called for the delivery `i`. -/
def mark (w : DedupWorld) (i : ℕ) (key : String) (ttl : ℚ) (r : Readings) : Bool × DedupWorld :=
  let (new, store) := w.store.markIfNew key (some ttl) r
  (new, ⟨store, r.sweep, ⟨i, key, ttl, r, new⟩ :: w.attempts⟩)

/-- The dedup store answers `mark_if_new`; everything else answers as it likes. -/
def Serve (w : DedupWorld) (i : ℕ) : Call → Readings → DedupWorld → Prop
  | ⟨.markIfNew key ttl, x⟩, r, w' => w.now ≤ r.check ∧ x = .ok (w.mark i key ttl r).1 ∧ w' = (w.mark i key ttl r).2
  | _, _, w' => w' = w

/-- Someone else calls the storage, in a way that `allowed` permits. -/
def Outside (allowed : StorageOp String Bool → Prop) (w : DedupWorld) (o : StorageOp String Bool × Readings)
    (w' : DedupWorld) : Prop :=
  allowed o.1 ∧ w.now ≤ o.2.check ∧ w' = { w with store := (w.store.exec o.2 o.1).2, now := o.2.sweep }

end DedupWorld

/-- What a `feed` is called with. -/
abbrev FeedArgs := ClientEvent × AccountContext

/-- The dedup key of a feed. -/
def deliveryKey (m : IdempotencyMiddleware) (args : FeedArgs) : String :=
  m.key args.1 (some (.str args.2.subscriptionId))

theorem lookup_subscriptionId (ctx : AccountContext) (payload : Value) :
    (Dispatcher.withPayload (Dispatcher.baseData ctx) payload).lookup "subscription_id" =
      some (.str ctx.subscriptionId) := by
  have hbase : (Dispatcher.baseData ctx).lookup "subscription_id" = some (.str ctx.subscriptionId) :=
    AList.lookup_insert _
  unfold Dispatcher.withPayload
  split
  · exact hbase
  · rw [AList.lookup_insert_ne (by decide), hbase]

/-- The feeds of a dispatcher over one dedup store, beside any other programs that use it. -/
def deliveries {Other : Type} (dispatcher : Dispatcher) (others : Other → Py DispatchResult)
    (allowed : StorageOp String Bool → Prop) :
    Pool.System (FeedArgs ⊕ Other) DedupWorld Readings (StorageOp String Bool × Readings) Req Resp Exn
      DispatchResult where
  program
    | .inl (event, ctx) => dispatcher.feed event ctx
    | .inr other => others other
  serve := DedupWorld.Serve
  outside := DedupWorld.Outside allowed

abbrev DeliveryPool (Other : Type) := Pool (FeedArgs ⊕ Other) DedupWorld Req Resp Exn DispatchResult

abbrev DeliveryLabel (Other : Type) :=
  Pool.Label (FeedArgs ⊕ Other) Req Resp Exn Readings (StorageOp String Bool × Readings)

def DeliveryPool.start (Other : Type) (t : ℚ) : DeliveryPool Other := ⟨.start t, []⟩

/-! ### What the attempts say -/

/-- The attempts that marked the key. -/
def marks (key : String) (attempts : List Attempt) : List Attempt :=
  attempts.filter fun a => a.passed && a.key == key

/-- The mark the last of them left. -/
def lastMark (attempts : List Attempt) (key : String) : Option (Entry Bool) :=
  (marks key attempts).head?.map fun a => ⟨true, some a.deadline⟩

/-- An attempt on the key passed exactly when every older mark of the key had expired. -/
def Exclusive (key : String) : List Attempt → Prop
  | [] => True
  | a :: older =>
    (a.key = key → (a.passed = true ↔ ∀ p ∈ marks key older, p.deadline < a.readings.check)) ∧ Exclusive key older

section
variable {key : String} {attempts : List Attempt} {a p : Attempt} {t : ℚ}

theorem mem_marks : p ∈ marks key attempts ↔ p ∈ attempts ∧ p.passed = true ∧ p.key = key := by
  simp [marks]

private theorem marks_cons_passed (hpassed : a.passed = true) (hkey : a.key = key) :
    marks key (a :: attempts) = a :: marks key attempts := by
  simp [marks, hpassed, hkey]

private theorem marks_cons_other (h : ¬ (a.passed = true ∧ a.key = key)) :
    marks key (a :: attempts) = marks key attempts := by
  simp only [marks, List.filter_cons, Bool.and_eq_true, beq_iff_eq, h, ↓reduceIte]

private theorem lastMark_cons_passed (hpassed : a.passed = true) (hkey : a.key = key) :
    lastMark (a :: attempts) key = some ⟨true, some a.deadline⟩ := by
  rw [lastMark, marks_cons_passed hpassed hkey]
  rfl

private theorem lastMark_cons_other (h : ¬ (a.passed = true ∧ a.key = key)) :
    lastMark (a :: attempts) key = lastMark attempts key := by
  rw [lastMark, marks_cons_other h, lastMark]

/-- The marks of a key, newest first: each was set after the ones before it had expired. -/
private theorem Exclusive.pairwise (h : Exclusive key attempts) :
    (marks key attempts).Pairwise fun newer older => older.deadline < newer.readings.check := by
  induction attempts with
  | nil => exact List.Pairwise.nil
  | cons a older ih =>
    by_cases ha : a.passed = true ∧ a.key = key
    · rw [marks_cons_passed ha.1 ha.2]
      exact List.pairwise_cons.2 ⟨(h.1 ha.2).1 ha.1, ih h.2⟩
    · rw [marks_cons_other ha]
      exact ih h.2

/-- The last mark of a key is alive if and only if any of its marks is. -/
private theorem lastMark_live (hex : Exclusive key attempts) (hrecent : ∀ a ∈ attempts, a.readings.sweep ≤ t) :
    (TtlMap.live (lastMark attempts) t key).isSome = true ↔ ∃ p ∈ marks key attempts, t ≤ p.deadline := by
  have hpair := hex.pairwise
  cases hm : marks key attempts with
  | nil => simp [TtlMap.live, lastMark, hm]
  | cons p older =>
    rw [hm] at hpair
    have hpt : p.readings.check ≤ t :=
      le_trans p.readings.check_le_sweep (hrecent p (mem_marks.1 (hm ▸ List.mem_cons_self ..)).1)
    have hlive : (TtlMap.live (lastMark attempts) t key).isSome = true ↔ t ≤ p.deadline := by
      simp [TtlMap.live, lastMark, hm, TtlMap.Entry.expired, Option.isSome_filter]
    rw [hlive]
    constructor
    · intro h
      exact ⟨p, List.mem_cons_self .., h⟩
    · rintro ⟨q, hq, hqt⟩
      rcases List.mem_cons.1 hq with rfl | hq
      · exact hqt
      · -- an older mark had expired when `p` was set
        have := (List.pairwise_cons.1 hpair).1 q hq
        exact absurd (lt_of_lt_of_le this (le_trans hpt hqt)) (lt_irrefl _)

end

/-! ### The invariant of the store -/

/-- The keys in `K` are nobody else's: the store holds under them what the attempts say. -/
structure DedupInv (K : String → Prop) (w : DedupWorld) : Prop where
  represents : ∃ m, Represents w.now w.store m ∧ ∀ key, K key → m key = lastMark w.attempts key
  recent : ∀ a ∈ w.attempts, a.readings.sweep ≤ w.now
  exclusive : ∀ key, K key → Exclusive key w.attempts

variable {K : String → Prop} {w w' : DedupWorld}

theorem dedupInv_start (t : ℚ) : DedupInv K (.start t) :=
  ⟨⟨_, represents_empty t, fun _ _ => rfl⟩, by simp [DedupWorld.start], fun _ _ => trivial⟩

/-- `mark_if_new` passes exactly when no mark of the key is alive. -/
theorem DedupInv.mark_fst (h : DedupInv K w) {key : String} (hkey : K key) (i : ℕ) (ttl : ℚ) {r : Readings}
    (hr : w.now ≤ r.check) :
    (w.mark i key ttl r).1 = true ↔ ∀ p ∈ marks key w.attempts, p.deadline < r.check := by
  obtain ⟨m, hm, hmk⟩ := h.represents
  have hlive : TtlMap.live m r.check key = TtlMap.live (lastMark w.attempts) r.check key :=
    TtlMap.live_congr (hmk key hkey)
  have hanswer : (w.mark i key ttl r).1 = true ↔ ¬ (TtlMap.live m r.check key).isSome = true := by
    show (MemoryStorage.setIfNotExists w.store key true (some ttl) r).1 = true ↔ _
    rw [(hm.setIfNotExists hr key true (some ttl)).1, TtlMap.putIfAbsent]
    split <;> simp_all
  rw [hanswer, hlive, lastMark_live (h.exclusive key hkey) fun a ha => le_trans (h.recent a ha) hr]
  simp

private theorem DedupInv.mark (h : DedupInv K w) (i : ℕ) (key : String) (ttl : ℚ) {r : Readings}
    (hr : w.now ≤ r.check) : DedupInv K (w.mark i key ttl r).2 := by
  obtain ⟨m, hm, hmk⟩ := h.represents
  obtain ⟨hfst, hrep⟩ := hm.setIfNotExists hr key true (some ttl)
  refine ⟨⟨_, hrep, fun k hk => ?_⟩, ?_, fun k hk => ⟨?_, h.exclusive k hk⟩⟩
  · have hnew : (w.mark i key ttl r).1 = (MemoryStorage.setIfNotExists w.store key true (some ttl) r).1 := rfl
    show _ = lastMark (⟨i, key, ttl, r, (w.mark i key ttl r).1⟩ :: w.attempts) k
    rw [hnew, hfst, TtlMap.putIfAbsent]
    split
    · rw [lastMark_cons_other (by simp)]
      exact hmk k hk
    · by_cases hkey : key = k
      · rw [lastMark_cons_passed rfl hkey, ← hkey]
        exact TtlMap.put_same
      · rw [lastMark_cons_other (by simp [hkey]), ← hmk k hk]
        exact TtlMap.put_other (Ne.symm hkey)
  · intro a ha
    rcases List.mem_cons.1 ha with rfl | ha
    · exact le_refl _
    · exact le_trans (h.recent a ha) (le_trans hr r.check_le_sweep)
  · rintro (rfl : key = k)
    exact h.mark_fst hk i ttl hr

private theorem DedupInv.outside {allowed : StorageOp String Bool → Prop} (h : DedupInv K w)
    (hallowed : ∀ op, allowed op → ∀ key, op.Writes key → ¬ K key) {o : StorageOp String Bool × Readings}
    (hw : w.Outside allowed o w') : DedupInv K w' := by
  obtain ⟨hop, hr, rfl⟩ := hw
  obtain ⟨m, hm, hmk⟩ := h.represents
  refine ⟨⟨_, (exec_represents hm hr o.1).2, fun key hkey => ?_⟩, fun a ha => ?_, h.exclusive⟩
  · rw [refExec_of_not_writes fun hwrites => hallowed _ hop key hwrites hkey, hmk key hkey]
  · exact le_trans (h.recent a ha) (le_trans hr o.2.check_le_sweep)

theorem DedupInv.serve (h : DedupInv K w) {i : ℕ} {call : Call} {r : Readings} (hw : w.Serve i call r w') :
    DedupInv K w' := by
  obtain ⟨req, x⟩ := call
  cases req with
  | markIfNew key ttl =>
    obtain ⟨hr, -, rfl⟩ := hw
    exact h.mark i key ttl hr
  | _ =>
    obtain rfl := hw
    exact h

/-! ### Exclusiveness -/

/-- A delivery that has come to the dedup middleware: `next` is the next link of its chain, and `back` goes on with what
the middleware returns or raises.  The clock is read as `readings` when the delivery is answered. -/
structure Arrival (Other : Type) where
  delivery : ℕ
  tag : FeedArgs ⊕ Other
  next : Handler DispatchResult
  event : ClientEvent
  data : Data
  back : Except Exn (DispatchResult × Data) → Py DispatchResult
  readings : Readings

/-- A step of the deliveries, between the states before and after it. -/
abbrev DeliveryStep (Other : Type) := DeliveryPool Other × DeliveryLabel Other × DeliveryPool Other

namespace Arrival

variable {Other : Type} (m : IdempotencyMiddleware) (a : Arrival Other)

def key : String := m.key a.event (a.data.lookup "subscription_id")

/-- What the delivery is about to run. -/
def program : Py DispatchResult := (m.call a.next a.event a.data).attempt.bind a.back

/-- In front of the step the delivery waits for the middleware. -/
def Waits (s : DeliveryStep Other) : Prop := s.1.tasks[a.delivery]? = some (a.tag, a.program m)

/-- In the step it gets the answer that it waits for. -/
def Answered (s : DeliveryStep Other) : Prop := a.Waits m s ∧ ∃ call, s.2.1 = .serve a.delivery call a.readings

/-- The key is new to the store, and the next link runs. -/
def PassesOn (s : DeliveryStep Other) : Prop :=
  a.Waits m s ∧ s.2.1 = .serve a.delivery ⟨.markIfNew (a.key m) m.ttl, .ok true⟩ a.readings ∧
    s.2.2.tasks[a.delivery]? = some (a.tag, (a.next a.event a.data).attempt.bind a.back)

/-- The store has seen the key, and the middleware returns `DUPLICATE`. -/
def Refused (s : DeliveryStep Other) : Prop :=
  a.Waits m s ∧ s.2.1 = .serve a.delivery ⟨.markIfNew (a.key m) m.ttl, .ok false⟩ a.readings ∧
    s.2.2.tasks[a.delivery]? = some (a.tag, a.back (.ok (⟨.duplicate, a.event, none⟩, a.data)))

/-- No entry of the key is alive in the store. -/
def Fresh (s : DeliveryStep Other) : Prop :=
  TtlMap.live (MemoryStorage.entries s.1.world.store) a.readings.check (a.key m) = none

/-- The mark that the arrival leaves when it passes on. -/
def attempt : Attempt := ⟨a.delivery, a.key m, m.ttl, a.readings, true⟩

end Arrival

section
variable {Other : Type} {others : Other → Py DispatchResult} {dispatcher : Dispatcher}
  {allowed : StorageOp String Bool → Prop} {m : IdempotencyMiddleware} {a a' : Arrival Other}
  {s s' : DeliveryStep Other}

/-- The answer to an arrival: the store is asked to mark the key, and the delivery goes on as it says. -/
private theorem Arrival.Answered.cases (h : a.Answered m s)
    (hstep : Pool.Step (deliveries dispatcher others allowed) s.1 s.2.1 s.2.2) :
    s.1.world.now ≤ a.readings.check ∧
      s.2.2.world = (s.1.world.mark a.delivery (a.key m) m.ttl a.readings).2 ∧
      (((s.1.world.mark a.delivery (a.key m) m.ttl a.readings).1 = true ∧ a.PassesOn m s) ∨
        ((s.1.world.mark a.delivery (a.key m) m.ttl a.readings).1 = false ∧ a.Refused m s)) := by
  obtain ⟨P, l, Q⟩ := s
  obtain ⟨hi, call, hl⟩ := h
  simp only at hl hstep
  subst hl
  have hlt : a.delivery < P.tasks.length := (List.getElem?_eq_some_iff.1 hi).1
  obtain ⟨x, w, rfl, ⟨hr, hx, hw⟩, rfl⟩ := hstep.serve_inv hi
  refine ⟨hr, hw, ?_⟩
  cases hnew : (P.world.mark a.delivery (a.key m) m.ttl a.readings).1 with
  | true =>
    obtain rfl : x = .ok true := hx.trans (congrArg Except.ok hnew)
    exact Or.inl ⟨rfl, hi, rfl, List.getElem?_set_self hlt⟩
  | false =>
    obtain rfl : x = .ok false := hx.trans (congrArg Except.ok hnew)
    exact Or.inr ⟨rfl, hi, rfl, List.getElem?_set_self hlt⟩

private theorem Arrival.PassesOn.answered (h : a.PassesOn m s) : a.Answered m s := ⟨h.1, _, h.2.1⟩

private theorem Arrival.PassesOn.not_refused (h : a.PassesOn m s) : ¬ a.Refused m s := by
  rintro ⟨-, hl, -⟩
  rw [h.2.1] at hl
  cases hl

/-- An arrival that passes on leaves its mark. -/
private theorem Arrival.PassesOn.marked (h : a.PassesOn m s)
    (hstep : Pool.Step (deliveries dispatcher others allowed) s.1 s.2.1 s.2.2) :
    a.attempt m ∈ s.2.2.world.attempts := by
  obtain ⟨-, hw, ⟨hnew, -⟩ | ⟨-, hrefused⟩⟩ := h.answered.cases hstep
  · have hattempts : s.2.2.world.attempts = ⟨a.delivery, a.key m, m.ttl, a.readings, true⟩ :: s.1.world.attempts := by
      rw [hw, ← hnew]
      rfl
    rw [hattempts]
    exact List.mem_cons_self ..
  · exact absurd hrefused h.not_refused

/-- An arrival at a key of which no entry is alive passes on. -/
private theorem Arrival.Answered.passesOn (h : a.Answered m s) (hfresh : a.Fresh m s)
    (hstep : Pool.Step (deliveries dispatcher others allowed) s.1 s.2.1 s.2.2) : a.PassesOn m s := by
  have hnew : (s.1.world.mark a.delivery (a.key m) m.ttl a.readings).1 = true := by
    show (MemoryStorage.setIfNotExists s.1.world.store (a.key m) true (some m.ttl) a.readings).1 = true
    rw [setIfNotExists_eq, hfresh]
    rfl
  obtain ⟨-, -, ⟨-, hpass⟩ | ⟨hold, -⟩⟩ := h.cases hstep
  · exact hpass
  · rw [hnew] at hold
    cases hold

/-- As long as the mark of an arrival is alive, arrivals with the same key are refused. -/
private theorem Arrival.Answered.refused (h : a'.Answered m s') (hinv : DedupInv (fun k => k = a.key m) s'.1.world)
    (hmark : a.attempt m ∈ s'.1.world.attempts) (hkey : a'.key m = a.key m)
    (hlive : a'.readings.check ≤ a.readings.write + m.ttl)
    (hstep : Pool.Step (deliveries dispatcher others allowed) s'.1 s'.2.1 s'.2.2) : a'.Refused m s' := by
  obtain ⟨hr, -, ⟨hnew, -⟩ | ⟨-, hrefused⟩⟩ := h.cases hstep
  · have hexpired : (a.attempt m).deadline < a'.readings.check :=
      (hinv.mark_fst hkey a'.delivery m.ttl hr).1 hnew _ (mem_marks.2 ⟨hmark, rfl, hkey.symm⟩)
    exact absurd hlive (not_le.2 hexpired)
  · exact hrefused

private theorem step_dedupInv {P Q : DeliveryPool Other} {l : DeliveryLabel Other}
    (hallowed : ∀ op, allowed op → ∀ key, op.Writes key → ¬ K key) (hP : DedupInv K P.world)
    (h : Pool.Step (deliveries dispatcher others allowed) P l Q) : DedupInv K Q.world := by
  cases h with
  | start tag => exact hP
  | serve hi hw => exact hP.serve hw
  | outside hw => exact hP.outside hallowed hw

/-- No attempt is forgotten. -/
private theorem step_attempts {P Q : DeliveryPool Other} {l : DeliveryLabel Other}
    (h : Pool.Step (deliveries dispatcher others allowed) P l Q) : P.world.attempts ⊆ Q.world.attempts := by
  cases h with
  | start tag => exact List.Subset.refl _
  | @serve i tag r k x rd w hi hw =>
    cases r with
    | markIfNew key ttl =>
      obtain ⟨-, -, rfl⟩ := hw
      exact List.subset_cons_self ..
    | _ =>
      obtain rfl := hw
      exact List.Subset.refl _
  | outside hw =>
    obtain ⟨-, -, rfl⟩ := hw
    exact List.Subset.refl _

/-- A feed comes to the dedup middleware with its own key, behind links that only relay. -/
private theorem feed_arrives {pre post : List (Middleware DispatchResult)}
    (houter : dispatcher.outer = pre ++ m.call :: post) (hpre : ∀ m' ∈ pre, Relaying m') (event : ClientEvent)
    (ctx : AccountContext) :
    ∃ f : Value → Exn → Exn, dispatcher.feed event ctx =
      (dispatcher.registry.parse event.eventType event.data).bind fun payload =>
        (m.call (chain post dispatcher.walkAndHandle) event
          (Dispatcher.withPayload (Dispatcher.baseData ctx) payload)).attempt.bind
            (Prog.resume (fun a => .ret a.1) fun e => .raise (f payload e)) := by
  choose f hf using fun payload => chain_relaying hpre (m.call (chain post dispatcher.walkAndHandle)) event
    (Dispatcher.withPayload (Dispatcher.baseData ctx) payload)
  refine ⟨f, ?_⟩
  unfold Dispatcher.feed
  rw [houter, chain_append]
  refine congrArg (Prog.bind _) (funext fun payload => ?_)
  have hchain := hf payload
  rw [chain_cons, hchain]
  exact Prog.tryCatch_bind _ _ _

/-! ### Runs of the deliveries -/

section
variable {key : String} {t : ℚ} {path : List (DeliveryLabel Other × DeliveryPool Other)}
  (hrun : Transition.Run (Pool.Step (deliveries dispatcher others fun op => ¬ op.Writes key))
    (DeliveryPool.start Other t) path)
include hrun

private theorem run_dedupInv :
    Transition.Always (fun P => DedupInv (fun k => k = key) P.world) (DeliveryPool.start Other t) path := by
  have hallowed : ∀ op : StorageOp String Bool, ¬ op.Writes key → ∀ k, op.Writes k → ¬ k = key :=
    fun op hop k hk hkey => hop (hkey ▸ hk)
  exact hrun.always (fun _ _ _ hP h => step_dedupInv hallowed hP h) (dedupInv_start t)

private theorem run_attempts : (Transition.steps (DeliveryPool.start Other t) path).Pairwise fun s s' =>
    s.2.2.world.attempts ⊆ s'.1.world.attempts :=
  Transition.Run.steps_rel (R := fun P Q : DeliveryPool Other => P.world.attempts ⊆ Q.world.attempts)
    (fun _ => List.Subset.refl _) (fun _ _ _ _ h hsub => List.Subset.trans (step_attempts h) hsub) hrun

/-- Behind an arrival that passes on, those of its key are refused as long as its mark is alive. -/
private theorem run_refused (m : IdempotencyMiddleware) :
    (Transition.steps (DeliveryPool.start Other t) path).Pairwise fun s s' => ∀ a a' : Arrival Other,
      a.key m = key → a'.key m = key → a.PassesOn m s → a'.Answered m s' →
      a'.readings.check ≤ a.readings.write + m.ttl → a'.Refused m s' := by
  refine (run_attempts hrun).imp_of_mem fun {s s'} hs hs' hsub a a' hkey hkey' hpass hanswered hlive => ?_
  have hinv : DedupInv (fun k => k = a.key m) s'.1.world := hkey ▸ (run_dedupInv hrun).of_mem_steps hs'
  have hmark : a.attempt m ∈ s'.1.world.attempts := hsub (hpass.marked (hrun.of_mem_steps hs))
  exact hanswered.refused hinv hmark (hkey'.trans hkey.symm) hlive (hrun.of_mem_steps hs')

end

/-- In every run of the deliveries an arrival at the dedup middleware that gets its answer either passes on to the next
link or is refused.  Two that pass on with the same key have marked it more than the time to live apart; and of any
number of them that race on a fresh key within the time to live the first one passes on and no other.  It is with their
own key that the feeds of a dispatcher come to the middleware. -/
theorem idempotency_exclusive (dispatcher : Dispatcher) (others : Other → Py DispatchResult)
    (m : IdempotencyMiddleware) {key : String} {t : ℚ} {path : List (DeliveryLabel Other × DeliveryPool Other)}
    (hrun : Transition.Run (Pool.Step (deliveries dispatcher others fun op => ¬ op.Writes key))
      (DeliveryPool.start Other t) path) :
    let steps := Transition.steps (DeliveryPool.start Other t) path
    (∀ s ∈ steps, ∀ a : Arrival Other, a.Answered m s → a.PassesOn m s ∨ a.Refused m s) ∧
    (steps.Pairwise fun s s' => ∀ a a' : Arrival Other, a.key m = key → a'.key m = key → a.PassesOn m s →
      a'.PassesOn m s' → a.readings.write + m.ttl < a'.readings.write) ∧
    (∀ (first : DeliveryStep Other × Arrival Other) (race : List (DeliveryStep Other × Arrival Other)),
      ((first :: race).map Prod.fst).Sublist steps → (∀ x ∈ first :: race, x.2.key m = key ∧ x.2.Answered m x.1) →
      first.2.Fresh m first.1 → (∀ x ∈ race, x.2.readings.check ≤ first.2.readings.write + m.ttl) →
      first.2.PassesOn m first.1 ∧ ∀ x ∈ race, x.2.Refused m x.1) ∧
    ∀ pre post, dispatcher.outer = pre ++ m.call :: post → (∀ m' ∈ pre, Relaying m') → ∀ event ctx,
      (∃ f : Value → Exn → Exn, dispatcher.feed event ctx =
        (dispatcher.registry.parse event.eventType event.data).bind fun payload =>
          (m.call (chain post dispatcher.walkAndHandle) event
            (Dispatcher.withPayload (Dispatcher.baseData ctx) payload)).attempt.bind
              (Prog.resume (fun a => .ret a.1) fun e => .raise (f payload e))) ∧
      ∀ payload, m.key event ((Dispatcher.withPayload (Dispatcher.baseData ctx) payload).lookup "subscription_id") =
        deliveryKey m (event, ctx) := by
  intro steps
  refine ⟨fun s hs a ha => ?_, (run_refused hrun m).imp fun hrefused a a' hkey hkey' hpass hpass' => ?_, ?_, ?_⟩
  · obtain ⟨-, -, ⟨-, hpass⟩ | ⟨-, hrefused⟩⟩ := ha.cases (hrun.of_mem_steps hs)
    · exact Or.inl hpass
    · exact Or.inr hrefused
  · by_contra hnear
    have hlive : a'.readings.check ≤ a.readings.write + m.ttl :=
      le_trans a'.readings.check_le_write (not_lt.1 hnear)
    exact hpass'.not_refused (hrefused a a' hkey hkey' hpass hpass'.answered hlive)
  · intro first race hsub harrive hfresh hlive
    have hfirst : first.1 ∈ steps := hsub.subset (List.mem_cons_self ..)
    obtain ⟨hkey, hanswered⟩ := harrive first (List.mem_cons_self ..)
    have hpass : first.2.PassesOn m first.1 := hanswered.passesOn hfresh (hrun.of_mem_steps hfirst)
    refine ⟨hpass, fun x hx => ?_⟩
    obtain ⟨hkey', hanswered'⟩ := harrive x (List.mem_cons_of_mem _ hx)
    have hrefused := (List.pairwise_cons.1 ((run_refused hrun m).sublist hsub)).1 x.1 (List.mem_map_of_mem hx)
    exact hrefused first.2 x.2 hkey hkey' hpass hanswered' (hlive x hx)
  · intro pre post houter hpre event ctx
    refine ⟨feed_arrives houter hpre event ctx, fun payload => ?_⟩
    rw [lookup_subscriptionId, deliveryKey]

end

def newLotArgs : FeedArgs := (newLot, seller)

/-- The lot in front of the dedup middleware of `greeter`. -/
def greetArrival (f : Exn → Exn) (i : ℕ) (t : ℚ) : Arrival Empty :=
  ⟨i, .inl newLotArgs, greeter.walkAndHandle, newLot, Dispatcher.withPayload (Dispatcher.baseData seller) .none,
    Prog.resume (fun a => .ret a.1) fun e => .raise (f e), .at t⟩

/-- Two deliveries of one event, a second apart: the first passes on, the second is refused. -/
theorem idempotency_exclusive_greet :
    ∃ (path : List (DeliveryLabel Empty × DeliveryPool Empty)) (x y : DeliveryStep Empty × Arrival Empty),
      Transition.Run (Pool.Step (deliveries greeter Empty.elim fun op => ¬ op.Writes "sub-1:1"))
        (DeliveryPool.start Empty 0) path ∧
      [x.1, y.1].Sublist (Transition.steps (DeliveryPool.start Empty 0) path) ∧
      x.2.PassesOn dayLong x.1 ∧ y.2.Refused dayLong y.1 := by
  have law : ∀ (path : List (DeliveryLabel Empty × DeliveryPool Empty)) (x y : DeliveryStep Empty × Arrival Empty),
      Transition.Run (Pool.Step (deliveries greeter Empty.elim fun op => ¬ op.Writes "sub-1:1"))
        (DeliveryPool.start Empty 0) path →
      [x.1, y.1].Sublist (Transition.steps (DeliveryPool.start Empty 0) path) →
      (∀ z ∈ [x, y], z.2.key dayLong = "sub-1:1" ∧ z.2.Answered dayLong z.1) → x.2.Fresh dayLong x.1 →
      y.2.readings.check ≤ x.2.readings.write + dayLong.ttl →
      Transition.Run (Pool.Step (deliveries greeter Empty.elim fun op => ¬ op.Writes "sub-1:1"))
        (DeliveryPool.start Empty 0) path ∧ [x.1, y.1].Sublist (Transition.steps (DeliveryPool.start Empty 0) path) ∧
        x.2.PassesOn dayLong x.1 ∧ y.2.Refused dayLong y.1 := by
    intro path x y hrun hsub harrive hfresh hlive
    obtain ⟨-, -, hrace, -⟩ := idempotency_exclusive greeter Empty.elim dayLong hrun
    have hlive' : ∀ z ∈ [y], z.2.readings.check ≤ x.2.readings.write + dayLong.ttl := by
      rintro z hz
      rwa [List.mem_singleton.1 hz]
    obtain ⟨hpass, hrefused⟩ := hrace x [y] hsub harrive hfresh hlive'
    exact ⟨hrun, hsub, hpass, hrefused y (List.mem_singleton_self y)⟩
  have houter : greeter.outer = [] ++ dayLong.call :: [] := rfl
  obtain ⟨f, hfeed⟩ := feed_arrives houter (by simp) newLot seller
  have hwaits : ∀ i t, some (Sum.inl newLotArgs, greeter.feed newLot seller) =
      some ((greetArrival (f .none) i t).tag, (greetArrival (f .none) i t).program dayLong) :=
    fun i t => congrArg (fun p => some (Sum.inl newLotArgs, p)) hfeed
  have hkey : ∀ i t, (greetArrival (f .none) i t).key dayLong = "sub-1:1" := by
    intro i t
    show dayLong.key newLot ((Dispatcher.withPayload (Dispatcher.baseData seller) .none).lookup "subscription_id") = _
    decide
  have hlive : (Readings.at 2).check ≤ (Readings.at 1).write + dayLong.ttl := by decide +kernel
  refine ⟨_, (_, greetArrival (f .none) 0 1), (_, greetArrival (f .none) 1 2),
    law [(.start (.inl newLotArgs), _), (.start (.inl newLotArgs), _),
      (.serve 0 ⟨.markIfNew "sub-1:1" 86400, .ok true⟩ (.at 1), _),
      (.serve 1 ⟨.markIfNew "sub-1:1" 86400, .ok false⟩ (.at 2), _)] _ _
      ⟨.start _ _, .start _ _, .serve rfl ⟨by decide +kernel, rfl, rfl⟩,
        .serve rfl ⟨by decide +kernel, by decide +kernel, rfl⟩, trivial⟩
      (.cons _ (.cons _ (.cons_cons _ (.cons_cons _ .slnil)))) ?_ rfl hlive⟩
  intro z hz
  rcases List.mem_cons.1 hz with rfl | hz
  · exact ⟨hkey 0 1, hwaits 0 1, _, rfl⟩
  · rcases List.mem_singleton.1 hz with rfl
    exact ⟨hkey 1 2, hwaits 1 2, _, rfl⟩

end EventusSdk
