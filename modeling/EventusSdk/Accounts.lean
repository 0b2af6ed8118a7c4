import EventusSdk.FirstMatch
import EventusSdk.Lib.Follows
import EventusSdk.Lib.History
import EventusSdk.Lib.Noninterference
import EventusSdk.Redelivery

/-!
# Accounts over one dedup store

One dispatcher, one `IdempotencyMiddleware`, the feeds of several accounts one after the other; filters, callbacks and
models answer by what they are asked alone.  Whether the feeds of the account `B` matter to those of `A` is seen by
purging the history of them.

They do not matter as long as no key of a feed for `A` is one of a feed for `B`, or the marks do not live at all; and in
no other case.  The keys made of the subscription and `seq` keep accounts apart; the keys an event brings along, the
`Idempotency-Key` and the event id, need not.
-/

namespace EventusSdk

open Noninterference

/-- A feed, with the clock as its `mark_if_new` reads it. -/
structure Delivery where
  args : FeedArgs
  readings : Readings

namespace Delivery

def isFor (subscriptionId : String) (d : Delivery) : Bool := d.args.2.subscriptionId == subscriptionId

/-- The clock does not go back between the deliveries. -/
def Chronological (history : List Delivery) : Prop :=
  history.Pairwise fun d d' => d.readings.sweep ≤ d'.readings.check

end Delivery

/-- What filters, callbacks and models answer. -/
abbrev Answers := (r : Req) → Except Exn (Resp r)

/-- The dedup store answers `mark_if_new`; whatever else is asked is answered by `ans`. -/
def feedEnv (ans : Answers) (readings : Readings) : Prog.Env Req Resp Exn IdempotencyStore
  | .markIfNew key ttl, store => (.ok (store.markIfNew key (some ttl) readings).1,
      (store.markIfNew key (some ttl) readings).2)
  | r, store => (ans r, store)

/-- A feed in this environment. -/
def Dispatcher.deliver (dispatcher : Dispatcher) (ans : Answers) (store : IdempotencyStore) (d : Delivery) :
    Prog.Outcome Req Resp Exn IdempotencyStore DispatchResult :=
  (dispatcher.feed d.args.1 d.args.2).run (feedEnv ans d.readings) store

/-- The feeds over the store: each puts out its result and the handlers it has called. -/
def Dispatcher.feeds (dispatcher : Dispatcher) (ans : Answers) :
    Machine IdempotencyStore Delivery (Except Exn DispatchResult × List (HandlerCallback × Except Exn Value)) where
  step store d := (dispatcher.deliver ans store d).state
  output store d := ((dispatcher.deliver ans store d).result, callbackCalls (dispatcher.deliver ans store d).trace)

/-- Without the feeds for `B` the feeds for `A` come to the same results and call the same handlers. -/
def Unaffected (dispatcher : Dispatcher) (A B : String) (ans : Answers) (store : IdempotencyStore)
    (history : List Delivery) : Prop :=
  seen (Delivery.isFor A) ((dispatcher.feeds ans).outputs store history) =
    seen (Delivery.isFor A) ((dispatcher.feeds ans).outputs store (purge (Delivery.isFor B) history))

/-- No key of a feed for `A` is one of a feed for `B`. -/
def KeysApart (m : IdempotencyMiddleware) (A B : String) (F : Set FeedArgs) : Prop :=
  ∀ a ∈ F, ∀ b ∈ F, a.2.subscriptionId = A → b.2.subscriptionId = B → deliveryKey m a ≠ deliveryKey m b

/-- Around a handler that leaves the dedup store alone and never answers `DUPLICATE`, so does the middleware. -/
def Indifferent (m : Middleware DispatchResult) : Prop :=
  ∀ handler : Handler DispatchResult,
    (∀ event data, (handler event data).Safe Req.Foreign (fun _ => True) fun a => Dispatcher.Walked a.1) →
    ∀ event data, (m handler event data).Safe Req.Foreign (fun _ => True) fun a => Dispatcher.Walked a.1

/-- Events come to the dedup middleware as they are, and its store is left alone by the rest. -/
structure Deduped (m : IdempotencyMiddleware) (dispatcher : Dispatcher) : Prop where
  outer : ∃ pre post, dispatcher.outer = pre ++ m.call :: post ∧ (∀ m' ∈ pre, Relaying m') ∧ ∀ m' ∈ post, Indifferent m'
  inner : ∀ m' ∈ dispatcher.inner, Within Req.Foreign (fun _ => True) m'

private theorem Relaying.indifferent {m : Middleware DispatchResult} (hm : Relaying m) : Indifferent m := by
  intro handler h event data
  obtain ⟨f, hf⟩ := hm handler event data
  rw [hf]
  exact Prog.safe_tryCatch (h event data) fun _ _ => trivial

/-! ### One delivery -/

section
variable {dispatcher : Dispatcher} {m : IdempotencyMiddleware} {post : List (Middleware DispatchResult)}

/-- What does not concern the dedup store is answered the same in all its states. -/
private theorem feedEnv_foreign (ans : Answers) (readings : Readings) {X : Exn → Prop}
    (hX : ∀ r e, ans r = .error e → X e) (r : Req) (hr : r.Foreign) :
    ∃ x, (∀ store, feedEnv ans readings r store = (x, store)) ∧ ∀ e, x = .error e → X e := by
  cases r with
  | markIfNew key ttl => exact absurd rfl (hr key ttl)
  | _ => exact ⟨ans _, fun _ => rfl, hX _⟩

private theorem chain_indifferent (hpost : ∀ m' ∈ post, Indifferent m') {handler : Handler DispatchResult}
    (h : ∀ event data, (handler event data).Safe Req.Foreign (fun _ => True) fun a => Dispatcher.Walked a.1)
    (event : ClientEvent) (data : Data) :
    (chain post handler event data).Safe Req.Foreign (fun _ => True) fun a => Dispatcher.Walked a.1 := by
  induction post generalizing event data with
  | nil => exact h event data
  | cons m' post ih =>
    exact hpost m' (List.mem_cons_self ..) _ (ih fun m h => hpost m (List.mem_cons_of_mem _ h)) event data

/-- The walk, with the middleware behind the dedup middleware around it. -/
theorem walk_indifferent (hpost : ∀ m' ∈ post, Indifferent m')
    (hinner : ∀ m' ∈ dispatcher.inner, Within Req.Foreign (fun _ => True) m') (event : ClientEvent) (data : Data) :
    (chain post dispatcher.walkAndHandle event data).Safe Req.Foreign (fun _ => True) fun a =>
      Dispatcher.Walked a.1 := by
  have hcallback : ∀ cb kwargs, Req.Foreign (.callback cb kwargs) := by simp [Req.Foreign]
  refine chain_indifferent hpost (fun event data => ?_) event data
  exact Dispatcher.tryRouters_safe (by simp [Req.Foreign])
    (fun cb => chain_safe hinner (Dispatcher.callCallback_safe hcallback cb)) dispatcher.root.walk event data

/-- The mark decides on the delivery, whatever else the store holds: without it the delivery is a duplicate, with it the
walk is entered. -/
def MarkDecides (m : IdempotencyMiddleware) (dispatcher : Dispatcher) (ans : Answers) (d : Delivery) : Prop :=
  ∃ out : Bool → Except Exn DispatchResult × List Call,
    (out false).1 = .ok ⟨.duplicate, d.args.1, none⟩ ∧ (∀ r, (out true).1 = .ok r → Dispatcher.Walked r) ∧
    ∀ store, dispatcher.deliver ans store d =
      ⟨(out (store.markIfNew (deliveryKey m d.args) (some m.ttl) d.readings).1).1,
        (store.markIfNew (deliveryKey m d.args) (some m.ttl) d.readings).2,
        (out (store.markIfNew (deliveryKey m d.args) (some m.ttl) d.readings).1).2⟩

/-- The dedup middleware around a link that runs alike over every store. -/
private theorem call_run {ans : Answers} {readings : Readings} {handler : Handler DispatchResult} {event : ClientEvent}
    {data : Data} {res : Except Exn (DispatchResult × Data)} {t : List Call} {key : String} (f : Exn → Exn)
    (hkey : m.key event (data.lookup "subscription_id") = key)
    (hrun : ∀ store, (handler event data).run (feedEnv ans readings) store = ⟨res, store, t⟩)
    (store : IdempotencyStore) :
    (((m.call handler event data).tryCatch fun e => .raise (f e)).bind fun a => .ret a.1).run (feedEnv ans readings)
        store =
      ⟨if (store.markIfNew key (some m.ttl) readings).1 then (res.mapError f).map Prod.fst
          else .ok ⟨.duplicate, event, none⟩,
        (store.markIfNew key (some m.ttl) readings).2,
        ⟨.markIfNew key m.ttl, .ok (store.markIfNew key (some m.ttl) readings).1⟩ ::
          if (store.markIfNew key (some m.ttl) readings).1 then t else []⟩ := by
  subst hkey
  unfold IdempotencyMiddleware.call
  simp only [ask, Prog.request, Prog.bind_eq, Prog.call_bind, Prog.call_tryCatch, Prog.run_call, feedEnv, Prog.ret_bind]
  cases (store.markIfNew (m.key event (data.lookup "subscription_id")) (some m.ttl) readings).1 with
  | false => rfl
  | true =>
    simp only [↓reduceIte]
    rw [Prog.run_bind_ret _ (Prog.run_tryCatch_raise f (hrun _))]

/-- A delivery fails at its payload, whatever the store holds, or its mark decides. -/
private theorem deliver_cases (hm : Deduped m dispatcher) (ans : Answers) (d : Delivery) :
    (∃ e t, (∃ r, ans r = .error e) ∧ ∀ store, dispatcher.deliver ans store d = ⟨.error e, store, t⟩) ∨
      MarkDecides m dispatcher ans d := by
  obtain ⟨pre, post, houter, hpre, hpost⟩ := hm.outer
  obtain ⟨⟨event, ctx⟩, readings⟩ := d
  have hparse : (dispatcher.registry.parse event.eventType event.data).Safe Req.Foreign
      (fun e => ∃ r, ans r = .error e) fun _ => True :=
    Dispatcher.parse_safe (by simp [Req.Foreign]) dispatcher.registry event.eventType event.data
  obtain ⟨res, t, hrun, herror, -⟩ := hparse.run (feedEnv_foreign ans readings fun r e h => ⟨r, h⟩)
  cases res with
  | error e => exact Or.inl ⟨e, t, herror e rfl, fun store => Prog.run_bind_error (hrun store)⟩
  | ok payload =>
    refine Or.inr ?_
    have hwalk := walk_indifferent hpost hm.inner event (Dispatcher.withPayload (Dispatcher.baseData ctx) payload)
    obtain ⟨res, t', hrun', -, hwalked⟩ := hwalk.run (feedEnv_foreign ans readings fun _ _ _ => trivial)
    have hkey : m.key event ((Dispatcher.withPayload (Dispatcher.baseData ctx) payload).lookup "subscription_id") =
        deliveryKey m (event, ctx) := by
      rw [lookup_subscriptionId, deliveryKey]
    obtain ⟨f, hf⟩ := chain_relaying hpre (m.call (chain post dispatcher.walkAndHandle)) event
      (Dispatcher.withPayload (Dispatcher.baseData ctx) payload)
    refine ⟨fun new => (if new then (res.mapError f).map Prod.fst else .ok ⟨.duplicate, event, none⟩,
      t ++ ⟨.markIfNew (deliveryKey m (event, ctx)) m.ttl, .ok new⟩ :: if new then t' else []), rfl, fun r hr => ?_,
      fun store => ?_⟩
    · cases res with
      | error e => cases hr
      | ok a =>
        obtain rfl := Except.ok.inj hr
        exact hwalked a rfl
    · have hfeed : dispatcher.deliver ans store ⟨(event, ctx), readings⟩ = _ := Prog.run_bind_ok (hrun store)
      rw [hfeed, houter, chain_append, chain_cons, hf]
      exact congrArg (fun o => Prog.Outcome.mk o.result o.state (t ++ o.trace)) (call_run f hkey hrun' store)

end

/-! ### Two runs -/

/-- The mark of a delivery. -/
def Delivery.mark (m : IdempotencyMiddleware) (store : IdempotencyStore) (d : Delivery) : Bool × IdempotencyStore :=
  store.markIfNew (deliveryKey m d.args) (some m.ttl) d.readings

/-- No feed for `B` marks the key, or no mark lives. -/
def Untouched (m : IdempotencyMiddleware) (B : String) (F : Set FeedArgs) (key : String) : Prop :=
  0 ≤ m.ttl → ∀ b ∈ F, b.2.subscriptionId = B → deliveryKey m b ≠ key

/-- The stores of the run with the feeds for `B` and of the one without, in front of the deliveries to come: under the
keys that are untouched they hold the same living marks, from now on. -/
structure Agree (m : IdempotencyMiddleware) (B : String) (F : Set FeedArgs) (history : List Delivery)
    (store store' : IdempotencyStore) : Prop where
  chronological : Delivery.Chronological history
  within : ∀ d ∈ history, d.args ∈ F
  marks : ∃ held held' : TtlMap.Map String Bool ℚ,
    (∀ d ∈ history, Represents d.readings.check store held ∧ Represents d.readings.check store' held') ∧
    ∀ d ∈ history, ∀ key, Untouched m B F key → ∀ t, d.readings.check ≤ t →
      TtlMap.live held t key = TtlMap.live held' t key

section
variable {m : IdempotencyMiddleware} {B : String} {F : Set FeedArgs} {d : Delivery} {history : List Delivery}
  {store store' : IdempotencyStore}

private theorem agree_refl (store : IdempotencyStore) (hc : Delivery.Chronological history)
    (hF : ∀ d ∈ history, d.args ∈ F) : Agree m B F history store store :=
  ⟨hc, hF, store.entries, store.entries, fun _ _ => ⟨fun _ => Or.inl rfl, fun _ => Or.inl rfl⟩,
    fun _ _ _ _ _ _ => rfl⟩

private theorem Agree.tail (h : Agree m B F (d :: history) store store') : Agree m B F history store store' := by
  obtain ⟨held, held', hrep, hlive⟩ := h.marks
  exact ⟨(List.pairwise_cons.1 h.chronological).2, fun d hd => h.within d (List.mem_cons_of_mem _ hd), held, held',
    fun d hd => hrep d (List.mem_cons_of_mem _ hd), fun d hd => hlive d (List.mem_cons_of_mem _ hd)⟩

/-- The mark of a delivery for `B` makes no difference. -/
private theorem Agree.skip (h : Agree m B F (d :: history) store store') (hB : d.args.2.subscriptionId = B) :
    Agree m B F history (d.mark m store).2 store' := by
  obtain ⟨held, held', hrep, hlive⟩ := h.marks
  have hnext := (List.pairwise_cons.1 h.chronological).1
  have hmark := ((hrep d (List.mem_cons_self ..)).1.setIfNotExists le_rfl (deliveryKey m d.args) true (some m.ttl)).2
  refine ⟨h.tail.chronological, h.tail.within, _, held', fun d' hd' => ⟨hmark.mono (hnext d' hd'), ?_⟩,
    fun d' hd' key hkey t ht => ?_⟩
  · exact (hrep d' (List.mem_cons_of_mem _ hd')).2
  · have htime : d.readings.sweep ≤ t := le_trans (hnext d' hd') ht
    rw [TtlMap.live_putIfAbsent (le_trans d.readings.check_le_sweep htime)]
    · exact hlive d' (List.mem_cons_of_mem _ hd') key hkey t ht
    · intro hsame
      by_cases httl : 0 ≤ m.ttl
      · exact absurd hsame.symm (hkey httl d.args (h.within d (List.mem_cons_self ..)) hB)
      · -- the mark expires as soon as it is set
        have hpast : d.readings.write + m.ttl < t :=
          calc d.readings.write + m.ttl < d.readings.write := add_lt_of_neg_right _ (not_le.1 httl)
            _ ≤ d.readings.sweep := d.readings.write_le_sweep
            _ ≤ t := htime
        exact decide_eq_true hpast

/-- A delivery that both runs make is marked in both. -/
private theorem Agree.mark (h : Agree m B F (d :: history) store store') :
    Agree m B F history (d.mark m store).2 (d.mark m store').2 := by
  obtain ⟨held, held', hrep, hlive⟩ := h.marks
  have hnext := (List.pairwise_cons.1 h.chronological).1
  obtain ⟨hrep₁, hrep₂⟩ := hrep d (List.mem_cons_self ..)
  have hmark := (hrep₁.setIfNotExists le_rfl (deliveryKey m d.args) true (some m.ttl)).2
  have hmark' := (hrep₂.setIfNotExists le_rfl (deliveryKey m d.args) true (some m.ttl)).2
  refine ⟨h.tail.chronological, h.tail.within, _, _,
    fun d' hd' => ⟨hmark.mono (hnext d' hd'), hmark'.mono (hnext d' hd')⟩, fun d' hd' key hkey t ht => ?_⟩
  have htime : d.readings.check ≤ t := le_trans d.readings.check_le_sweep (le_trans (hnext d' hd') ht)
  exact TtlMap.live_putIfAbsent_congr htime fun t ht => hlive d (List.mem_cons_self ..) key hkey t ht

/-- Under a key that is untouched, both runs answer alike. -/
private theorem Agree.answer (h : Agree m B F (d :: history) store store')
    (hkey : Untouched m B F (deliveryKey m d.args)) : (d.mark m store).1 = (d.mark m store').1 := by
  obtain ⟨held, held', hrep, hlive⟩ := h.marks
  obtain ⟨hrep₁, hrep₂⟩ := hrep d (List.mem_cons_self ..)
  have hmark := (hrep₁.setIfNotExists le_rfl (deliveryKey m d.args) true (some m.ttl)).1
  have hmark' := (hrep₂.setIfNotExists le_rfl (deliveryKey m d.args) true (some m.ttl)).1
  have hsame := hlive d (List.mem_cons_self ..) _ hkey _ le_rfl
  refine hmark.trans (Eq.trans ?_ hmark'.symm)
  unfold TtlMap.putIfAbsent
  rw [hsame]
  split <;> rfl

end

/-! ### Keys apart -/

section
variable {dispatcher : Dispatcher} {m : IdempotencyMiddleware} {A B : String} {F : Set FeedArgs}

private theorem isFor_iff {id : String} {d : Delivery} : d.isFor id = true ↔ d.args.2.subscriptionId = id := beq_iff_eq

/-- While the keys are apart, the agreement of the stores hides the feeds for `B`. -/
private theorem Deduped.unwinding (hm : Deduped m dispatcher) (hAB : A ≠ B)
    (hapart : 0 ≤ m.ttl → KeysApart m A B F) (ans : Answers) :
    Unwinding (dispatcher.feeds ans) (Delivery.isFor A) (Delivery.isFor B) (Agree m B F) where
  skip := by
    intro d history store store' h hB
    rcases deliver_cases hm ans d with ⟨e, t, -, hrun⟩ | ⟨out, -, -, hrun⟩
    · have hstate : (dispatcher.feeds ans).step store d = store := congrArg Prog.Outcome.state (hrun store)
      rw [hstate]
      exact h.tail
    · have hstate : (dispatcher.feeds ans).step store d = (d.mark m store).2 := congrArg Prog.Outcome.state (hrun store)
      rw [hstate]
      exact h.skip (isFor_iff.1 hB)
  step := by
    intro d history store store' h _
    rcases deliver_cases hm ans d with ⟨e, t, -, hrun⟩ | ⟨out, -, -, hrun⟩
    · have hstate : ∀ s, (dispatcher.feeds ans).step s d = s := fun s => congrArg Prog.Outcome.state (hrun s)
      rw [hstate, hstate]
      exact h.tail
    · have hstate : ∀ s, (dispatcher.feeds ans).step s d = (d.mark m s).2 :=
        fun s => congrArg Prog.Outcome.state (hrun s)
      rw [hstate, hstate]
      exact h.mark
  output := by
    intro d history store store' h hA
    rw [isFor_iff] at hA
    have hkey : Untouched m B F (deliveryKey m d.args) := fun httl b hb hbB =>
      (hapart httl d.args (h.within d (List.mem_cons_self ..)) b hb hA hbB).symm
    refine ⟨by simpa [Delivery.isFor, hA] using hAB, ?_⟩
    rcases deliver_cases hm ans d with ⟨e, t, -, hrun⟩ | ⟨out, -, -, hrun⟩
    · simp only [Dispatcher.feeds, hrun]
    · have hanswer := h.answer hkey
      unfold Delivery.mark at hanswer
      simp only [Dispatcher.feeds, hrun, hanswer]

/-- Everything is answered, and no filter lets an event through. -/
def Answers.quiet : Answers
  | .modelValidate .. | .construct .. | .callback .. | .external .. => .ok .none
  | .filter _ _ data => .ok (.plain false, data)
  | .markIfNew .. => .ok true

private theorem Answers.quiet_ok (r : Req) (e : Exn) : Answers.quiet r ≠ .error e := by
  cases r <;> simp [Answers.quiet]

/-- Over a fresh store a key is marked. -/
private theorem mark_fresh (d : Delivery) : (d.mark m .empty).1 = true := by
  have hempty := represents_empty (K := String) (V := Bool) d.readings.check
  refine (hempty.setIfNotExists le_rfl (deliveryKey m d.args) true (some m.ttl)).1.trans ?_
  rw [TtlMap.putIfAbsent_free (TtlMap.live_of_none rfl)]

/-- As long as the first mark of a key lives, it is not marked again. -/
theorem mark_again {d d' : Delivery} (hkey : deliveryKey m d'.args = deliveryKey m d.args)
    (hnext : d.readings.sweep ≤ d'.readings.check) (hlive : d'.readings.check ≤ d.readings.write + m.ttl) :
    (d'.mark m (d.mark m .empty).2).1 = false := by
  have hempty := represents_empty (K := String) (V := Bool) d.readings.check
  have hfirst : Represents d.readings.sweep (d.mark m .empty).2
      (TtlMap.put (fun _ => none) (deliveryKey m d.args) ⟨true, some (d.readings.write + m.ttl)⟩) :=
    (hempty.setIfNotExists le_rfl (deliveryKey m d.args) true (some m.ttl)).2
  have hunexpired : TtlMap.Entry.expired d'.readings.check ⟨true, some (d.readings.write + m.ttl)⟩ = false :=
    decide_eq_false (not_lt.2 hlive)
  have hheld : TtlMap.live (TtlMap.put (fun _ => none) (deliveryKey m d.args)
      ⟨true, some (d.readings.write + m.ttl)⟩) d'.readings.check (deliveryKey m d.args) = _ :=
    TtlMap.live_of_unexpired TtlMap.put_same hunexpired
  refine (hfirst.setIfNotExists hnext (deliveryKey m d'.args) true (some m.ttl)).1.trans ?_
  rw [hkey, TtlMap.putIfAbsent_taken hheld]

/-- Two feeds of one key, for `B` and then for `A`: the second is refused, and without the first it is not. -/
private theorem Deduped.affected (hm : Deduped m dispatcher) (hAB : A ≠ B) (httl : 0 ≤ m.ttl)
    {a b : FeedArgs} (ha : a.2.subscriptionId = A) (hb : b.2.subscriptionId = B)
    (hkey : deliveryKey m a = deliveryKey m b) :
    ¬ Unaffected dispatcher A B Answers.quiet .empty [⟨b, .at 0⟩, ⟨a, .at 0⟩] := by
  have hdecides : ∀ d, MarkDecides m dispatcher Answers.quiet d := by
    intro d
    rcases deliver_cases hm Answers.quiet d with ⟨e, t, ⟨r, hr⟩, -⟩ | h
    · exact absurd hr (Answers.quiet_ok r e)
    · exact h
  have hvisible : Delivery.isFor A ⟨a, .at 0⟩ = true := isFor_iff.2 ha
  have hhidden : Delivery.isFor B ⟨b, .at 0⟩ = true := isFor_iff.2 hb
  have hother : ¬ Delivery.isFor A ⟨b, .at 0⟩ = true := fun h => hAB ((isFor_iff.1 h).symm.trans hb)
  have hkept : Delivery.isFor B ⟨a, .at 0⟩ = false := by simp [Delivery.isFor, ha, hAB]
  have hstep : (dispatcher.feeds Answers.quiet).step .empty ⟨b, .at 0⟩ = (Delivery.mark m .empty ⟨b, .at 0⟩).2 := by
    obtain ⟨out, -, -, hrun⟩ := hdecides ⟨b, .at 0⟩
    exact congrArg Prog.Outcome.state (hrun .empty)
  have hrefused : (Delivery.mark m (Delivery.mark m .empty ⟨b, .at 0⟩).2 ⟨a, .at 0⟩).1 = false :=
    mark_again hkey le_rfl (by simpa [Readings.at] using httl)
  have hmarked : (Delivery.mark m .empty ⟨a, .at 0⟩).1 = true := mark_fresh _
  have hwith : seen (Delivery.isFor A) ((dispatcher.feeds Answers.quiet).outputs .empty [⟨b, .at 0⟩, ⟨a, .at 0⟩]) =
      [(⟨a, .at 0⟩, (dispatcher.feeds Answers.quiet).output (Delivery.mark m .empty ⟨b, .at 0⟩).2 ⟨a, .at 0⟩)] := by
    rw [Machine.outputs, seen_other hother, hstep, Machine.outputs, seen_visible hvisible]
    rfl
  have hwithout : seen (Delivery.isFor A)
      ((dispatcher.feeds Answers.quiet).outputs .empty (purge (Delivery.isFor B) [⟨b, .at 0⟩, ⟨a, .at 0⟩])) =
      [(⟨a, .at 0⟩, (dispatcher.feeds Answers.quiet).output .empty ⟨a, .at 0⟩)] := by
    rw [purge_hidden hhidden, purge_other hkept, Machine.outputs, seen_visible hvisible]
    rfl
  intro h
  rw [Unaffected, hwith, hwithout] at h
  have hresult := congrArg Prod.fst (Prod.mk.inj (List.cons.inj h).1).2
  obtain ⟨out, hdup, hwalked, hrun⟩ := hdecides ⟨a, .at 0⟩
  unfold Delivery.mark at hrefused hmarked hresult
  simp only [Dispatcher.feeds, hrun, hrefused, hmarked] at hresult
  exact hwalked _ (hresult.symm.trans hdup) rfl

/-- Whatever the deliveries, the store and the answers are, the feeds for `B` do not matter to those for `A`, if and
only if the keys are apart or the marks do not live. -/
theorem accounts_unaffected_iff (hm : Deduped m dispatcher) (hAB : A ≠ B) :
    (∀ ans store history, Delivery.Chronological history → (∀ d ∈ history, d.args ∈ F) →
      Unaffected dispatcher A B ans store history) ↔ (0 ≤ m.ttl → KeysApart m A B F) := by
  constructor
  · intro h httl a ha b hb hA hB hkey
    refine hm.affected hAB httl hA hB hkey (h Answers.quiet .empty _ ?_ ?_)
    · simp [Delivery.Chronological, Readings.at]
    · intro d hd
      rcases List.mem_cons.1 hd with rfl | hd
      · exact hb
      · rwa [List.mem_singleton.1 hd]
  · intro hapart ans store history hc hF
    exact (hm.unwinding hAB hapart ans).seen_eq (agree_refl store hc hF)

/-! ### Events without a key of their own -/

/-- The event brings no key along, as those of a stream do not. -/
def Keyless (event : ClientEvent) : Prop :=
  event.idempotencyKey.filter (· ≠ "") = none ∧ event.eventId.filter (· ≠ "") = none

private theorem deliveryKey_keyless {args : FeedArgs} (h : Keyless args.1) :
    deliveryKey m args = args.2.subscriptionId ++ ":" ++ toString args.1.seq := by
  rw [deliveryKey, IdempotencyMiddleware.key, h.1, h.2]
  rfl

/-- The key made of the subscription and `seq` tells the subscription: its last colon stands behind it. -/
private theorem subscriptionId_of_keyless {a b : FeedArgs} (ha : Keyless a.1) (hb : Keyless b.1)
    (hkey : deliveryKey m a = deliveryKey m b) : a.2.subscriptionId = b.2.subscriptionId := by
  have hcolon : ∀ n : Int, ':' ∉ (toString n).toList.reverse := by
    intro n h
    rcases toString_digits (List.mem_reverse.1 h) with h | h <;> cases h
  have hlists := congrArg (fun s => s.toList.reverse) hkey
  simp only [deliveryKey_keyless ha, deliveryKey_keyless hb, String.toList_append, List.reverse_append] at hlists
  have hsplit := (History.first_split hlists (hcolon _) (hcolon _)).2
  exact String.toList_inj.1 (List.reverse_injective hsplit)

/-- Accounts that are fed events without keys are unaffected by each other. -/
theorem unaffected_keyless (hm : Deduped m dispatcher) (hAB : A ≠ B) (ans : Answers)
    (store : IdempotencyStore) {history : List Delivery} (hc : Delivery.Chronological history)
    (hkeyless : ∀ d ∈ history, Keyless d.args.1) : Unaffected dispatcher A B ans store history := by
  have hapart : KeysApart m A B {args | Keyless args.1} := by
    intro a ha b hb hA hB hkey
    exact hAB (hA.symm.trans ((subscriptionId_of_keyless ha hb hkey).trans hB))
  exact (hm.unwinding hAB (fun _ => hapart) ans).seen_eq (agree_refl store hc hkeyless)

end

/-! The lot `newLot` for two accounts. -/

def buyer : AccountContext := { client := ⟨1⟩, subscriptionId := "sub-2", label := "buyer" }

/-- The lot with an event id, the same for whoever has subscribed to it. -/
def sharedLot : ClientEvent := { newLot with eventId := some "lot-1" }

/-- The dedup middleware among the other middleware of the library. -/
private theorem deduped_of_library {m : IdempotencyMiddleware} {dispatcher : Dispatcher}
    {pre post : List (Middleware DispatchResult)} (houter : dispatcher.outer = pre ++ m.call :: post)
    (hlibrary : ∀ m' ∈ pre ++ post, m' = logging ∨ m' = errorBoundary) (hinner : dispatcher.inner = []) :
    Deduped m dispatcher := by
  have hrelaying : ∀ m' ∈ pre ++ post, Relaying m' := by
    intro m' hm'
    rcases hlibrary m' hm' with rfl | rfl
    · exact logging_relaying
    · exact errorBoundary_relaying
  refine ⟨⟨pre, post, houter, fun m' h => hrelaying m' (List.mem_append_left _ h), fun m' h => ?_⟩, by simp [hinner]⟩
  exact (hrelaying m' (List.mem_append_right _ h)).indifferent

theorem deduped_greeter : Deduped dayLong greeter :=
  deduped_of_library (List.nil_append _).symm (fun _ h => absurd h List.not_mem_nil) rfl

theorem accounts_unaffected_greet :
    Unaffected greeter "sub-1" "sub-2" Answers.quiet .empty [⟨(newLot, buyer), .at 0⟩, ⟨(newLot, seller), .at 0⟩] := by
  refine (accounts_unaffected_iff (F := {args | Keyless args.1}) deduped_greeter (by decide)).2
    (fun _ a ha b hb hA hB hkey => ?_) _ _ _ ?_ ?_
  · have hsame := subscriptionId_of_keyless ha hb hkey
    rw [hA, hB] at hsame
    exact absurd hsame (by decide)
  · simp [Delivery.Chronological, Readings.at]
  · simp [Keyless, newLot]

/-- The event id is the key of both, and the second account does not get its lot. -/
theorem accounts_affected :
    Delivery.Chronological [⟨(sharedLot, buyer), .at 0⟩, ⟨(sharedLot, seller), .at 0⟩] ∧
      ¬ Unaffected greeter "sub-1" "sub-2" Answers.quiet .empty
        [⟨(sharedLot, buyer), .at 0⟩, ⟨(sharedLot, seller), .at 0⟩] :=
  ⟨by simp [Delivery.Chronological, Readings.at],
    deduped_greeter.affected (by decide) (by decide) rfl rfl rfl⟩

end EventusSdk
