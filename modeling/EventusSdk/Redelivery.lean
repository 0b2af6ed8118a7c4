import EventusSdk.Dedup

/-!
# Dedup and redelivery

A dispatcher whose only outer middleware is the `IdempotencyMiddleware`, any number of overlapping feeds, a fresh
store.  A feed that is answered `DUPLICATE` tells its transport that the event is dealt with.  The mark of a key is set
before the event is handled and stays when the handling fails, so this is true exactly as long as no event is delivered
again, within the time to live of its mark, while nothing but failed and unfinished deliveries of it is there.
-/

namespace EventusSdk

/-- The delivery has finished, and its event is dealt with. -/
def Succeeded (p : Py DispatchResult) : Prop := ∃ r, p = .ret r ∧ (r.outcome = .handled ∨ r.outcome = .skipped)

/-- The delivery is still running, was left by an exception, or ended `ERRORED`. -/
def RunningOrFailed (p : Py DispatchResult) : Prop :=
  (∃ r k, p = .call r k) ∨ (∃ e, p = .raise e) ∨ ∃ r, p = .ret r ∧ r.outcome = .errored

/-- Feeds of the dispatcher alone, over a store nobody else uses. -/
abbrev feedsOnly (dispatcher : Dispatcher) := deliveries dispatcher Empty.elim fun _ => False

section
variable (m : IdempotencyMiddleware) (P : DeliveryPool Empty)

def SucceededFor (key : String) : Prop :=
  ∃ (i : ℕ) (args : FeedArgs) (p : Py DispatchResult),
    P.tasks[i]? = some (.inl args, p) ∧ deliveryKey m args = key ∧ Succeeded p

/-- A feed that was answered `DUPLICATE` has an earlier one of the same key that succeeded. -/
def DuplicatesDealtWith : Prop :=
  ∀ (i : ℕ) (args : FeedArgs) (r : DispatchResult), P.tasks[i]? = some (.inl args, .ret r) →
    r.outcome = .duplicate → SucceededFor m P (deliveryKey m args)

/-- At the reading `t` a mark of the key is alive whose delivery is running or has failed, and none has succeeded.  A
mark that an inner middleware has set for a delivery of another key counts as well. -/
def Premature (key : String) (t : ℚ) : Prop :=
  (∃ a ∈ marks key P.world.attempts, t ≤ a.deadline ∧
    ∃ args p, P.tasks[a.delivery]? = some (.inl args, p) ∧ (RunningOrFailed p ∨ deliveryKey m args ≠ key)) ∧
  ¬ SucceededFor m P key

/-- The step is not the arrival of a premature redelivery at the middleware, which asks before any inner one does. -/
def NotPremature : DeliveryLabel Empty → Prop
  | .serve i ⟨.markIfNew key _, _⟩ r => (∀ a ∈ P.world.attempts, a.delivery ≠ i) → ¬ Premature m P key r.check
  | _ => True

end

/-! ### The course of one feed -/

/-- A request that does not concern the dedup store. -/
def Req.Foreign (r : Req) : Prop := ∀ key ttl, r ≠ .markIfNew key ttl

/-- How a feed goes on from the answer of `mark_if_new`. -/
def Answered (event : ClientEvent) : Except Exn Bool → Py DispatchResult → Prop
  | .ok true, p => p.Safe (fun _ => True) (fun _ => True) Dispatcher.Walked
  | .ok false, p => p = .ret ⟨.duplicate, event, none⟩
  | .error e, p => p = .raise e

section
variable {dispatcher : Dispatcher} {m : IdempotencyMiddleware}

/-- A feed is at the gate when its outer chain is: parsing the payload does not concern the dedup store. -/
theorem feed_gate_of_chain {r₀ : Req} {K : Except Exn (Resp r₀) → Py DispatchResult → Prop} {event : ClientEvent}
    {ctx : AccountContext}
    (hchain : ∀ data : Data, data.lookup "subscription_id" = some (.str ctx.subscriptionId) →
      ((chain dispatcher.outer dispatcher.walkAndHandle event data).bind fun a => .ret a.1).Gate Req.Foreign r₀ K) :
    (dispatcher.feed event ctx).Gate Req.Foreign r₀ K := by
  have hparse := Dispatcher.parse_safe (A := Req.Foreign) (X := fun _ => True) (by simp [Req.Foreign])
    dispatcher.registry event.eventType event.data
  exact .bind_left hparse fun payload _ => hchain _ (lookup_subscriptionId ctx payload)

/-- A feed asks `mark_if_new` for its key before any handler is looked for. -/
private theorem feed_gate (houter : dispatcher.outer = [m.call]) (event : ClientEvent) (ctx : AccountContext) :
    (dispatcher.feed event ctx).Gate Req.Foreign (.markIfNew (deliveryKey m (event, ctx)) m.ttl) (Answered event) := by
  have hwalk : ∀ data, (dispatcher.walkAndHandle event data).Safe (fun _ => True) (fun _ => True) fun a =>
      Dispatcher.Walked a.1 :=
    Dispatcher.tryRouters_safe (fun _ _ _ => trivial) (fun _ _ _ => Prog.safe_true _) _ event
  refine feed_gate_of_chain fun data hdata => ?_
  rw [houter, deliveryKey, ← hdata]
  refine .gate fun x => ?_
  rcases x with e | new
  · rfl
  · cases new with
    | false => rfl
    | true => exact Prog.safe_bind (hwalk _) fun a ha => ha

/-- Where a feed stands: before the mark, after it, or refused. -/
inductive Progress (m : IdempotencyMiddleware) (w : DedupWorld) (i : ℕ) :
    FeedArgs ⊕ Empty → Py DispatchResult → Prop where
  | waiting {args : FeedArgs} {p : Py DispatchResult}
      (hgate : p.Gate Req.Foreign (.markIfNew (deliveryKey m args) m.ttl) (Answered args.1))
      (hattempts : ∀ a ∈ w.attempts, a.delivery ≠ i) : Progress m w i (.inl args) p
  | passed {args : FeedArgs} {p : Py DispatchResult}
      (hsafe : p.Safe (fun _ => True) (fun _ => True) Dispatcher.Walked)
      (hattempts : ∃ a ∈ w.attempts, a.delivery = i) : Progress m w i (.inl args) p
  | refused {args : FeedArgs} {r : DispatchResult} (hr : r.outcome = .duplicate)
      (hattempts : ∀ a ∈ w.attempts, a.delivery = i → a.passed = false) : Progress m w i (.inl args) (.ret r)

/-- The attempts of other feeds do not matter. -/
private theorem Progress.of_attempts {w w' : DedupWorld} {i : ℕ} {tag : FeedArgs ⊕ Empty} {p : Py DispatchResult}
    (h : Progress m w i tag p) (hkeep : w.attempts ⊆ w'.attempts)
    (hw : ∀ a ∈ w'.attempts, a ∈ w.attempts ∨ a.delivery ≠ i) : Progress m w' i tag p := by
  cases h with
  | waiting hgate ha => exact .waiting hgate fun a h => (hw a h).elim (ha a) id
  | passed hsafe ha =>
    obtain ⟨a, h, hi⟩ := ha
    exact .passed hsafe ⟨a, hkeep h, hi⟩
  | refused hr ha => exact .refused hr fun a h hi => (hw a h).elim (fun h => ha a h hi) fun h => absurd hi h

/-- The first time a feed asks `mark_if_new`, it is for its own key; later ones come after the mark. -/
private theorem Progress.mark_inv {w : DedupWorld} {i : ℕ} {args : FeedArgs} {key : String} {ttl : ℚ}
    {k : Except Exn Bool → Py DispatchResult} (h : Progress m w i (.inl args) (.call (.markIfNew key ttl) k)) :
    ((∀ a ∈ w.attempts, a.delivery ≠ i) ∧ key = deliveryKey m args ∧ ∀ x, Answered args.1 x (k x)) ∨
      ((∃ a ∈ w.attempts, a.delivery = i) ∧ ∀ x, (k x).Safe (fun _ => True) (fun _ => True) Dispatcher.Walked) := by
  cases h with
  | waiting hgate ha =>
    refine Or.inl ⟨ha, ?_⟩
    by_cases hreq : Req.markIfNew key ttl = .markIfNew (deliveryKey m args) m.ttl
    · cases hreq
      exact ⟨rfl, fun x => hgate.gate_inv (by simp [Req.Foreign]) x⟩
    · cases hgate with
      | other hA _ => exact absurd rfl (hA key ttl)
      | gate _ => exact absurd rfl hreq
  | passed hsafe ha => exact Or.inr ⟨ha, fun x => hsafe.2 x fun _ _ => trivial⟩

/-- One request of a feed answered. -/
private theorem Progress.serve {w w' : DedupWorld} {i : ℕ} {tag : FeedArgs ⊕ Empty} {r : Req}
    {k : Except Exn (Resp r) → Py DispatchResult} {x : Except Exn (Resp r)} {rd : Readings}
    (h : Progress m w i tag (.call r k)) (hw : w.Serve i ⟨r, x⟩ rd w') : Progress m w' i tag (k x) := by
  cases r with
  | markIfNew key ttl =>
    obtain ⟨-, rfl, rfl⟩ := hw
    cases tag with
    | inr other => exact other.elim
    | inl args =>
      have hmade : ∃ a ∈ (w.mark i key ttl rd).2.attempts, a.delivery = i := ⟨_, List.mem_cons_self .., rfl⟩
      rcases h.mark_inv with ⟨ha, -, hk⟩ | ⟨-, hk⟩
      · have hnew := hk (.ok (w.mark i key ttl rd).1)
        cases hpassed : (w.mark i key ttl rd).1 with
        | true =>
          rw [hpassed] at hnew
          exact .passed hnew hmade
        | false =>
          rw [hpassed] at hnew
          have hret : k (.ok false) = .ret ⟨.duplicate, args.1, none⟩ := hnew
          rw [hret]
          refine .refused rfl fun a h hi => ?_
          rcases List.mem_cons.1 h with rfl | h
          · exact hpassed
          · exact absurd hi (ha a h)
      · exact .passed (hk _) hmade
  | _ =>
    obtain rfl := hw
    cases h with
    | waiting hgate ha => exact .waiting (hgate.other_inv (by simp) x) ha
    | passed hsafe ha => exact .passed (hsafe.2 x fun _ _ => trivial) ha

/-- The store holds what the attempts say, and every feed is in its course. -/
def RedeliveryInv (m : IdempotencyMiddleware) (P : DeliveryPool Empty) : Prop :=
  P.Holds (fun w n => DedupInv (fun _ => True) w ∧ ∀ a ∈ w.attempts, a.delivery < n) (Progress m)

private theorem step_redeliveryInv (houter : dispatcher.outer = [m.call]) {P Q : DeliveryPool Empty}
    {l : DeliveryLabel Empty}
    (hP : RedeliveryInv m P) (h : Pool.Step (feedsOnly dispatcher) P l Q) : RedeliveryInv m Q := by
  refine h.holds ?_ ?_ ?_ hP
  · rintro w n (⟨event, ctx⟩ | other) ⟨hinv, hlt⟩
    · refine ⟨⟨hinv, fun a ha => Nat.lt_succ_of_lt (hlt a ha)⟩, ?_⟩
      exact .waiting (feed_gate houter event ctx) fun a ha => Nat.ne_of_lt (hlt a ha)
    · exact other.elim
  · rintro w n i tag r k x rd w' ⟨hinv, hlt⟩ hi hJ hw
    have hattempts : w.attempts ⊆ w'.attempts ∧ ∀ a ∈ w'.attempts, a ∈ w.attempts ∨ a.delivery = i := by
      cases r with
      | markIfNew key ttl =>
        obtain ⟨-, -, rfl⟩ := hw
        refine ⟨List.subset_cons_self .., fun a ha => ?_⟩
        rcases List.mem_cons.1 ha with rfl | ha
        · exact Or.inr rfl
        · exact Or.inl ha
      | _ =>
        obtain rfl := hw
        exact ⟨List.Subset.refl _, fun a ha => Or.inl ha⟩
    refine ⟨⟨hinv.serve hw, fun a ha => ?_⟩, hJ.serve hw, fun j u p hji hu => ?_⟩
    · rcases hattempts.2 a ha with ha | rfl
      · exact hlt a ha
      · exact hi
    · refine hu.of_attempts hattempts.1 fun a ha => (hattempts.2 a ha).imp_right fun h => ?_
      rw [h]
      exact Ne.symm hji
  · rintro w n o w' - ⟨hop, -⟩
    exact hop.elim

/-! ### Which duplicates are dealt with -/

/-- The delivery that set a mark is running, has failed or has succeeded. -/
private theorem mark_delivery {P : DeliveryPool Empty} {a : Attempt} {key : String} (hP : RedeliveryInv m P)
    (ha : a ∈ marks key P.world.attempts) :
    ∃ args p, P.tasks[a.delivery]? = some (.inl args, p) ∧ (RunningOrFailed p ∨ Succeeded p) := by
  obtain ⟨hmem, hpassed, rfl⟩ := mem_marks.1 ha
  obtain ⟨⟨-, hlt⟩, hJ⟩ := hP
  obtain ⟨⟨tag, p⟩, hp⟩ : ∃ x, P.tasks[a.delivery]? = some x := ⟨_, List.getElem?_eq_getElem (hlt a hmem)⟩
  cases hJ _ _ _ hp with
  | waiting hgate h => exact absurd rfl (h a hmem)
  | refused hr h => rw [h a hmem rfl] at hpassed; cases hpassed
  | @passed args p hsafe h =>
    refine ⟨args, p, hp, ?_⟩
    cases p with
    | call r k => exact Or.inl (Or.inl ⟨r, k, rfl⟩)
    | raise e => exact Or.inl (Or.inr (Or.inl ⟨e, rfl⟩))
    | ret r =>
      cases hr : r.outcome with
      | handled => exact Or.inr ⟨r, rfl, Or.inl hr⟩
      | skipped => exact Or.inr ⟨r, rfl, Or.inr hr⟩
      | errored => exact Or.inl (Or.inr (Or.inr ⟨r, rfl, hr⟩))
      | duplicate => exact absurd hr hsafe

private theorem SucceededFor.step {P Q : DeliveryPool Empty} {l : DeliveryLabel Empty} {key : String}
    (h : Pool.Step (feedsOnly dispatcher) P l Q) (hP : SucceededFor m P key) : SucceededFor m Q key := by
  obtain ⟨i, args, p, hi, hkey, r, rfl, hr⟩ := hP
  exact ⟨i, args, _, h.returned hi, hkey, r, rfl, hr⟩

/-- Before a request of a feed is answered, that feed is not one that succeeded. -/
private theorem succeededFor_serve {P : DeliveryPool Empty} {w : DedupWorld} {i : ℕ} {tag : FeedArgs ⊕ Empty} {r : Req}
    {k : Except Exn (Resp r) → Py DispatchResult} {p : Py DispatchResult} {key : String}
    (hi : P.tasks[i]? = some (tag, .call r k)) (hp : ¬ Succeeded p) :
    SucceededFor m ⟨w, P.tasks.set i (tag, p)⟩ key → SucceededFor m P key := by
  rintro ⟨j, args, q, hj, hkey, hq⟩
  by_cases hji : j = i
  · subst hji
    rw [List.getElem?_set_self (List.getElem?_eq_some_iff.1 hi).1] at hj
    cases hj
    exact absurd hq hp
  · rw [List.getElem?_set_ne (Ne.symm hji)] at hj
    exact ⟨j, args, q, hj, hkey, hq⟩

/-- No other request leads to `DUPLICATE`. -/
private theorem Progress.not_duplicate {w : DedupWorld} {i : ℕ} {tag : FeedArgs ⊕ Empty} {r : Req}
    {k : Except Exn (Resp r) → Py DispatchResult} {x : Except Exn (Resp r)} {result : DispatchResult}
    (h : Progress m w i tag (.call r k)) (hr : r.Foreign) (hret : k x = .ret result) :
    result.outcome ≠ .duplicate := by
  cases h with
  | waiting hgate ha =>
    have := hgate.other_inv (fun h => hr _ _ h) x
    rw [hret] at this
    cases this
  | passed hsafe ha =>
    have := hsafe.2 x fun _ _ => trivial
    rw [hret] at this
    exact this

/-- A step after which no further feed stands at `DUPLICATE` keeps the duplicates dealt with. -/
private theorem DuplicatesDealtWith.step {P Q : DeliveryPool Empty} {l : DeliveryLabel Empty}
    (hD : DuplicatesDealtWith m P) (h : Pool.Step (feedsOnly dispatcher) P l Q)
    (hnew : ∀ (i : ℕ) (args : FeedArgs) (r : DispatchResult), Q.tasks[i]? = some (.inl args, .ret r) →
      r.outcome = .duplicate → P.tasks[i]? = some (.inl args, .ret r)) : DuplicatesDealtWith m Q :=
  fun i args r hi hr => (hD i args r (hnew i args r hi hr) hr).step h

/-- Serving a request keeps the duplicates dealt with if a `DUPLICATE` it leads to has an earlier success. -/
private theorem DuplicatesDealtWith.serve {P : DeliveryPool Empty} {w : DedupWorld} {i : ℕ} {tag : FeedArgs ⊕ Empty}
    {p : Py DispatchResult} {l : DeliveryLabel Empty} (hD : DuplicatesDealtWith m P)
    (hstep : Pool.Step (feedsOnly dispatcher) P l ⟨w, P.tasks.set i (tag, p)⟩)
    (hnew : ∀ args result, tag = .inl args → p = .ret result → result.outcome = .duplicate →
      SucceededFor m P (deliveryKey m args)) : DuplicatesDealtWith m ⟨w, P.tasks.set i (tag, p)⟩ := by
  intro j args result hj hresult
  rw [List.getElem?_set] at hj
  split at hj
  · split at hj
    · cases hj
      exact (hnew args result rfl rfl hresult).step hstep
    · cases hj
  · exact (hD j args result hj hresult).step hstep

/-- While a mark of the key is alive and nothing is premature, a delivery of the key has succeeded. -/
private theorem succeededFor_of_not_premature {P : DeliveryPool Empty} {key : String} {t : ℚ} (hP : RedeliveryInv m P)
    (hlive : ∃ a ∈ marks key P.world.attempts, t ≤ a.deadline) (hnp : ¬ Premature m P key t) :
    SucceededFor m P key := by
  by_contra hnone
  obtain ⟨a, ha, hat⟩ := hlive
  obtain ⟨args, p, hp, hcourse⟩ := mark_delivery hP ha
  refine hnp ⟨⟨a, ha, hat, args, p, hp, ?_⟩, hnone⟩
  rcases hcourse with hrunning | hsucceeded
  · exact Or.inl hrunning
  · exact Or.inr fun hkey => hnone ⟨_, args, p, hp, hkey, hsucceeded⟩

/-- The answer to the first `mark_if_new` of a feed keeps the duplicates dealt with exactly when the feed is not a
premature redelivery. -/
private theorem mark_duplicates_iff {P : DeliveryPool Empty} {i : ℕ} {args : FeedArgs} {ttl : ℚ} {rd : Readings}
    {k : Except Exn Bool → Py DispatchResult} {x : Bool} {w : DedupWorld} {l : DeliveryLabel Empty}
    (hP : RedeliveryInv m P) (hD : DuplicatesDealtWith m P) (hr : P.world.now ≤ rd.check)
    (hi : P.tasks[i]? = some (.inl args, .call (.markIfNew (deliveryKey m args) ttl) k))
    (hx : (P.world.mark i (deliveryKey m args) ttl rd).1 = x) (hk : Answered args.1 (.ok x) (k (.ok x)))
    (hstep : Pool.Step (feedsOnly dispatcher) P l ⟨w, P.tasks.set i (.inl args, k (.ok x))⟩) :
    DuplicatesDealtWith m ⟨w, P.tasks.set i (.inl args, k (.ok x))⟩ ↔
      ¬ Premature m P (deliveryKey m args) rd.check := by
  have hmark : (P.world.mark i (deliveryKey m args) ttl rd).1 = true ↔
      ∀ p ∈ marks (deliveryKey m args) P.world.attempts, p.deadline < rd.check := hP.1.1.mark_fst trivial i ttl hr
  cases x with
  | true =>
    have hwalked : (k (.ok true)).Safe (fun _ => True) (fun _ => True) Dispatcher.Walked := hk
    refine iff_of_true (hD.serve hstep fun _ result _ hret hdup => ?_) ?_
    · rw [hret] at hwalked
      exact absurd hdup hwalked
    · rintro ⟨⟨a, ha, hlive, -⟩, -⟩
      exact absurd (hmark.1 hx a ha) (not_lt.2 hlive)
  | false =>
    have hret : k (.ok false) = .ret ⟨.duplicate, args.1, none⟩ := hk
    constructor
    · rintro hD' ⟨-, hnone⟩
      have hi' : (P.tasks.set i (.inl args, k (.ok false)))[i]? =
          some (.inl args, .ret ⟨.duplicate, args.1, none⟩) := by
        rw [List.getElem?_set_self (List.getElem?_eq_some_iff.1 hi).1, hret]
      have hnot : ¬ Succeeded (k (.ok false)) := by simp [Succeeded, hret]
      exact hnone (succeededFor_serve hi hnot (hD' i args _ hi' rfl))
    · intro hnp
      have hlive : ∃ a ∈ marks (deliveryKey m args) P.world.attempts, rd.check ≤ a.deadline := by
        by_contra hnone
        push Not at hnone
        rw [hmark.2 hnone] at hx
        cases hx
      have hsucceeded := succeededFor_of_not_premature hP hlive hnp
      refine hD.serve hstep fun args' _ htag _ _ => ?_
      cases htag
      exact hsucceeded

/-- Serving a request keeps the duplicates dealt with exactly when it is not a premature redelivery. -/
private theorem serve_duplicates_iff {P : DeliveryPool Empty} {w : DedupWorld} {i : ℕ} {tag : FeedArgs ⊕ Empty}
    {r : Req} {k : Except Exn (Resp r) → Py DispatchResult} {x : Except Exn (Resp r)} {rd : Readings}
    (dispatcher : Dispatcher) (hP : RedeliveryInv m P) (hD : DuplicatesDealtWith m P)
    (hi : P.tasks[i]? = some (tag, .call r k)) (hw : P.world.Serve i ⟨r, x⟩ rd w) :
    DuplicatesDealtWith m ⟨w, P.tasks.set i (tag, k x)⟩ ↔ NotPremature m P (.serve i ⟨r, x⟩ rd) := by
  have hstep : Pool.Step (feedsOnly dispatcher) P (.serve i ⟨r, x⟩ rd) ⟨w, P.tasks.set i (tag, k x)⟩ := .serve hi hw
  have hprog := hP.2 _ _ _ hi
  cases r with
  | markIfNew key ttl =>
    obtain ⟨hr, rfl, rfl⟩ := hw
    cases tag with
    | inr other => exact other.elim
    | inl args =>
      rcases hprog.mark_inv with ⟨hfirst, rfl, hk⟩ | ⟨⟨a, ha, hai⟩, hk⟩
      · rw [mark_duplicates_iff hP hD hr hi rfl (hk _) hstep]
        exact ⟨fun h _ => h, fun h => h hfirst⟩
      · -- an inner middleware asks, after the mark
        have hwalked := hk (.ok (P.world.mark i key ttl rd).1)
        refine iff_of_true (hD.serve hstep fun _ result _ hret hdup => ?_) fun hfirst => absurd hai (hfirst a ha)
        rw [hret] at hwalked
        exact absurd hdup hwalked
  | _ =>
    refine iff_of_true (hD.serve hstep fun args result htag hret hdup => ?_) trivial
    exact absurd hdup (hprog.not_duplicate (by simp [Req.Foreign]) hret)

private theorem step_duplicates_iff (houter : dispatcher.outer = [m.call]) {P Q : DeliveryPool Empty}
    {l : DeliveryLabel Empty}
    (hP : RedeliveryInv m P) (hD : DuplicatesDealtWith m P) (h : Pool.Step (feedsOnly dispatcher) P l Q) :
    DuplicatesDealtWith m Q ↔ NotPremature m P l := by
  have hstep := h
  cases h with
  | start tag =>
    refine iff_of_true (hD.step hstep fun i args r hi hr => ?_) trivial
    rw [List.getElem?_append] at hi
    split at hi
    · exact hi
    · -- the feed that was started has not returned
      obtain ⟨htag, hret⟩ : tag = .inl args ∧ (feedsOnly dispatcher).program tag = .ret r := by
        have := List.mem_of_getElem? hi
        simpa [eq_comm] using this
      subst htag
      have hgate := feed_gate houter args.1 args.2
      rw [show dispatcher.feed args.1 args.2 = .ret r from hret] at hgate
      cases hgate
  | serve hi hw => exact serve_duplicates_iff dispatcher hP hD hi hw
  | outside hw => exact hw.1.elim

/-- In a run of overlapping feeds every `DUPLICATE` has an earlier success if and only if no event is delivered again
while a mark of its key is alive whose delivery is running or has failed, before any delivery of it has succeeded. -/
theorem duplicates_dealtWith_iff (houter : dispatcher.outer = [m.call]) {t : ℚ}
    {path : List (DeliveryLabel Empty × DeliveryPool Empty)}
    (hrun : Transition.Run (Pool.Step (feedsOnly dispatcher)) (DeliveryPool.start Empty t) path) :
    Transition.Always (DuplicatesDealtWith m) (DeliveryPool.start Empty t) path ↔
      Transition.Meets (NotPremature m) (DeliveryPool.start Empty t) path := by
  refine hrun.always_iff_meets (RedeliveryInv m)
    (fun _ _ _ hP _ h _ => step_redeliveryInv houter hP h)
    (fun _ _ _ hP hD h => step_duplicates_iff houter hP hD h) ?_ ?_
  · exact ⟨⟨dedupInv_start t, by simp [DeliveryPool.start, DedupWorld.start]⟩, by simp [DeliveryPool.start]⟩
  · intro i args r hi
    simp [DeliveryPool.start] at hi

end

/-! The event `newLot` delivered twice to `greeter`. -/

/-- The first delivery is handled, the second one is answered `DUPLICATE`. -/
theorem duplicates_dealtWith_greet :
    ∃ path, path.length = 5 ∧ Transition.Run (Pool.Step (feedsOnly greeter)) (DeliveryPool.start Empty 0) path ∧
      Transition.Always (DuplicatesDealtWith dayLong) (DeliveryPool.start Empty 0) path := by
  have dealtWith : ∀ path, Transition.Run (Pool.Step (feedsOnly greeter)) (DeliveryPool.start Empty 0) path →
      Transition.Meets (NotPremature dayLong) (DeliveryPool.start Empty 0) path → path.length = 5 →
      path.length = 5 ∧ Transition.Run (Pool.Step (feedsOnly greeter)) (DeliveryPool.start Empty 0) path ∧
        Transition.Always (DuplicatesDealtWith dayLong) (DeliveryPool.start Empty 0) path :=
    fun path hrun hmeets hlen => ⟨hlen, hrun, (duplicates_dealtWith_iff rfl hrun).2 hmeets⟩
  refine ⟨_, dealtWith [(.start (.inl newLotArgs), _), (.serve 0 ⟨.markIfNew "sub-1:1" 86400, .ok true⟩ (.at 1), _),
    (.serve 0 ⟨.callback greet ∅, .ok .none⟩ (.at 1), _), (.start (.inl newLotArgs), _),
    (.serve 1 ⟨.markIfNew "sub-1:1" 86400, .ok false⟩ (.at 2), _)]
    ⟨.start _ _, .serve rfl ⟨by decide +kernel, rfl, rfl⟩, .serve rfl rfl, .start _ _,
      .serve rfl ⟨by decide +kernel, by decide +kernel, rfl⟩, trivial⟩ ⟨trivial, ?_, trivial, trivial, ?_, trivial⟩ rfl⟩
  · rintro - ⟨⟨a, ha, -⟩, -⟩
    cases ha
  · rintro - ⟨-, hnone⟩
    exact hnone ⟨0, newLotArgs, _, rfl, by decide, ⟨.handled, newLot, none⟩, rfl, Or.inl rfl⟩

/-- The first delivery fails, the second one is answered `DUPLICATE`. -/
theorem duplicate_of_failed :
    ∃ path, Transition.Run (Pool.Step (feedsOnly greeter)) (DeliveryPool.start Empty 0) path ∧
      ¬ Transition.Always (DuplicatesDealtWith dayLong) (DeliveryPool.start Empty 0) path := by
  refine ⟨[(.start (.inl newLotArgs), _), (.serve 0 ⟨.markIfNew "sub-1:1" 86400, .ok true⟩ (.at 1), _),
    (.serve 0 ⟨.callback greet ∅, .error .keyError⟩ (.at 1), _), (.start (.inl newLotArgs), _),
    (.serve 1 ⟨.markIfNew "sub-1:1" 86400, .ok false⟩ (.at 2), _)],
    ⟨.start _ _, .serve rfl ⟨by decide +kernel, rfl, rfl⟩, .serve rfl rfl, .start _ _,
      .serve rfl ⟨by decide +kernel, by decide +kernel, rfl⟩, trivial⟩, fun h => ?_⟩
  have hD : DuplicatesDealtWith dayLong ⟨_, [(.inl newLotArgs, .ret ⟨.errored, newLot, some .keyError⟩),
    (.inl newLotArgs, .ret ⟨.duplicate, newLot, none⟩)]⟩ := h.last
  obtain ⟨i, args, p, hi, -, r, rfl, hr⟩ := hD 1 newLotArgs _ rfl rfl
  rcases i with _ | _ | i
  · cases hi
    simp at hr
  · cases hi
    simp at hr
  · cases hi

end EventusSdk
