import EventusSdk.Lib.Recorded
import EventusSdk.Lib.Transition
import EventusSdk.Webhook

/-!
# Deliveries of a webhook

The server posts a hook again until it knows what has become of it: a status from 500 on, 408 or 429 is a reason to try
again, and so is an answer that never arrives; any other status of failure is final.  Any number of deliveries run side
by side, each one suspended wherever the receiver awaits something, and every answer may get lost.  The resolvers are
functions of the subscription id that do not raise, and what the dispatcher answers is what a run of its `feed` comes
to.
-/

namespace EventusSdk

/-- A request as the server keeps it, to post it again. -/
structure Posted where
  scope : Scope
  incoming : Incoming

/-- What the receiver is built over. -/
structure Application where
  receiver : WebhookReceiver
  secrets : String → Option String
  accounts : String → Option AccountContext
  dispatcher : Dispatcher

/-- Sending may fail. -/
def Application.Answers (app : Application) : HookCall → Prop
  | ⟨.secretResolver id, x⟩ => x = .ok (app.secrets id)
  | ⟨.accountResolver id, x⟩ => x = .ok (app.accounts id)
  | ⟨.feed event account, x⟩ => ∃ calls, (app.dispatcher.feed event account).Runs calls x
  | ⟨.send _, _⟩ => True

/-- The statuses that have arrived at the server, each with the number of its delivery. -/
abbrev Arrived := List (ℕ × ℕ)

/-- What the server gets to see of a message, if it arrives. -/
def statusRead : HookCall → Bool → List ℕ
  | ⟨.send (.responseStart status _), .ok _⟩, true => [status]
  | _, _ => []

/-- The deliveries; of each message sent it is said whether it arrives. -/
def postings (app : Application) : Pool.System Posted Arrived Bool Empty HookReq HookResp Exn Unit where
  program posted := app.receiver.call posted.scope posted.incoming
  serve w i call arrives w' := app.Answers call ∧ w' = (statusRead call arrives).map (i, ·) ++ w
  outside _ _ _ := False

abbrev PostingPool := Pool Posted (Arrived × Pool.History HookReq HookResp Exn) HookReq HookResp Exn Unit

abbrev PostingLabel := Pool.Label Posted HookReq HookResp Exn Bool Empty

def PostingPool.start : PostingPool := ⟨([], []), []⟩

/-- The statuses after which the server posts the hook again. -/
def Retryable (status : ℕ) : Prop := 500 ≤ status ∨ status = 408 ∨ status = 429

namespace PostingPool

variable (P : PostingPool) (posted : Posted)

/-- The delivery with this number is one of the hook. -/
def Attempt (i : ℕ) : Prop := ∃ p, P.tasks[i]? = some (posted, p)

/-- The feeds a delivery has made. -/
def fed (i : ℕ) : List (ClientEvent × AccountContext × Except Exn DispatchResult) :=
  feeds (Pool.traceOf i P.world.2)

/-- The server has read a status of success. -/
def Acknowledged : Prop := ∃ i status, P.Attempt posted i ∧ (i, status) ∈ P.world.1 ∧ 200 ≤ status ∧ status < 300

/-- The server has read a status that is final. -/
def Refused : Prop := ∃ i status, P.Attempt posted i ∧ (i, status) ∈ P.world.1 ∧ 400 ≤ status ∧ ¬ Retryable status

end PostingPool

/-! ### What has been answered -/

/-- Every status that has arrived was sent, and every answer is one the application gives. -/
structure PostingInv (app : Application) (P : PostingPool) : Prop where
  recorded : Pool.Recorded (postings app) P
  sent : ∀ x ∈ P.world.1, ∃ headers, (x.1, ⟨.send (.responseStart x.2 headers), .ok ()⟩) ∈ P.world.2
  answers : ∀ x ∈ P.world.2, app.Answers x.2

section
variable {app : Application} {P Q : PostingPool} {l : PostingLabel} {posted : Posted} {i j : ℕ}

private theorem mem_statusRead {call : HookCall} {arrives : Bool} {status : ℕ} (h : status ∈ statusRead call arrives) :
    ∃ headers, call = ⟨.send (.responseStart status headers), .ok ()⟩ := by
  unfold statusRead at h
  split at h
  · next headers _ =>
    obtain rfl := List.mem_singleton.1 h
    exact ⟨headers, rfl⟩
  · cases h

private theorem PostingInv.sent_step (hP : PostingInv app P) (h : Pool.Step (postings app).recorded P l Q) :
    ∀ x ∈ Q.world.1, ∃ headers, (x.1, ⟨.send (.responseStart x.2 headers), .ok ()⟩) ∈ Q.world.2 := by
  cases h with
  | start t => exact hP.sent
  | outside hw => exact hw.1.elim
  | serve hi hw =>
    obtain ⟨⟨-, hread⟩, hhistory⟩ := hw
    dsimp only
    rw [hread, hhistory]
    intro x hx
    rcases List.mem_append.1 hx with hx | hx
    · obtain ⟨status, hs, rfl⟩ := List.mem_map.1 hx
      obtain ⟨headers, hcall⟩ := mem_statusRead hs
      exact ⟨headers, List.mem_append_right _ (by rw [hcall]; exact List.mem_singleton_self _)⟩
    · obtain ⟨headers, hm⟩ := hP.sent x hx
      exact ⟨headers, List.mem_append_left _ hm⟩

private theorem PostingInv.answers_step (hP : PostingInv app P) (h : Pool.Step (postings app).recorded P l Q) :
    ∀ x ∈ Q.world.2, app.Answers x.2 := by
  cases h with
  | start t => exact hP.answers
  | outside hw => exact hw.1.elim
  | serve hi hw =>
    obtain ⟨⟨hanswer, -⟩, hhistory⟩ := hw
    dsimp only
    rw [hhistory]
    intro x hx
    rcases List.mem_append.1 hx with hx | hx
    · exact hP.answers x hx
    · rw [List.mem_singleton.1 hx]
      exact hanswer

private theorem run_postingInv {path : List (PostingLabel × PostingPool)}
    (hrun : Transition.Run (Pool.Step (postings app).recorded) PostingPool.start path) :
    PostingInv app (Transition.last PostingPool.start path) := by
  have hstep : ∀ P l Q, PostingInv app P → Pool.Step (postings app).recorded P l Q → PostingInv app Q :=
    fun P l Q hP h => ⟨Pool.step_recorded hP.recorded h, hP.sent_step h, hP.answers_step h⟩
  refine (hrun.always hstep ⟨⟨?_, ?_⟩, ?_, ?_⟩).last <;> simp [PostingPool.start]

/-! ### A delivery, run to its end -/

/-- The resolvers answer as they do. -/
def Application.Resolves (app : Application) (t : List HookCall) : Prop :=
  (∀ id x, (⟨.secretResolver id, x⟩ : HookCall) ∈ t → x = .ok (app.secrets id)) ∧
    ∀ id x, (⟨.accountResolver id, x⟩ : HookCall) ∈ t → x = .ok (app.accounts id)

/-- Some way of answering a delivery from here on. -/
def Application.env (app : Application) : Prog.Env HookReq HookResp Exn Unit
  | .secretResolver id, _ => (.ok (app.secrets id), ())
  | .accountResolver id, _ => (.ok (app.accounts id), ())
  | .feed .., _ => (.error .valueError, ())
  | .send _, _ => (.ok (), ())

/-- A delivery can be run to its end. -/
private theorem PostingInv.completed (hP : PostingInv app P) (hi : P.Attempt posted i) :
    ∃ t res, (app.receiver.call posted.scope posted.incoming).Runs (Pool.traceOf i P.world.2 ++ t) res ∧
      app.Resolves (Pool.traceOf i P.world.2 ++ t) := by
  obtain ⟨p, hp⟩ := hi
  refine ⟨_, _, (hP.recorded.2 i posted p hp).completed app.env (), ?_, ?_⟩
  · intro id x hx
    rcases List.mem_append.1 hx with hx | hx
    · exact hP.answers _ (Pool.mem_traceOf.1 hx)
    · obtain ⟨_, h⟩ := Prog.mem_trace_run hx
      exact h
  · intro id x hx
    rcases List.mem_append.1 hx with hx | hx
    · exact hP.answers _ (Pool.mem_traceOf.1 hx)
    · obtain ⟨_, h⟩ := Prog.mem_trace_run hx
      exact h

/-- A delivery that has fed an event: the event was made of an authentic body. -/
private theorem PostingInv.fed_event (hP : PostingInv app P) (hi : P.Attempt posted i) {event : ClientEvent}
    {account : AccountContext} {x : Except Exn DispatchResult} (hfed : (event, account, x) ∈ P.fed i) :
    ∃ id secret body, Authentic app.receiver posted.scope posted.incoming id secret ∧
      app.secrets id = some secret ∧ app.accounts id = some account ∧
      app.receiver.lib.loads posted.incoming.bytes = .ok body ∧
      app.receiver.makeEvent posted.scope body = .ok event := by
  obtain ⟨t, res, hrun, hsecrets, haccounts⟩ := hP.completed hi
  have hmem : (event, account, x) ∈ feeds (Pool.traceOf i P.world.2 ++ t) := by
    rw [feeds, List.filterMap_append]
    exact List.mem_append_left _ hfed
  obtain ⟨id, secret, body, ha, hsecret, haccount, hl, hmade⟩ := call_fed_event hrun hmem
  exact ⟨id, secret, body, ha, (Except.ok.inj (hsecrets _ _ hsecret)).symm,
    (Except.ok.inj (haccounts _ _ haccount)).symm, hl, hmade⟩

/-- A delivery whose status has arrived: the run of `_handle` that came to it. -/
private theorem PostingInv.handled (hP : PostingInv app P) (hi : P.Attempt posted i) {status : ℕ}
    (hread : (i, status) ∈ P.world.1) :
    ∃ t text, HandleRun app.receiver posted.scope posted.incoming t (.ok (status, text)) ∧
      t <+: Pool.traceOf i P.world.2 ∧ app.Resolves t := by
  obtain ⟨t', res, hrun, hsecrets, haccounts⟩ := hP.completed hi
  obtain ⟨headers, hsent⟩ := hP.sent _ hread
  have hmem : (⟨.send (.responseStart status headers), .ok ()⟩ : HookCall) ∈ Pool.traceOf i P.world.2 :=
    Pool.mem_traceOf.2 hsent
  rcases call_handled hrun with hnil | ⟨t₁, t₂, r, heq, h, -, hstatus⟩
  · rw [(List.append_eq_nil_iff.1 hnil).1] at hmem
    cases hmem
  -- no message is sent before `_handle` has come to its response
  have hnot : (⟨.send (.responseStart status headers), .ok ()⟩ : HookCall) ∉ t₁ := fun hm => by
    have hs : .responseStart status headers ∈ sends t₁ := List.mem_filterMap.2 ⟨_, hm, rfl⟩
    rw [h.sends] at hs
    cases hs
  have hbehind : (⟨.send (.responseStart status headers), .ok ()⟩ : HookCall) ∈ t₂ :=
    (List.mem_append.1 (heq ▸ List.mem_append_left t' hmem)).resolve_left hnot
  obtain ⟨text, rfl⟩ := hstatus status headers (List.mem_filterMap.2 ⟨_, hbehind, rfl⟩)
  have hsub : t₁ ⊆ Pool.traceOf i P.world.2 ++ t' := heq ▸ List.subset_append_left t₁ t₂
  refine ⟨t₁, text, h, ?_, fun id x hx => hsecrets id x (hsub hx), fun id x hx => haccounts id x (hsub hx)⟩
  rcases List.append_eq_append_iff.1 heq with ⟨a, rfl, -⟩ | ⟨c, hc, -⟩
  · exact absurd (List.mem_append_left a hmem) hnot
  · exact hc ▸ List.prefix_append t₁ c

private theorem feeds_prefix {t t' : List HookCall} (h : t <+: t') : feeds t ⊆ feeds t' := by
  obtain ⟨t'', rfl⟩ := h
  rw [feeds, feeds, List.filterMap_append]
  exact List.subset_append_left ..

/-- `_handle` that has fed an event answers 200 or 503. -/
private theorem HandleRun.status_of_fed {receiver : WebhookReceiver} {scope : Scope} {incoming : Incoming}
    {t : List HookCall}
    {status : ℕ} {text : Bytes} (h : HandleRun receiver scope incoming t (.ok (status, text))) (hfed : feeds t ≠ []) :
    status = 200 ∨ status = 503 := by
  generalize hres : (Except.ok (status, text) : Except Exn Response) = res at h
  cases h with
  | fed account text ha hl hm x hx =>
    obtain rfl : status = feedStatus x := congrArg Prod.fst (Except.ok.inj hres)
    unfold feedStatus
    split
    · split <;> simp
    · simp
  | feedRaises => cases hres
  | _ => exact absurd rfl hfed

/-- A dispatcher without outer middleware answers no event `DUPLICATE`. -/
private theorem feed_not_duplicate {dispatcher : Dispatcher} (houter : dispatcher.outer = []) {event : ClientEvent}
    {ctx : AccountContext} {t : List Call} {r : DispatchResult} (hrun : (dispatcher.feed event ctx).Runs t (.ok r)) :
    r.outcome ≠ .duplicate := by
  have hwalk : ∀ data, (dispatcher.walkAndHandle event data).Safe (fun _ => True) (fun _ => True) fun a =>
      Dispatcher.Walked a.1 :=
    Dispatcher.tryRouters_safe (fun _ _ _ => trivial) (fun _ _ _ => Prog.safe_true _) _ event
  have hsafe : (dispatcher.feed event ctx).Safe (fun _ => True) (fun _ => True) Dispatcher.Walked := by
    refine Prog.safe_bind (Prog.safe_true _) fun payload _ => ?_
    rw [houter]
    exact Prog.safe_bind (hwalk _) fun a ha => ha
  exact (hsafe.runs hrun fun _ _ _ _ => trivial).2.2 r rfl

end

/-- In every run of deliveries, whatever gets lost on the way:  a hook that is acknowledged has been fed by one of its
deliveries, which came to `HANDLED`, `SKIPPED` or `DUPLICATE`, the latter only with an outer middleware;  a hook that is
refused has been fed by none of them, so none is both;  and all its deliveries feed the same event, up to the moment of
its receipt, for the same account. -/
theorem webhook_delivered {app : Application} {path : List (PostingLabel × PostingPool)}
    (hrun : Transition.Run (Pool.Step (postings app).recorded) PostingPool.start path) (posted : Posted) :
    let P := Transition.last PostingPool.start path
    (P.Acknowledged posted → ∃ i event account r, P.Attempt posted i ∧ (event, account, .ok r) ∈ P.fed i ∧
      r.outcome ∈ handledOutcomes ∧ (app.dispatcher.outer = [] → r.outcome ≠ .duplicate)) ∧
    (P.Refused posted → ∀ i, P.Attempt posted i → P.fed i = []) ∧
    ∀ i j event account x event' account' x', P.Attempt posted i → P.Attempt posted j →
      (event, account, x) ∈ P.fed i → (event', account', x') ∈ P.fed j → event' = event ∧ account' = account := by
  intro P
  have hP : PostingInv app P := run_postingInv hrun
  refine ⟨?_, ?_, ?_⟩
  · rintro ⟨i, status, hi, hread, hlow, hhigh⟩
    obtain ⟨t, text, h, hprefix, -⟩ := hP.handled hi hread
    obtain rfl : status = 200 := by
      have := h.status
      simp at this
      omega
    obtain ⟨event, account, r, hfeeds, hr⟩ := h.ok_of_status
    have hfed : (event, account, .ok r) ∈ P.fed i := feeds_prefix hprefix (hfeeds ▸ List.mem_singleton_self _)
    refine ⟨i, event, account, r, hi, hfed, hr, fun houter => ?_⟩
    obtain ⟨⟨req, x⟩, hmem, hcall⟩ := List.mem_filterMap.1 hfed
    cases req with
    | feed event' account' =>
      cases hcall
      obtain ⟨calls, hruns⟩ := hP.answers _ (Pool.mem_traceOf.1 hmem)
      exact feed_not_duplicate houter hruns
    | _ => cases hcall
  · rintro ⟨i, status, hi, hread, hlow, hfinal⟩ j hj
    by_contra hne
    obtain ⟨⟨event, account, x⟩, hfed⟩ := List.exists_mem_of_ne_nil _ hne
    obtain ⟨id, secret, body, ha, hsecret, haccount, hl, hmade⟩ := hP.fed_event hj hfed
    obtain ⟨t, text, h, -, hsecrets, haccounts⟩ := hP.handled hi hread
    have hres : Resolved app.secrets app.accounts t := by
      refine ⟨hsecrets, haccounts, fun message x hm => ?_⟩
      have hs : message ∈ sends t := List.mem_filterMap.2 ⟨_, hm, rfl⟩
      rw [h.sends] at hs
      cases hs
    -- the refused delivery would have fed the event as well
    obtain ⟨y, hy⟩ := h.feeds_made hres ha hsecret haccount hl hmade
    rcases h.status_of_fed (List.ne_nil_of_mem hy) with rfl | rfl
    · omega
    · exact hfinal (Or.inl (by decide))
  · intro i j event account x event' account' x' hi hj hfed hfed'
    obtain ⟨id, secret, body, ha, -, haccount, hl, hmade⟩ := hP.fed_event hi hfed
    obtain ⟨id', secret', body', ha', -, haccount', hl', hmade'⟩ := hP.fed_event hj hfed'
    exact ha.fed_eq ha' haccount haccount' hl hl' hmade hmade'

/-! The lot, posted twice: the answer to the first delivery is lost, the one to the second arrives. -/

def lotApp : Application := ⟨lotReceiver, fun _ => some "whsec", fun _ => some seller, { root := greetRouter }⟩

def lotPosted : Posted := ⟨lotScope lotSignature, lotIncoming⟩

private theorem feed_lot : ∃ calls, (lotApp.dispatcher.feed { newLot with seq := 7 } seller).Runs calls
    (.ok ⟨.handled, { newLot with seq := 7 }, none⟩) :=
  ⟨[⟨.callback greet ∅, .ok .none⟩], _, _, rfl, rfl, rfl⟩

private theorem lot_posted_twice :
    ∃ path, Transition.Run (Pool.Step (postings lotApp).recorded) PostingPool.start path ∧
      (Transition.last PostingPool.start path).tasks.length = 2 ∧
      (Transition.last PostingPool.start path).world.1 = [(1, 200)] ∧
      (Transition.last PostingPool.start path).Attempt lotPosted 1 :=
  ⟨[(.start lotPosted, _), (.serve 0 ⟨.secretResolver "sub-1", .ok (some "whsec")⟩ true, _),
    (.start lotPosted, _), (.serve 1 ⟨.secretResolver "sub-1", .ok (some "whsec")⟩ true, _),
    (.serve 0 ⟨.accountResolver "sub-1", .ok (some seller)⟩ true, _),
    (.serve 0 ⟨.feed { newLot with seq := 7 } seller, .ok ⟨.handled, { newLot with seq := 7 }, none⟩⟩ true, _),
    (.serve 1 ⟨.accountResolver "sub-1", .ok (some seller)⟩ true, _),
    (.serve 0 ⟨.send (.responseStart 200 [(encode "content-type", encode "application/json")]), .ok ()⟩ false, _),
    (.serve 1 ⟨.feed { newLot with seq := 7 } seller, .ok ⟨.handled, { newLot with seq := 7 }, none⟩⟩ true, _),
    (.serve 1 ⟨.send (.responseStart 200 [(encode "content-type", encode "application/json")]), .ok ()⟩ true, _)],
    ⟨.start _ _, .record rfl ⟨rfl, rfl⟩, .start _ _, .record rfl ⟨rfl, rfl⟩, .record rfl ⟨rfl, rfl⟩,
      .record rfl ⟨feed_lot, rfl⟩, .record rfl ⟨rfl, rfl⟩, .record rfl ⟨trivial, rfl⟩, .record rfl ⟨feed_lot, rfl⟩,
      .record rfl ⟨trivial, rfl⟩, trivial⟩, rfl, rfl, _, rfl⟩

theorem webhook_delivered_lot :
    ∃ path, Transition.Run (Pool.Step (postings lotApp).recorded) PostingPool.start path ∧
      (Transition.last PostingPool.start path).tasks.length = 2 ∧
      ∃ i event account r, (Transition.last PostingPool.start path).Attempt lotPosted i ∧
        (event, account, .ok r) ∈ (Transition.last PostingPool.start path).fed i ∧ r.outcome ∈ handledOutcomes := by
  obtain ⟨path, hrun, hlen, hread, hi⟩ := lot_posted_twice
  obtain ⟨hacknowledged, -⟩ := webhook_delivered hrun lotPosted
  obtain ⟨i, event, account, r, hi, hfed, hr, -⟩ :=
    hacknowledged ⟨1, 200, hi, by rw [hread]; exact List.mem_singleton_self _, by decide, by decide⟩
  exact ⟨path, hrun, hlen, i, event, account, r, hi, hfed, hr⟩

end EventusSdk
