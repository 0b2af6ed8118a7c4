import EventusSdk.Accounts
import EventusSdk.Webhook

/-!
# Signed bodies and unsigned headers

The signature of a webhook covers its body alone.  Two requests with the same body for the same subscription, whatever
their headers are, lead to events that agree in `seq` and `data`, and for the same account.

The event type and the dedup key are taken from headers where these are given: by whom, nobody has signed.  So the
events agree in the event type if the headers name the same one, and the second delivery stops at the dedup middleware
if they name the same key.
-/

namespace EventusSdk

/-- A header that is there and not empty. -/
def Scope.given (scope : Scope) (name : String) : Option String := (scope.header name).filter (· ≠ "")

/-- The key that the headers name, if they name one. -/
def Scope.givenKey (scope : Scope) : Option String := (scope.given idempotencyHeader).or (scope.given eventIdHeader)

/-- The account resolver answers by the subscription. -/
def AccountsBy (accounts : String → Option AccountContext) (t : List HookCall) : Prop :=
  ∀ id x, (⟨.accountResolver id, x⟩ : HookCall) ∈ t → x = .ok (accounts id)

/-! ### The store over a trace -/

/-- The store answers what is asked of it in the trace, with the clock as `r` reads it, and is left as `store'`. -/
def Serves (r : Readings) : IdempotencyStore → List Call → IdempotencyStore → Prop
  | store, [], store' => store' = store
  | store, ⟨.markIfNew key ttl, x⟩ :: t, store' =>
    x = .ok (store.markIfNew key (some ttl) r).1 ∧ Serves r (store.markIfNew key (some ttl) r).2 t store'
  | store, _ :: t, store' => Serves r store t store'

/-- A run of a feed over the store. -/
def Delivers (dispatcher : Dispatcher) (args : FeedArgs) (r : Readings) (store : IdempotencyStore) (t : List Call)
    (res : Except Exn DispatchResult) (store' : IdempotencyStore) : Prop :=
  (dispatcher.feed args.1 args.2).Runs t res ∧ Serves r store t store'

/-- The run of a feed has come to the dedup middleware and has not ended there as a duplicate: the walk is what goes on
behind the answer of the store, whatever that was. -/
def EntersWalk (m : IdempotencyMiddleware) (args : FeedArgs) (t : List Call) (res : Except Exn DispatchResult) : Prop :=
  ∃ t₁ new t₂, t = t₁ ++ ⟨.markIfNew (deliveryKey m args) m.ttl, .ok new⟩ :: t₂ ∧
    ¬ (t₂ = [] ∧ res = .ok ⟨.duplicate, args.1, none⟩)

section
variable {r : Readings} {store store' : IdempotencyStore} {t : List Call}

private theorem serves_append (ht : ∀ call ∈ t, call.1.Foreign) (t' : List Call) :
    Serves r store (t ++ t') store' ↔ Serves r store t' store' := by
  induction t with
  | nil => rfl
  | cons call t ih =>
    obtain ⟨hcall, htail⟩ := List.forall_mem_cons.1 ht
    obtain ⟨req, x⟩ := call
    cases req with
    | markIfNew key ttl => exact absurd rfl (hcall key ttl)
    | _ => exact ih htail

private theorem serves_foreign (ht : ∀ call ∈ t, call.1.Foreign) : Serves r store t store' ↔ store' = store := by
  have happend : Serves r store (t ++ []) store' ↔ store' = store := serves_append ht []
  rwa [List.append_nil] at happend

/-- Where one answer of the store stands in a trace, and no other one, it is the answer at each such place. -/
private theorem mark_unique {t₁ t₂ u₁ u₂ : List Call} {key key' : String} {ttl ttl' : ℚ} {x x' : Except Exn Bool}
    (ht₁ : ∀ call ∈ t₁, call.1.Foreign) (ht₂ : ∀ call ∈ t₂, call.1.Foreign)
    (h : t₁ ++ ⟨.markIfNew key ttl, x⟩ :: t₂ = u₁ ++ ⟨.markIfNew key' ttl', x'⟩ :: u₂) : x = x' ∧ t₂ = u₂ := by
  induction t₁ generalizing u₁ with
  | nil =>
    cases u₁ with
    | nil =>
      cases h
      exact ⟨rfl, rfl⟩
    | cons call u₁ =>
      obtain ⟨-, rfl⟩ := List.cons.inj h
      exact absurd rfl (ht₂ ⟨.markIfNew key' ttl', x'⟩ (by simp) key' ttl')
  | cons call t₁ ih =>
    obtain ⟨hcall, htail⟩ := List.forall_mem_cons.1 ht₁
    cases u₁ with
    | nil =>
      obtain ⟨rfl, -⟩ := List.cons.inj h
      exact absurd rfl (hcall key' ttl')
    | cons call' u₁ => exact ih htail (List.cons.inj h).2

end

/-! ### One delivery -/

/-- How a feed goes on from the answer of `mark_if_new`, which it asks for once. -/
def AnsweredOnce (event : ClientEvent) : Except Exn Bool → Py DispatchResult → Prop
  | .ok true, p => p.Safe Req.Foreign (fun _ => True) Dispatcher.Walked
  | .ok false, p => p = .ret ⟨.duplicate, event, none⟩
  | .error _, p => ∃ e, p = .raise e

section
variable {dispatcher : Dispatcher} {m : IdempotencyMiddleware} {args : FeedArgs} {t : List Call}
  {res : Except Exn DispatchResult} {r : Readings} {store store' : IdempotencyStore}

private theorem AnsweredOnce.foreign {event : ClientEvent} {x : Except Exn Bool} {p : Py DispatchResult}
    (h : AnsweredOnce event x p) (hrun : p.Runs t res) : ∀ call ∈ t, call.1.Foreign := by
  rcases x with e | new
  · obtain ⟨e', rfl⟩ := h
    obtain ⟨rfl, -⟩ := hrun
    simp
  · cases new with
    | false =>
      obtain rfl : p = .ret ⟨.duplicate, event, none⟩ := h
      obtain ⟨rfl, -⟩ := hrun
      simp
    | true => exact (Prog.Safe.runs h hrun fun _ _ _ _ => trivial).1

private theorem feed_gate_once (hm : Deduped m dispatcher) :
    (dispatcher.feed args.1 args.2).Gate Req.Foreign (.markIfNew (deliveryKey m args) m.ttl) (AnsweredOnce args.1) := by
  obtain ⟨pre, post, houter, hpre, hpost⟩ := hm.outer
  obtain ⟨event, ctx⟩ := args
  refine feed_gate_of_chain fun data hdata => ?_
  obtain ⟨f, hf⟩ := chain_relaying hpre (m.call (chain post dispatcher.walkAndHandle)) event data
  rw [houter, deliveryKey, ← hdata, chain_append, chain_cons, hf]
  refine .gate fun x => ?_
  rcases x with e | new
  · exact ⟨f e, rfl⟩
  · cases new with
    | false => rfl
    | true =>
      have hwalk := walk_indifferent hpost hm.inner event data
      exact Prog.safe_bind (Prog.safe_tryCatch hwalk fun _ _ => trivial) fun a ha => ha

/-- A delivery that enters the walk has found its key new and has marked it. -/
private theorem feed_serves (hm : Deduped m dispatcher) (h : Delivers dispatcher args r store t res store')
    (henters : EntersWalk m args t res) :
    (Delivery.mark m store ⟨args, r⟩).1 = true ∧ store' = (Delivery.mark m store ⟨args, r⟩).2 := by
  obtain ⟨hrun, hserves⟩ := h
  obtain ⟨u₁, new, u₂, hu, hbehind⟩ := henters
  rcases (feed_gate_once hm).runs hrun with ht | ⟨t₁, x, t₂, q, rfl, ht₁, hq, hrun₂⟩
  · exact absurd rfl (ht ⟨.markIfNew (deliveryKey m args) m.ttl, .ok new⟩ (by simp [hu]) _ _)
  · have ht₂ := hq.foreign hrun₂
    obtain ⟨rfl, rfl⟩ := mark_unique ht₁ ht₂ hu
    rw [serves_append ht₁] at hserves
    obtain ⟨hnew, hrest⟩ := hserves
    refine ⟨(Except.ok.inj hnew).symm.trans ?_, (serves_foreign ht₂).1 hrest⟩
    cases new with
    | true => rfl
    | false =>
      -- refused, the feed would end here as a duplicate
      obtain rfl : q = .ret ⟨.duplicate, args.1, none⟩ := hq
      exact absurd hrun₂ hbehind

/-- Of two deliveries of one key, one after the other within the time to live, one at most enters the walk. -/
private theorem enters_once (hm : Deduped m dispatcher) {args' : FeedArgs} {t' : List Call} {r' : Readings}
    {res' : Except Exn DispatchResult} (hkey : deliveryKey m args' = deliveryKey m args)
    (hfirst : Delivers dispatcher args r .empty t res store)
    (hsecond : Delivers dispatcher args' r' store t' res' store') (hnext : r.sweep ≤ r'.check)
    (hlive : r'.check ≤ r.write + m.ttl) : ¬ (EntersWalk m args t res ∧ EntersWalk m args' t' res') := by
  rintro ⟨henters, henters'⟩
  obtain ⟨-, rfl⟩ := feed_serves hm hfirst henters
  obtain ⟨hnew, -⟩ := feed_serves hm hsecond henters'
  have hrefused : (Delivery.mark m (Delivery.mark m .empty ⟨args, r⟩).2 ⟨args', r'⟩).1 = false :=
    mark_again hkey hnext hlive
  rw [hnew] at hrefused
  cases hrefused

end

/-! ### Two requests -/

section
variable {receiver : WebhookReceiver} {scope scope' : Scope} {incoming incoming' : Incoming} {body : Json}
  {event event' : ClientEvent}

/-- What an event takes from the headers. -/
private theorem makeEvent_headers (h : receiver.makeEvent scope body = .ok event) :
    receiver.eventType scope body = .ok event.eventType ∧ event.eventId = scope.header eventIdHeader ∧
      event.idempotencyKey = scope.header idempotencyHeader := by
  obtain ⟨v, -, h⟩ := except_bind_ok.1 h
  obtain ⟨seq, -, h⟩ := except_bind_ok.1 h
  obtain ⟨eventType, htype, h⟩ := except_bind_ok.1 h
  obtain ⟨d, -, h⟩ := except_bind_ok.1 h
  obtain ⟨data, -, h⟩ := except_bind_ok.1 h
  cases h
  exact ⟨htype, rfl, rfl⟩

private theorem ClientEvent.FromBody.agree (h : event.FromBody body) (h' : event'.FromBody body) :
    event.seq = event'.seq ∧ event.data = event'.data := by
  obtain ⟨⟨v, hv, hseq⟩, d, hd, hdata⟩ := h
  obtain ⟨⟨v', hv', hseq'⟩, d', hd', hdata'⟩ := h'
  obtain rfl := Except.ok.inj (hv.symm.trans hv')
  obtain rfl := Except.ok.inj (hd.symm.trans hd')
  exact ⟨Except.ok.inj (hseq.symm.trans hseq'), Except.ok.inj (hdata.symm.trans hdata')⟩

private theorem eventType_agree (h : receiver.makeEvent scope body = .ok event)
    (h' : receiver.makeEvent scope' body = .ok event')
    (hgiven : scope.given eventTypeHeader = scope'.given eventTypeHeader) : event.eventType = event'.eventType := by
  have htype := (makeEvent_headers h).1
  have htype' := (makeEvent_headers h').1
  unfold WebhookReceiver.eventType at htype htype'
  unfold Scope.given at hgiven
  rw [hgiven] at htype
  exact Except.ok.inj (htype.symm.trans htype')

/-- The dedup key is the one that the headers name, or the key of subscription and `seq`. -/
private theorem deliveryKey_given (m : IdempotencyMiddleware) (h : receiver.makeEvent scope body = .ok event)
    (account : AccountContext) :
    deliveryKey m (event, account) =
      scope.givenKey.getD (account.subscriptionId ++ ":" ++ toString event.seq) := by
  obtain ⟨-, hid, hkey⟩ := makeEvent_headers h
  unfold deliveryKey IdempotencyMiddleware.key Scope.givenKey Scope.given
  rw [hid, hkey]
  cases (scope.header idempotencyHeader).filter (· ≠ "") with
  | some key => rfl
  | none =>
    cases (scope.header eventIdHeader).filter (· ≠ "") with
    | some key => rfl
    | none => rfl

end

/-- Two requests with one body for one subscription that are both fed: the events agree in `seq` and `data`, and go to
the same account.  They agree in the event type if the headers name the same one or both none; and if the headers name
the same dedup key or both none, of two deliveries within the time to live one at most enters the walk. -/
theorem replay_agrees {receiver : WebhookReceiver} {scope scope' : Scope} {incoming incoming' : Incoming}
    {t t' : List HookCall} {res res' : Except Exn Unit} {accounts : String → Option AccountContext}
    {event event' : ClientEvent} {account account' : AccountContext} {x x' : Except Exn DispatchResult}
    (hpath : scope.path = scope'.path) (hbytes : incoming.bytes = incoming'.bytes)
    (hrun : (receiver.call scope incoming).Runs t res) (hrun' : (receiver.call scope' incoming').Runs t' res')
    (haccounts : AccountsBy accounts t) (haccounts' : AccountsBy accounts t')
    (hfed : (event, account, x) ∈ feeds t) (hfed' : (event', account', x') ∈ feeds t') :
    event.seq = event'.seq ∧ event.data = event'.data ∧ account = account' ∧
      (scope.given eventTypeHeader = scope'.given eventTypeHeader → event.eventType = event'.eventType) ∧
      (scope.givenKey = scope'.givenKey →
        ∀ (dispatcher : Dispatcher) (m : IdempotencyMiddleware) (r r' : Readings) (store store' : IdempotencyStore)
          (d d' : List Call) (y y' : Except Exn DispatchResult), Deduped m dispatcher →
        Delivers dispatcher (event, account) r .empty d y store →
        Delivers dispatcher (event', account') r' store d' y' store' → r.sweep ≤ r'.check →
        r'.check ≤ r.write + m.ttl →
        ¬ (EntersWalk m (event, account) d y ∧ EntersWalk m (event', account') d' y')) := by
  obtain ⟨id, secret, body, ha, -, haccount, hl, hmade⟩ := call_fed_event hrun hfed
  obtain ⟨id', secret', body', ha', -, haccount', hl', hmade'⟩ := call_fed_event hrun' hfed'
  have hid : id = id' := by
    have hnamed := ha.named
    unfold Scope.subscriptionId at hnamed
    rw [hpath] at hnamed
    exact Option.some.inj (hnamed.symm.trans ha'.named)
  subst hid
  rw [hbytes] at hl
  obtain rfl := Except.ok.inj (hl.symm.trans hl')
  have hsame : some account = some account' :=
    (Except.ok.inj (haccounts _ _ haccount)).trans (Except.ok.inj (haccounts' _ _ haccount')).symm
  obtain rfl := Option.some.inj hsame
  obtain ⟨hseq, hdata⟩ := (makeEvent_fromBody hmade).agree (makeEvent_fromBody hmade')
  refine ⟨hseq, hdata, rfl, eventType_agree hmade hmade', fun hgiven => ?_⟩
  intro dispatcher m r r' store store' d d' y y' hm hfirst hsecond hnext hlive
  have hkey : deliveryKey m (event', account) = deliveryKey m (event, account) := by
    rw [deliveryKey_given m hmade, deliveryKey_given m hmade', hgiven, hseq]
  exact enters_once hm hkey hfirst hsecond hnext hlive

/-! ### The lot of the example, with other headers -/

def lotEvent : ClientEvent := { newLot with seq := 7 }

/-- The lot with a type and a key that nobody has signed. -/
def soldScope : Scope :=
  ⟨"http", some "/hook/sub-1",
    some [(encode "x-lzt-signature", lotSignature), (encode "x-lzt-event-type", encode "lot_sold"),
      (encode "idempotency-key", encode "again")]⟩

def soldEvent : ClientEvent := { lotEvent with eventType := "lot_sold", idempotencyKey := some "again" }

def soldCalls : List HookCall :=
  [⟨.secretResolver "sub-1", .ok (some "whsec")⟩, ⟨.accountResolver "sub-1", .ok (some seller)⟩,
    ⟨.feed soldEvent seller, .ok ⟨.skipped, soldEvent, none⟩⟩,
    ⟨.send (.responseStart 200 [(encode "content-type", encode "application/json")]), .ok ()⟩,
    ⟨.send (.responseBody (encode "\x7b\"ok\":true\x7d")), .ok ()⟩]

/-- The first delivery to `greeter`, over a fresh store. -/
def lotTrace : List Call := [⟨.markIfNew "sub-1:7" 86400, .ok true⟩, ⟨.callback greet ∅, .ok .none⟩]

private theorem delivers_lotTrace :
    Delivers greeter (lotEvent, seller) (.at 1) .empty lotTrace (.ok ⟨.handled, lotEvent, none⟩)
      (MemoryStorage.setIfNotExists .empty "sub-1:7" true (some 86400) (.at 1)).2 :=
  ⟨⟨_, _, rfl, _, _, rfl, rfl, rfl⟩, by decide +kernel, rfl⟩

/-- The body is the same, and the event another one, which is not taken for a duplicate. -/
theorem headers_reroute :
    (lotReceiver.call (lotScope lotSignature) lotIncoming).Runs lotCalls (.ok ()) ∧
      (lotReceiver.call soldScope lotIncoming).Runs soldCalls (.ok ()) ∧
      (feeds lotCalls).map Prod.fst = [lotEvent] ∧ (feeds soldCalls).map Prod.fst = [soldEvent] ∧
      lotEvent.eventType ≠ soldEvent.eventType ∧
      ∃ store store' d d' y y', Delivers greeter (lotEvent, seller) (.at 1) .empty d y store ∧
        Delivers greeter (soldEvent, seller) (.at 2) store d' y' store' ∧
        EntersWalk dayLong (lotEvent, seller) d y ∧ EntersWalk dayLong (soldEvent, seller) d' y' := by
  refine ⟨runs_lotCalls, ⟨_, _, rfl, _, _, rfl, _, _, rfl, _, _, rfl, _, _, rfl, rfl, rfl⟩, rfl, rfl, by decide,
    _, _, lotTrace, [⟨.markIfNew "again" 86400, .ok true⟩], _, .ok ⟨.skipped, soldEvent, none⟩, delivers_lotTrace,
    ⟨⟨_, _, rfl, rfl, rfl⟩, by decide +kernel, rfl⟩, ?_, ?_⟩
  · exact ⟨[], true, _, rfl, by simp⟩
  · exact ⟨[], true, [], rfl, by simp⟩

/-- The same request once more: the second delivery stops at the dedup middleware. -/
theorem replay_agrees_lot :
    ¬ (EntersWalk dayLong (lotEvent, seller) lotTrace (.ok ⟨.handled, lotEvent, none⟩) ∧
      EntersWalk dayLong (lotEvent, seller) [⟨.markIfNew "sub-1:7" 86400, .ok false⟩]
        (.ok ⟨.duplicate, lotEvent, none⟩)) := by
  have haccounts : AccountsBy (fun _ => some seller) lotCalls := resolved_lotCalls.2.1
  have hfed : (lotEvent, seller, .ok ⟨.handled, lotEvent, none⟩) ∈ feeds lotCalls := List.mem_singleton_self _
  obtain ⟨-, -, -, -, honce⟩ := replay_agrees rfl rfl runs_lotCalls runs_lotCalls haccounts haccounts hfed hfed
  refine honce rfl greeter dayLong (.at 1) (.at 2) _ _ _ _ _ _ deduped_greeter delivers_lotTrace
    ⟨⟨_, _, rfl, rfl, rfl⟩, by decide +kernel, rfl⟩ ?_ ?_
  · decide +kernel
  · decide +kernel

end EventusSdk
