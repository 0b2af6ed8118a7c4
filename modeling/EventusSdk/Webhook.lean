import EventusSdk.Receiver

/-!
# What the webhook receiver guarantees

Two statements about every run of the receiver.  Authentication precedes every effect: accounts are looked up and
events fed only behind a signature that is right for the bytes received.  And every request is answered, apart from
three kinds on which an exception leaves the receiver: a signature header that is not ASCII, a signed body that is no
UTF-8 text, a signed event with an infinite `seq`.
-/

namespace EventusSdk

variable {receiver : WebhookReceiver} {scope : Scope} {incoming : Incoming} {t : List HookCall}

/-! ### Authentication -/

/-- The event carries the `seq` and the `data` of the decoded body. -/
def ClientEvent.FromBody (event : ClientEvent) (body : Json) : Prop :=
  (∃ v, body.getItem "seq" = .ok v ∧ v.toInt = .ok event.seq) ∧
    ∃ v, body.get "data" (.obj []) = .ok v ∧ v.toDict = .ok event.data

/-- The subscription's secret was asked for before, and the request is authentic under it. -/
def AuthenticatedBefore (receiver : WebhookReceiver) (scope : Scope) (incoming : Incoming) (before : List HookCall)
    (subscriptionId : String) : Prop :=
  ∃ secret, (⟨.secretResolver subscriptionId, .ok (some secret)⟩ : HookCall) ∈ before ∧
    Authentic receiver scope incoming subscriptionId secret

/-- An account is asked for, and an event fed, only after authentication; the event is the one in the body, the
account the one of the same subscription. -/
def Authorized (receiver : WebhookReceiver) (scope : Scope) (incoming : Incoming) (before : List HookCall) :
    HookCall → Prop
  | ⟨.accountResolver subscriptionId, _⟩ => AuthenticatedBefore receiver scope incoming before subscriptionId
  | ⟨.feed event account, _⟩ =>
    ∃ subscriptionId, AuthenticatedBefore receiver scope incoming before subscriptionId ∧
      (⟨.accountResolver subscriptionId, .ok (some account)⟩ : HookCall) ∈ before ∧
      ∃ body, receiver.lib.loads incoming.bytes = .ok body ∧ event.FromBody body
  | _ => True

def feeds (t : List HookCall) : List (ClientEvent × AccountContext × Except Exn DispatchResult) :=
  t.filterMap fun
    | ⟨.feed event account, x⟩ => some (event, account, x)
    | _ => none

private theorem feeds_append_sent {t₁ t₂ : List HookCall} (h : ∀ call ∈ t₂, ∃ message, call.1 = .send message) :
    feeds (t₁ ++ t₂) = feeds t₁ := by
  have hnil : feeds t₂ = [] := List.filterMap_eq_nil_iff.2 fun call hc => by
    obtain ⟨message, hm⟩ := h call hc
    obtain ⟨r, x⟩ := call
    cases hm
    rfl
  rw [feeds, List.filterMap_append, ← feeds, ← feeds, hnil, List.append_nil]

theorem makeEvent_fromBody {body : Json} {event : ClientEvent} (h : receiver.makeEvent scope body = .ok event) :
    event.FromBody body := by
  obtain ⟨v, hv, h⟩ := except_bind_ok.1 h
  obtain ⟨seq, hseq, h⟩ := except_bind_ok.1 h
  obtain ⟨eventType, -, h⟩ := except_bind_ok.1 h
  obtain ⟨d, hd, h⟩ := except_bind_ok.1 h
  obtain ⟨data, hdata, h⟩ := except_bind_ok.1 h
  cases h
  exact ⟨⟨v, hv, hseq⟩, d, hd, hdata⟩

private theorem HandleRun.authorized {res : Except Exn Response} (h : HandleRun receiver scope incoming t res) :
    Prog.Preceded (Authorized receiver scope incoming) [] t := by
  cases h with
  | accountRaises e ha => exact ⟨trivial, ⟨_, List.mem_singleton_self _, ha⟩, trivial⟩
  | noAccount text ha hl => exact ⟨trivial, ⟨_, List.mem_singleton_self _, ha⟩, trivial⟩
  | malformed account text ha hl hm he => exact ⟨trivial, ⟨_, List.mem_singleton_self _, ha⟩, trivial⟩
  | eventRaises account ha hl hm he => exact ⟨trivial, ⟨_, List.mem_singleton_self _, ha⟩, trivial⟩
  | fed account text ha hl hm x hx =>
    exact ⟨trivial, ⟨_, List.mem_singleton_self _, ha⟩,
      ⟨_, ⟨_, List.mem_cons_self .., ha⟩, by simp, _, hl, makeEvent_fromBody hm⟩, trivial⟩
  | feedRaises account ha hl hm he =>
    exact ⟨trivial, ⟨_, List.mem_singleton_self _, ha⟩,
      ⟨_, ⟨_, List.mem_cons_self .., ha⟩, by simp, _, hl, makeEvent_fromBody hm⟩, trivial⟩
  | unnamed | oversize => trivial
  | _ => exact ⟨trivial, trivial⟩

theorem HandleRun.sends {res : Except Exn Response} (h : HandleRun receiver scope incoming t res) : sends t = [] := by
  cases h <;> rfl

private theorem HandleRun.feeds_length {res : Except Exn Response} (h : HandleRun receiver scope incoming t res) :
    (feeds t).length ≤ 1 := by
  cases h <;> simp [feeds]

private theorem feedStatus_eq_ok {x : Except Exn DispatchResult} (h : feedStatus x = 200) :
    ∃ r, x = .ok r ∧ r.outcome ∈ handledOutcomes := by
  cases x with
  | ok r =>
    refine ⟨r, rfl, ?_⟩
    by_contra hr
    simp [feedStatus, hr] at h
  | error e => simp [feedStatus] at h

/-- The status 200 is that of a fed event that was handled, skipped or a duplicate. -/
theorem HandleRun.ok_of_status {text : Bytes} (h : HandleRun receiver scope incoming t (.ok (200, text))) :
    ∃ event account r, feeds t = [(event, account, .ok r)] ∧ r.outcome ∈ handledOutcomes := by
  generalize hres : (Except.ok (200, text) : Except Exn Response) = res at h
  cases h with
  | fed account text ha hl hm x hx =>
    have hx : 200 = feedStatus x := congrArg Prod.fst (Except.ok.inj hres)
    obtain ⟨r, rfl, hr⟩ := feedStatus_eq_ok hx.symm
    exact ⟨_, account, r, rfl, hr⟩
  | _ => simp at hres

/-- A run of `__call__` is one of `_handle`, and then sends the response. -/
theorem call_handled {res : Except Exn Unit} (hrun : (receiver.call scope incoming).Runs t res) :
    t = [] ∨ ∃ t₁ t₂ r, t = t₁ ++ t₂ ∧ HandleRun receiver scope incoming t₁ r ∧
      (∀ call ∈ t₂, ∃ message, call.1 = .send message) ∧
      ∀ status headers, .responseStart status headers ∈ EventusSdk.sends t₂ → ∃ text, r = .ok (status, text) := by
  by_cases htype : scope.type = "http"
  · refine Or.inr ?_
    rcases call_runs htype hrun with ⟨e, h, -⟩ | ⟨t₁, t₂, status, text, rfl, h, ⟨e, rfl, -⟩ | ⟨x, rfl, -⟩⟩
    · exact ⟨t, [], .error e, (List.append_nil t).symm, h, by simp, by simp [EventusSdk.sends]⟩
    · refine ⟨t₁, _, _, rfl, h, by simp, fun status' headers hm => ⟨text, ?_⟩⟩
      simp only [EventusSdk.sends, List.filterMap_cons, List.filterMap_nil, List.mem_singleton,
        Sent.responseStart.injEq] at hm
      rw [hm.1]
    · refine ⟨t₁, _, _, rfl, h, by simp, fun status' headers hm => ⟨text, ?_⟩⟩
      simp only [EventusSdk.sends, List.filterMap_cons, List.filterMap_nil, List.mem_cons, List.not_mem_nil, or_false,
        reduceCtorEq, Sent.responseStart.injEq] at hm
      rw [hm.1]
  · simp only [WebhookReceiver.call, ne_eq, htype, not_false_eq_true, ↓reduceIte] at hrun
    exact Or.inl hrun.1

/-- Authentication precedes every effect of a webhook; the event fed, at most one, is the one in the signed body; and
200 is answered only to what was handled, skipped or a duplicate. -/
theorem receiver_authenticates {res : Except Exn Unit} (hrun : (receiver.call scope incoming).Runs t res) :
    (∀ before call after, t = before ++ call :: after → Authorized receiver scope incoming before call) ∧
    (feeds t).length ≤ 1 ∧
    ∀ headers, .responseStart 200 headers ∈ sends t →
      ∃ event account r, feeds t = [(event, account, .ok r)] ∧ r.outcome ∈ handledOutcomes := by
  rcases call_handled hrun with rfl | ⟨t₁, t₂, r, rfl, h, hsend, hstatus⟩
  · simp [feeds, sends]
  have hsends : sends (t₁ ++ t₂) = sends t₂ := by
    rw [sends, List.filterMap_append, ← sends, ← sends, h.sends, List.nil_append]
  rw [feeds_append_sent hsend, hsends]
  refine ⟨?_, h.feeds_length, fun headers hm => ?_⟩
  · have hall : Prog.Preceded (Authorized receiver scope incoming) [] (t₁ ++ t₂) := by
      refine Prog.preceded_append.2 ⟨h.authorized, Prog.preceded_of_forall fun call hc before => ?_⟩
      obtain ⟨message, hm⟩ := hsend call hc
      obtain ⟨r, x⟩ := call
      cases hm
      trivial
    exact fun before call after heq => by simpa using Prog.preceded_iff.1 hall before call after heq
  · obtain ⟨text, rfl⟩ := hstatus 200 headers hm
    exact h.ok_of_status

/-! ### Every request is answered -/

/-- Nothing is raised and one response is sent, in its two messages. -/
def Responded (t : List HookCall) (res : Except Exn Unit) : Prop :=
  res = .ok () ∧ ∃ status headers text,
    sends t = [.responseStart status headers, .responseBody text] ∧ status ∈ [200, 400, 401, 413, 503]

/-- The resolvers answer with `secrets` and `accounts`, and no message fails to be sent. -/
def Resolved (secrets : String → Option String) (accounts : String → Option AccountContext) (t : List HookCall) :
    Prop :=
  (∀ id x, (⟨.secretResolver id, x⟩ : HookCall) ∈ t → x = .ok (secrets id)) ∧
  (∀ id x, (⟨.accountResolver id, x⟩ : HookCall) ∈ t → x = .ok (accounts id)) ∧
  ∀ message x, (⟨.send message, x⟩ : HookCall) ∈ t → x = .ok ()

/-- The body names an infinite `seq`. -/
def InfiniteSeq (body : Json) : Prop :=
  body.getItem "seq" = .ok (.float .infinity) ∨ body.getItem "seq" = .ok (.float .negInfinity)

/-- The requests an exception comes of: addressed to a known subscription and not too long, and either presented with a
digest that is not ASCII, or signed with a body that is no text, or that has an infinite `seq`. -/
def Unanswerable (receiver : WebhookReceiver) (secrets : String → Option String)
    (accounts : String → Option AccountContext) (scope : Scope) (incoming : Incoming) : Prop :=
  ∃ id secret, scope.subscriptionId = some id ∧ incoming.bytes.length ≤ receiver.maxBodyBytes ∧
    secrets id = some secret ∧
    ((∃ digest, scope.header signatureHeader = some (signaturePrefix ++ digest) ∧ isAscii digest = false) ∨
      (scope.header signatureHeader = some (signatureValue receiver.lib secret incoming.bytes) ∧
        ((∃ e, receiver.lib.loads incoming.bytes = .error e ∧ e ≠ .jsonDecodeError) ∨
          ∃ account body, accounts id = some account ∧ receiver.lib.loads incoming.bytes = .ok body ∧
            InfiniteSeq body)))

/-- An exception outside `Exception` leaves the dispatcher. -/
def FeedEscapes (t : List HookCall) : Prop :=
  ∃ event account e, (event, account, .error e) ∈ feeds t ∧ e.isException = false

private theorem eventType_error {body : Json} {e : Exn} (h : receiver.eventType scope body = .error e) :
    e.isMalformed = true := by
  unfold WebhookReceiver.eventType at h
  split at h
  · cases h
  · rcases except_bind_error.1 h with h | ⟨v, -, h⟩
    · exact Json.getItem_error h
    · exact Json.toStr_error h

/-- Building the event raises what `_handle` catches, except on an infinite `seq`. -/
private theorem makeEvent_error {body : Json} {e : Exn} (h : receiver.makeEvent scope body = .error e) :
    e.isMalformed = true ∨ InfiniteSeq body := by
  rcases except_bind_error.1 h with h | ⟨v, hv, h⟩
  · exact Or.inl (Json.getItem_error h)
  rcases except_bind_error.1 h with h | ⟨seq, -, h⟩
  · rcases Json.toInt_error h with h | ⟨-, rfl | rfl⟩
    · exact Or.inl h
    · exact Or.inr (Or.inl hv)
    · exact Or.inr (Or.inr hv)
  rcases except_bind_error.1 h with h | ⟨eventType, -, h⟩
  · exact Or.inl (eventType_error h)
  rcases except_bind_error.1 h with h | ⟨d, -, h⟩
  · -- a body that has a member has a method `get`
    obtain ⟨members, rfl⟩ := Json.getItem_ok hv
    cases h
  rcases except_bind_error.1 h with h | ⟨data, -, h⟩
  · exact Or.inl (Json.toDict_error h)
  · cases h

private theorem makeEvent_infinite {body : Json} (h : InfiniteSeq body) :
    receiver.makeEvent scope body = .error .overflowError := by
  rcases h with h | h <;> simp only [WebhookReceiver.makeEvent, h] <;> rfl

section
variable {secrets : String → Option String} {accounts : String → Option AccountContext} {t' : List HookCall}

private theorem Resolved.left (h : Resolved secrets accounts (t ++ t')) : Resolved secrets accounts t :=
  ⟨fun id x hm => h.1 id x (List.mem_append_left _ hm), fun id x hm => h.2.1 id x (List.mem_append_left _ hm),
    fun message x hm => h.2.2 message x (List.mem_append_left _ hm)⟩

private theorem Resolved.secret (h : Resolved secrets accounts t) {id : String} {secret : Option String}
    (hm : (⟨.secretResolver id, .ok secret⟩ : HookCall) ∈ t) : secrets id = secret :=
  (Except.ok.inj (h.1 _ _ hm)).symm

private theorem Resolved.account (h : Resolved secrets accounts t) {id : String} {account : Option AccountContext}
    (hm : (⟨.accountResolver id, .ok account⟩ : HookCall) ∈ t) : accounts id = account :=
  (Except.ok.inj (h.2.1 _ _ hm)).symm

theorem HandleRun.status {status : ℕ} {text : Bytes} (h : HandleRun receiver scope incoming t (.ok (status, text))) :
    status ∈ [200, 400, 401, 413, 503] := by
  generalize hres : (Except.ok (status, text) : Except Exn Response) = res at h
  cases h with
  | fed account text ha hl hm x hx =>
    obtain rfl : status = feedStatus x := congrArg Prod.fst (Except.ok.inj hres)
    unfold feedStatus
    split
    · split <;> simp
    · simp
  | _ => simp at hres <;> simp [hres]

/-- A run of `_handle` that raises comes of such a request, or of such an exception. -/
private theorem HandleRun.unanswerable {e : Exn} (h : HandleRun receiver scope incoming t (.error e))
    (hres : Resolved secrets accounts t) :
    Unanswerable receiver secrets accounts scope incoming ∨ FeedEscapes t := by
  generalize hr : (Except.error e : Except Exn Response) = res at h
  cases h with
  | secretRaises id e => cases hres.1 id _ (List.mem_cons_self ..)
  | verifyRaises hid hlen h =>
    obtain ⟨-, digest, hp, hd⟩ := verifyWebhook_eq_error.1 h
    exact Or.inl ⟨_, _, hid, hlen, hres.secret (List.mem_cons_self ..), Or.inl ⟨digest, hp, hd⟩⟩
  | loadsRaises ha h he =>
    exact Or.inl ⟨_, _, ha.named, ha.short, hres.secret (List.mem_cons_self ..),
      Or.inr ⟨ha.signed, Or.inl ⟨_, h, he⟩⟩⟩
  | accountRaises e ha => cases hres.2.1 _ _ (List.mem_cons_of_mem _ (List.mem_cons_self ..))
  | eventRaises account ha hl h he =>
    rcases makeEvent_error h with hmal | hinf
    · rw [hmal] at he
      cases he
    · have haccount := hres.account (List.mem_cons_of_mem _ (List.mem_cons_self ..))
      exact Or.inl ⟨_, _, ha.named, ha.short, hres.secret (List.mem_cons_self ..),
        Or.inr ⟨ha.signed, Or.inr ⟨account, _, haccount, hl, hinf⟩⟩⟩
  | feedRaises account ha hl h he =>
    exact Or.inr ⟨_, account, _, List.mem_singleton_self _, he⟩
  | _ => cases hr

/-- What is left of an unanswerable request once it is authentic. -/
private theorem Unanswerable.of_authentic {id' secret' : String}
    (h : Unanswerable receiver secrets accounts scope incoming) (ha : Authentic receiver scope incoming id' secret') :
    (∃ e, receiver.lib.loads incoming.bytes = .error e ∧ e ≠ .jsonDecodeError) ∨
      ∃ account body, accounts id' = some account ∧ receiver.lib.loads incoming.bytes = .ok body ∧
        InfiniteSeq body := by
  obtain ⟨id, secret, hid, -, -, ⟨digest, hd, hascii⟩ | ⟨-, h⟩⟩ := h
  · have hv : verifyWebhook receiver.lib secret' incoming.bytes (scope.header signatureHeader) = .error .typeError :=
      verifyWebhook_eq_error.2 ⟨rfl, digest, hd, hascii⟩
    rw [verifyWebhook_eq_true.2 ha.signed] at hv
    cases hv
  · obtain rfl : id = id' := Option.some.inj (hid.symm.trans ha.named)
    exact h

/-- A run of `_handle` that returns comes of no such request. -/
private theorem HandleRun.not_unanswerable {r : Response} (h : HandleRun receiver scope incoming t (.ok r))
    (hres : Resolved secrets accounts t) (hbad : Unanswerable receiver secrets accounts scope incoming) : False := by
  generalize hr : (Except.ok r : Except Exn Response) = res at h
  obtain ⟨id, secret, hid, hlen, hsecret, hpresented⟩ := id hbad
  cases h with
  | unnamed text hnone =>
    rw [hid] at hnone
    cases hnone
  | oversize text hlong => omega
  | unknown text hid' =>
    obtain rfl := Option.some.inj (hid.symm.trans hid')
    cases hsecret.symm.trans (hres.secret (List.mem_cons_self ..))
  | unsigned text hid' hv =>
    obtain rfl := Option.some.inj (hid.symm.trans hid')
    obtain rfl := Option.some.inj (hsecret.symm.trans (hres.secret (List.mem_cons_self ..)))
    rcases hpresented with ⟨digest, hd, hascii⟩ | ⟨hsigned, -⟩
    · rw [verifyWebhook_eq_error.2 ⟨rfl, digest, hd, hascii⟩] at hv
      cases hv
    · rw [verifyWebhook_eq_true.2 hsigned] at hv
      cases hv
  | notJson text ha hl =>
    rcases hbad.of_authentic ha with ⟨e, he, hne⟩ | ⟨_, _, -, h, -⟩
    · exact hne (Except.error.inj (he.symm.trans hl))
    · rw [hl] at h
      cases h
  | noAccount text ha hl =>
    have hnone := hres.account (List.mem_cons_of_mem _ (List.mem_cons_self ..))
    rcases hbad.of_authentic ha with ⟨e, he, -⟩ | ⟨account, _, h, -, -⟩
    · rw [hl] at he
      cases he
    · cases h.symm.trans hnone
  | malformed account text ha hl hm he =>
    rcases hbad.of_authentic ha with ⟨e', h, -⟩ | ⟨_, body, -, h, hinf⟩
    · rw [hl] at h
      cases h
    · obtain rfl := Except.ok.inj (hl.symm.trans h)
      rw [makeEvent_infinite hinf] at hm
      cases hm
      cases he
  | fed account text ha hl hm x hx =>
    rcases hbad.of_authentic ha with ⟨e', h, -⟩ | ⟨_, body, -, h, hinf⟩
    · rw [hl] at h
      cases h
    · obtain rfl := Except.ok.inj (hl.symm.trans h)
      rw [makeEvent_infinite hinf] at hm
      cases hm
  | _ => cases hr

private theorem HandleRun.not_feedEscapes {r : Response} (h : HandleRun receiver scope incoming t (.ok r)) :
    ¬ FeedEscapes t := by
  generalize hr : (Except.ok r : Except Exn Response) = res at h
  rintro ⟨event, account, e, hm, he⟩
  cases h with
  | fed account' text ha hl hm' x hx =>
    have heq := List.mem_singleton.1 hm
    obtain rfl : Except.error e = x := congrArg (·.2.2) heq
    rw [hx e rfl] at he
    cases he
  | secretRaises | verifyRaises | loadsRaises | accountRaises | eventRaises | feedRaises => cases hr
  | _ => exact absurd hm List.not_mem_nil

/-- A request is answered if and only if it is none of these, and nothing outside `Exception` leaves the dispatcher. -/
private theorem responded_iff {res : Except Exn Unit} (htype : scope.type = "http")
    (hrun : (receiver.call scope incoming).Runs t res) (hres : Resolved secrets accounts t) :
    Responded t res ↔ ¬ Unanswerable receiver secrets accounts scope incoming ∧ ¬ FeedEscapes t := by
  rcases call_runs htype hrun with ⟨e, h, rfl⟩ | ⟨t₁, t₂, status, text, rfl, h, hsent⟩
  · refine iff_of_false (by simp [Responded]) fun ⟨hreq, hfeed⟩ => ?_
    rcases h.unanswerable hres with h | h
    · exact hreq h
    · exact hfeed h
  · rcases hsent with ⟨e, rfl, -⟩ | ⟨x, rfl, rfl⟩
    · cases hres.2.2 _ _ (List.mem_append_right _ (List.mem_singleton_self _))
    obtain rfl := hres.2.2 _ _ (List.mem_append_right _ (List.mem_cons_of_mem _ (List.mem_singleton_self _)))
    refine iff_of_true ⟨rfl, status, [(encode "content-type", encode "application/json")], text, ?_, h.status⟩
      ⟨h.not_unanswerable hres.left, fun hesc => ?_⟩
    · rw [sends, List.filterMap_append, ← sends, h.sends]
      rfl
    · rw [FeedEscapes, feeds_append_sent (by simp)] at hesc
      exact h.not_feedEscapes hesc

/-- The feeds are runs of the dispatcher, and nothing outside `Exception` is raised by what it calls or by its
middleware. -/
structure FedBy (dispatcher : Dispatcher) (t : List HookCall) : Prop where
  runs : ∀ event account x, (event, account, x) ∈ feeds t → ∃ calls, (dispatcher.feed event account).Runs calls x ∧
    ∀ call ∈ calls, ∀ e, call.2 = .error e → e.isException = true
  outer : ∀ m ∈ dispatcher.outer, Within (fun _ => True) (fun e => e.isException = true) m
  inner : ∀ m ∈ dispatcher.inner, Within (fun _ => True) (fun e => e.isException = true) m

private theorem FedBy.not_feedEscapes {dispatcher : Dispatcher} (h : FedBy dispatcher t) : ¬ FeedEscapes t := by
  rintro ⟨event, account, e, hm, he⟩
  obtain ⟨calls, hrun, hcalls⟩ := h.runs _ _ _ hm
  have hinner : ∀ callback event data, (chain dispatcher.inner (callCallback callback) event data).Safe (fun _ => True)
      (fun e => e.isException = true) fun _ => True := fun callback =>
    chain_safe h.inner (Dispatcher.callCallback_safe (fun _ _ => trivial) callback)
  have hsafe := Dispatcher.feed_safe (fun _ _ _ => trivial) hinner (fun _ _ => ⟨trivial, trivial⟩) h.outer event account
  rw [(hsafe.runs hrun hcalls).2.1 e rfl] at he
  cases he

/-- Every request is answered if and only if it is none of these kinds, as long as the application raises nothing
outside `Exception`. -/
theorem receiver_responds_iff {res : Except Exn Unit} (htype : scope.type = "http")
    (hrun : (receiver.call scope incoming).Runs t res) (hres : Resolved secrets accounts t) :
    (Responded t res ↔ ¬ Unanswerable receiver secrets accounts scope incoming ∧ ¬ FeedEscapes t) ∧
    ∀ dispatcher, FedBy dispatcher t →
      (Responded t res ↔ ¬ Unanswerable receiver secrets accounts scope incoming) := by
  have hiff := responded_iff htype hrun hres
  exact ⟨hiff, fun dispatcher hfed => by rw [hiff, and_iff_left hfed.not_feedEscapes]⟩

end

/-! ### What is fed -/

/-- A fed event was made of the signed body, for the account of the subscription. -/
private theorem HandleRun.fed_event {res : Except Exn Response} {event : ClientEvent} {account : AccountContext}
    {x : Except Exn DispatchResult} (h : HandleRun receiver scope incoming t res)
    (hm : (event, account, x) ∈ feeds t) :
    ∃ id secret body, Authentic receiver scope incoming id secret ∧
      (⟨.secretResolver id, .ok (some secret)⟩ : HookCall) ∈ t ∧
      (⟨.accountResolver id, .ok (some account)⟩ : HookCall) ∈ t ∧
      receiver.lib.loads incoming.bytes = .ok body ∧ receiver.makeEvent scope body = .ok event := by
  cases h with
  | fed account' text ha hl hm' x' hx =>
    cases List.mem_singleton.1 hm
    exact ⟨_, _, _, ha, by simp, by simp, hl, hm'⟩
  | feedRaises account' ha hl hm' he =>
    cases List.mem_singleton.1 hm
    exact ⟨_, _, _, ha, by simp, by simp, hl, hm'⟩
  | _ => exact absurd hm List.not_mem_nil

/-- Everything that goes into a fed event follows from the request and the resolvers. -/
theorem Authentic.fed_eq {accounts : String → Option AccountContext} {id id' secret secret' : String}
    {account account' : AccountContext} {body body' : Json} {event event' : ClientEvent}
    (ha : Authentic receiver scope incoming id secret) (ha' : Authentic receiver scope incoming id' secret')
    (haccount : accounts id = some account) (haccount' : accounts id' = some account')
    (hl : receiver.lib.loads incoming.bytes = .ok body) (hl' : receiver.lib.loads incoming.bytes = .ok body')
    (hmade : receiver.makeEvent scope body = .ok event) (hmade' : receiver.makeEvent scope body' = .ok event') :
    event' = event ∧ account' = account := by
  obtain rfl := Option.some.inj (ha.named.symm.trans ha'.named)
  obtain rfl := Except.ok.inj (hl.symm.trans hl')
  exact ⟨Except.ok.inj (hmade'.symm.trans hmade), Option.some.inj (haccount'.symm.trans haccount)⟩

/-- The event made of an authentic body is fed to the account of the subscription. -/
theorem HandleRun.feeds_made {secrets : String → Option String} {accounts : String → Option AccountContext}
    {res : Except Exn Response} {id secret : String} {account : AccountContext} {body : Json} {event : ClientEvent}
    (h : HandleRun receiver scope incoming t res) (hres : Resolved secrets accounts t)
    (ha : Authentic receiver scope incoming id secret) (hsecret : secrets id = some secret)
    (haccount : accounts id = some account) (hl : receiver.lib.loads incoming.bytes = .ok body)
    (hmade : receiver.makeEvent scope body = .ok event) : ∃ x, (event, account, x) ∈ feeds t := by
  have hverify := verifyWebhook_eq_true.2 ha.signed
  cases h with
  | unnamed text hid =>
    rw [ha.named] at hid
    cases hid
  | oversize text hlen => exact absurd ha.short (by omega)
  | secretRaises id' e => cases hres.1 id' _ (List.mem_cons_self ..)
  | unknown text hid =>
    obtain rfl := Option.some.inj (ha.named.symm.trans hid)
    cases hsecret.symm.trans (hres.secret (List.mem_cons_self ..))
  | unsigned text hid hv =>
    obtain rfl := Option.some.inj (ha.named.symm.trans hid)
    obtain rfl := Option.some.inj (hsecret.symm.trans (hres.secret (List.mem_cons_self ..)))
    rw [hverify] at hv
    cases hv
  | verifyRaises hid hlen hv =>
    obtain rfl := Option.some.inj (ha.named.symm.trans hid)
    obtain rfl := Option.some.inj (hsecret.symm.trans (hres.secret (List.mem_cons_self ..)))
    rw [hverify] at hv
    cases hv
  | notJson text ha' hl' =>
    rw [hl] at hl'
    cases hl'
  | loadsRaises ha' hl' he =>
    rw [hl] at hl'
    cases hl'
  | accountRaises e ha' => cases hres.2.1 _ _ (List.mem_cons_of_mem _ (List.mem_cons_self ..))
  | noAccount text ha' hl' =>
    obtain rfl := Option.some.inj (ha.named.symm.trans ha'.named)
    cases haccount.symm.trans (hres.account (List.mem_cons_of_mem _ (List.mem_cons_self ..)))
  | malformed account' text ha' hl' hm he =>
    obtain rfl := Except.ok.inj (hl.symm.trans hl')
    rw [hmade] at hm
    cases hm
  | eventRaises account' ha' hl' hm he =>
    obtain rfl := Except.ok.inj (hl.symm.trans hl')
    rw [hmade] at hm
    cases hm
  | fed account' text ha' hl' hm x hx =>
    have haccount' := hres.account (List.mem_cons_of_mem _ (List.mem_cons_self ..))
    obtain ⟨rfl, rfl⟩ := ha.fed_eq ha' haccount haccount' hl hl' hmade hm
    exact ⟨x, List.mem_singleton_self _⟩
  | feedRaises account' ha' hl' hm he =>
    have haccount' := hres.account (List.mem_cons_of_mem _ (List.mem_cons_self ..))
    obtain ⟨rfl, rfl⟩ := ha.fed_eq ha' haccount haccount' hl hl' hmade hm
    exact ⟨_, List.mem_singleton_self _⟩

theorem call_fed_event {res : Except Exn Unit} {event : ClientEvent} {account : AccountContext}
    {x : Except Exn DispatchResult} (hrun : (receiver.call scope incoming).Runs t res)
    (hm : (event, account, x) ∈ feeds t) :
    ∃ id secret body, Authentic receiver scope incoming id secret ∧
      (⟨.secretResolver id, .ok (some secret)⟩ : HookCall) ∈ t ∧
      (⟨.accountResolver id, .ok (some account)⟩ : HookCall) ∈ t ∧
      receiver.lib.loads incoming.bytes = .ok body ∧ receiver.makeEvent scope body = .ok event := by
  rcases call_handled hrun with rfl | ⟨t₁, t₂, r, rfl, h, hsend, -⟩
  · cases hm
  · rw [feeds_append_sent hsend] at hm
    obtain ⟨id, secret, body, ha, hsecret, haccount, hl, hmade⟩ := h.fed_event hm
    exact ⟨id, secret, body, ha, List.mem_append_left _ hsecret, List.mem_append_left _ haccount, hl, hmade⟩

theorem call_feeds_made {secrets : String → Option String} {accounts : String → Option AccountContext}
    {res : Except Exn Unit} {id secret : String} {account : AccountContext} {body : Json} {event : ClientEvent}
    (htype : scope.type = "http") (hrun : (receiver.call scope incoming).Runs t res)
    (hres : Resolved secrets accounts t) (ha : Authentic receiver scope incoming id secret)
    (hsecret : secrets id = some secret) (haccount : accounts id = some account)
    (hl : receiver.lib.loads incoming.bytes = .ok body) (hmade : receiver.makeEvent scope body = .ok event) :
    ∃ x, (event, account, x) ∈ feeds t := by
  rcases call_runs htype hrun with ⟨e, h, -⟩ | ⟨t₁, t₂, status, text, rfl, h, ⟨e, rfl, -⟩ | ⟨x, rfl, -⟩⟩
  · exact h.feeds_made hres ha hsecret haccount hl hmade
  · rw [feeds_append_sent (by simp)]
    exact h.feeds_made hres.left ha hsecret haccount hl hmade
  · rw [feeds_append_sent (by simp)]
    exact h.feeds_made hres.left ha hsecret haccount hl hmade

/-! ### One lot, signed, and with a digest that is not ASCII -/

def lotBody : Bytes := encode "\x7b\"seq\":7,\"event_type\":\"new_lot\"\x7d"

def lotLib : Stdlib where
  hexdigest := fun _ _ => "1563f1570e03f247d90e658bf4549c92abb1ce8e877d01981bccc84b67e9c618"
  hexdigest_ascii := fun _ _ => rfl
  loads := fun _ => .ok (.obj [("seq", .int 7), ("event_type", .str "new_lot")])
  repr := fun _ => .ok ""
  repr_error := fun _ _ h => by cases h

def lotReceiver : WebhookReceiver := { lib := lotLib }

def lotScope (signature : Bytes) : Scope := ⟨"http", some "/hook/sub-1", some [(encode "x-lzt-signature", signature)]⟩

def lotIncoming : Incoming := .last ⟨some lotBody, none⟩ rfl

def lotSignature : Bytes := encode "sha256=1563f1570e03f247d90e658bf4549c92abb1ce8e877d01981bccc84b67e9c618"

/-- The lot is fed and handled. -/
def lotCalls : List HookCall :=
  [⟨.secretResolver "sub-1", .ok (some "whsec")⟩, ⟨.accountResolver "sub-1", .ok (some seller)⟩,
    ⟨.feed { newLot with seq := 7 } seller, .ok ⟨.handled, { newLot with seq := 7 }, none⟩⟩,
    ⟨.send (.responseStart 200 [(encode "content-type", encode "application/json")]), .ok ()⟩,
    ⟨.send (.responseBody (encode "\x7b\"ok\":true\x7d")), .ok ()⟩]

theorem runs_lotCalls : (lotReceiver.call (lotScope lotSignature) lotIncoming).Runs lotCalls (.ok ()) :=
  ⟨_, _, rfl, _, _, rfl, _, _, rfl, _, _, rfl, _, _, rfl, rfl, rfl⟩

theorem resolved_lotCalls : Resolved (fun _ => some "whsec") (fun _ => some seller) lotCalls := by
  refine ⟨by simp [lotCalls], by simp [lotCalls], fun message x hm => ?_⟩
  simp only [lotCalls, List.mem_cons, Sigma.mk.injEq, reduceCtorEq, false_and, HookReq.send.injEq, List.not_mem_nil,
    or_false, false_or] at hm
  rcases hm with ⟨rfl, h⟩ | ⟨rfl, h⟩ <;> exact eq_of_heq h

private theorem fedBy_lotCalls : FedBy { root := greetRouter } lotCalls where
  runs := by
    intro event account x hm
    cases List.mem_singleton.1 hm
    exact ⟨[⟨.callback greet ∅, .ok .none⟩], ⟨_, _, rfl, rfl, rfl⟩, by simp⟩
  outer := by simp
  inner := by simp

theorem receiver_authenticates_lot :
    AuthenticatedBefore lotReceiver (lotScope lotSignature) lotIncoming (lotCalls.take 1) "sub-1" ∧
    (feeds lotCalls).length ≤ 1 ∧
    ∃ event account r, feeds lotCalls = [(event, account, .ok r)] ∧ r.outcome ∈ handledOutcomes := by
  obtain ⟨hauth, hlen, hok⟩ := receiver_authenticates runs_lotCalls
  exact ⟨hauth (lotCalls.take 1) _ (lotCalls.drop 2) rfl, hlen, hok _ (List.mem_cons_self ..)⟩

theorem receiver_responds_lot :
    ¬ Unanswerable lotReceiver (fun _ => some "whsec") (fun _ => some seller) (lotScope lotSignature) lotIncoming :=
  ((receiver_responds_iff rfl runs_lotCalls resolved_lotCalls).2 _ fedBy_lotCalls).1
    ⟨rfl, 200, _, _, rfl, by simp⟩

/-- The same lot with a digest that is not ASCII: no response is sent. -/
theorem receiver_silent :
    ∃ t res, (lotReceiver.call (lotScope (encode "sha256=" ++ [0xe9])) lotIncoming).Runs t res ∧
      Resolved (fun _ => some "whsec") (fun _ => some seller) t ∧ FedBy { root := greetRouter } t ∧
      ¬ Responded t res := by
  refine ⟨[⟨.secretResolver "sub-1", .ok (some "whsec")⟩], .error .typeError, ⟨_, _, rfl, rfl, rfl⟩,
    by simp [Resolved], ⟨?_, by simp, by simp⟩, by simp [Responded]⟩
  intro event account x hm
  exact absurd hm List.not_mem_nil

end EventusSdk
