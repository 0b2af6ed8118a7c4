import EventusSdk.Dispatcher
import EventusSdk.Signing

/-!
# The webhook receiver

`WebhookReceiver.__call__` as a program that asks the two resolvers, feeds the dispatcher and sends the response.  The
body arrives in messages of which all but the last announce more (`Incoming`); the headers are raw bytes.
-/

namespace EventusSdk

/-! ### The request -/

structure Scope where
  type : String
  path : Option String
  headers : Option (List (Bytes × Bytes))

/-- An `http.request` message. -/
structure Message where
  body : Option Bytes
  moreBody : Option Bool

/-- `message.get("more_body", False)`. -/
def Message.hasMore (m : Message) : Bool := m.moreBody.getD false

/-- `message.get("body", b"")`. -/
def Message.chunk (m : Message) : Bytes := m.body.getD []

/-- The messages of one request: the first that announces no more is the last. -/
inductive Incoming where
  | last (m : Message) (h : m.hasMore = false)
  | more (m : Message) (h : m.hasMore = true) (rest : Incoming)

/-- The body as it was sent. -/
def Incoming.bytes : Incoming → Bytes
  | .last m _ => m.chunk
  | .more m _ rest => m.chunk ++ rest.bytes

/-- `re.compile(r"/([^/]+)/?$")` matched behind a slash; `$` also matches before a final line feed. -/
def matchSegment (cs : List Char) : Option String :=
  let segment := cs.takeWhile (· ≠ '/')
  let behind := cs.dropWhile (· ≠ '/')
  if segment ≠ [] ∧ (behind = [] ∨ behind = ['/'] ∨ behind = ['/', '\n']) then some (String.ofList segment) else none

/-- The search of the pattern: the first slash at which it matches. -/
def searchSubscriptionId : List Char → Option String
  | [] => none
  | c :: cs =>
    if c = '/' then (matchSegment cs).or (searchSubscriptionId cs) else searchSubscriptionId cs

def Scope.subscriptionId (scope : Scope) : Option String := searchSubscriptionId (scope.path.getD "").toList

/-- `bytes.decode("latin-1")`. -/
def decodeLatin1 (bs : Bytes) : String := String.ofList (bs.map fun b => Char.ofNat b.toNat)

/-- `str.lower` of a string of latin-1 characters. -/
def lower (s : String) : String :=
  String.ofList (s.toList.map fun c =>
    if (0x41 ≤ c.toNat ∧ c.toNat ≤ 0x5a) ∨ (0xc0 ≤ c.toNat ∧ c.toNat ≤ 0xde ∧ c.toNat ≠ 0xd7) then
      Char.ofNat (c.toNat + 0x20)
    else c)

def headerMap (rawHeaders : List (Bytes × Bytes)) : Dict String String :=
  rawHeaders.foldl (fun d (k, v) => d.insert (lower (decodeLatin1 k)) (decodeLatin1 v)) ∅

/-- The header that counts under a name: the last one given. -/
def Scope.header (scope : Scope) (name : String) : Option String :=
  (headerMap (scope.headers.getD [])).lookup (lower name)

/-- `_read_body` with the chunks read so far; the second component says that the body is oversize. -/
def readBody (maxBytes : ℕ) : Incoming → List Bytes → ℕ → Bytes × Bool
  | .last m _, chunks, total =>
    if total + m.chunk.length > maxBytes then ([], true) else ((chunks ++ [m.chunk]).flatten, false)
  | .more m _ rest, chunks, total =>
    if total + m.chunk.length > maxBytes then ([], true)
    else readBody maxBytes rest (chunks ++ [m.chunk]) (total + m.chunk.length)

/-! ### The receiver -/

/-- `str.encode()`. -/
def encode (s : String) : Bytes := s.toUTF8.data.toList

/-- What is sent back. -/
inductive Sent where
  | responseStart (status : ℕ) (headers : List (Bytes × Bytes))
  | responseBody (body : Bytes)

inductive HookReq where
  | secretResolver (subscriptionId : String)
  | accountResolver (subscriptionId : String)
  | feed (event : ClientEvent) (account : AccountContext)
  | send (message : Sent)

abbrev HookResp : HookReq → Type
  | .secretResolver _ => Option String
  | .accountResolver _ => Option AccountContext
  | .feed .. => DispatchResult
  | .send _ => Unit

abbrev Hook (α : Type) := Prog HookReq HookResp Exn α

abbrev HookCall := Prog.Event HookReq HookResp Exn

def callHook (r : HookReq) : Hook (HookResp r) := Prog.request r

structure WebhookReceiver where
  lib : Stdlib
  maxBodyBytes : ℕ := 1048576

abbrev Response := ℕ × Bytes

/-- `_json_body`; the texts need no escaping. -/
def jsonBody (code detail : String) : Bytes :=
  encode ("\x7b\"error\": \"" ++ code ++ "\", \"detail\": \"" ++ detail ++ "\"\x7d")

/-- `_HANDLED_OUTCOMES`. -/
def handledOutcomes : List DispatchOutcome := [.handled, .skipped, .duplicate]

namespace WebhookReceiver

/-- The event type: the header if it is there and not empty, else the member of the body. -/
def eventType (receiver : WebhookReceiver) (scope : Scope) (body : Json) : Except Exn String :=
  match (scope.header eventTypeHeader).filter (· ≠ "") with
  | some eventType => .ok eventType
  | none => do (← body.getItem "event_type").toStr receiver.lib

def makeEvent (receiver : WebhookReceiver) (scope : Scope) (body : Json) : Except Exn ClientEvent := do
  let seq ← (← body.getItem "seq").toInt
  let eventType ← receiver.eventType scope body
  let data ← (← body.get "data" (.obj [])).toDict
  return { seq, eventType, data, transport := .webhook, eventId := scope.header eventIdHeader,
           idempotencyKey := scope.header idempotencyHeader }

/-- The end of `_handle`: feed the event, and turn the result into a response. -/
def dispatch (event : ClientEvent) (account : AccountContext) : Hook Response := do
  let result ← Prog.tryCatch
    (do
      let result : DispatchResult ← callHook (.feed event account)
      .ret (some result))
    fun exc => if exc.isException then .ret none else .raise exc
  match result with
  | none => .ret (503, jsonBody "handler_error" "handler raised; retry")
  | some result =>
    if handledOutcomes.contains result.outcome then .ret (200, encode "\x7b\"ok\":true\x7d")
    else .ret (503, jsonBody "handler_error" "handler raised; retry")

/-- The middle of `_handle`, for a body whose signature is right. -/
def accept (receiver : WebhookReceiver) (scope : Scope) (subscriptionId : String) (rawBody : Bytes) : Hook Response :=
  match receiver.lib.loads rawBody with
  | .error exc =>
    if exc = .jsonDecodeError then .ret (400, jsonBody "bad_request" "malformed JSON body") else .raise exc
  | .ok body => do
    let account : Option AccountContext ← callHook (.accountResolver subscriptionId)
    match account with
    | none => .ret (401, jsonBody "unauthorized" "unknown subscription")
    | some account =>
      match receiver.makeEvent scope body with
      | .error exc => if exc.isMalformed then .ret (400, jsonBody "bad_request" "malformed event body") else .raise exc
      | .ok event => dispatch event account

def handle (receiver : WebhookReceiver) (scope : Scope) (incoming : Incoming) : Hook Response :=
  match scope.subscriptionId with
  | none => .ret (400, jsonBody "bad_request" "no subscription id in path")
  | some subscriptionId =>
    let (rawBody, oversize) := readBody receiver.maxBodyBytes incoming [] 0
    if oversize then .ret (413, jsonBody "payload_too_large" "request body exceeds max_body_bytes")
    else do
      let secret : Option String ← callHook (.secretResolver subscriptionId)
      match secret with
      | none => .ret (401, jsonBody "unauthorized" "unknown subscription")
      | some secret =>
        match verifyWebhook receiver.lib secret rawBody (scope.header signatureHeader) with
        | .error exc => .raise exc
        | .ok false => .ret (401, jsonBody "unauthorized" "signature verification failed")
        | .ok true => receiver.accept scope subscriptionId rawBody

/-- `__call__`. -/
def call (receiver : WebhookReceiver) (scope : Scope) (incoming : Incoming) : Hook Unit :=
  if scope.type ≠ "http" then .raise .valueError
  else do
    let (status, body) ← receiver.handle scope incoming
    let _ ← callHook (.send (.responseStart status [(encode "content-type", encode "application/json")]))
    let _ ← callHook (.send (.responseBody body))
    .ret ()

end WebhookReceiver

/-! ### Reading the body -/

theorem readBody_eq (maxBytes : ℕ) (incoming : Incoming) (chunks : List Bytes) (total : ℕ) :
    readBody maxBytes incoming chunks total =
      if total + incoming.bytes.length ≤ maxBytes then (chunks.flatten ++ incoming.bytes, false) else ([], true) := by
  induction incoming generalizing chunks total with
  | last m h =>
    show _ = if total + m.chunk.length ≤ maxBytes then (chunks.flatten ++ m.chunk, false) else ([], true)
    rw [readBody]
    split
    · rw [if_neg (by omega)]
    · rw [if_pos (by omega), List.flatten_append, List.flatten_singleton]
  | more m h rest ih =>
    show _ = if total + (m.chunk ++ rest.bytes).length ≤ maxBytes then
      (chunks.flatten ++ (m.chunk ++ rest.bytes), false) else ([], true)
    rw [readBody, List.length_append]
    split
    · rw [if_neg (by omega)]
    · rw [ih, List.flatten_append, List.flatten_singleton, List.append_assoc, Nat.add_assoc]

/-! ### Runs of the stages -/

section
variable {receiver : WebhookReceiver} {scope : Scope} {t : List HookCall}

private theorem runs_callHook {r : HookReq} {res : Except Exn (HookResp r)} : (callHook r).Runs t res ↔
    t = [⟨r, res⟩] :=
  Prog.runs_request

/-- The status for a result of `feed`. -/
def feedStatus : Except Exn DispatchResult → ℕ
  | .ok result => if handledOutcomes.contains result.outcome then 200 else 503
  | .error _ => 503

/-- The feed is made once; an `Exception` that leaves it is answered, anything else is passed on. -/
private theorem dispatch_runs {event : ClientEvent} {account : AccountContext} {res : Except Exn Response}
    (hrun : (WebhookReceiver.dispatch event account).Runs t res) :
    ∃ x : Except Exn DispatchResult, t = [⟨.feed event account, x⟩] ∧
      (((∀ e, x = .error e → e.isException = true) ∧ ∃ body, res = .ok (feedStatus x, body)) ∨
        ∃ e, x = .error e ∧ e.isException = false ∧ res = .error e) := by
  obtain ⟨x, t', rfl, h⟩ := hrun
  cases x with
  | ok result =>
    have h' : (if handledOutcomes.contains result.outcome then .ret (200, encode "\x7b\"ok\":true\x7d")
      else .ret (503, jsonBody "handler_error" "handler raised; retry") : Hook Response).Runs t' res := h
    split at h'
    · next hc =>
      obtain ⟨rfl, rfl⟩ := h'
      exact ⟨.ok result, rfl, Or.inl ⟨by simp, _, by rw [feedStatus, if_pos hc]⟩⟩
    · next hc =>
      obtain ⟨rfl, rfl⟩ := h'
      exact ⟨.ok result, rfl, Or.inl ⟨by simp, _, by rw [feedStatus, if_neg hc]⟩⟩
  | error e =>
    have h' : ((if e.isException then .ret none else .raise e : Hook (Option DispatchResult)).bind fun result =>
      match result with
      | none => .ret (503, jsonBody "handler_error" "handler raised; retry")
      | some result =>
        if handledOutcomes.contains result.outcome then .ret (200, encode "\x7b\"ok\":true\x7d")
        else .ret (503, jsonBody "handler_error" "handler raised; retry")).Runs t' res := h
    split at h'
    · next he =>
      obtain ⟨rfl, rfl⟩ := h'
      exact ⟨.error e, rfl, Or.inl ⟨fun e' h => Except.error.inj h ▸ he, _, rfl⟩⟩
    · next he =>
      obtain ⟨rfl, rfl⟩ := h'
      exact ⟨.error e, rfl, Or.inr ⟨e, rfl, by simpa using he, rfl⟩⟩

/-- The subscription is named, the body is not too long, and it is signed with the secret. -/
structure Authentic (receiver : WebhookReceiver) (scope : Scope) (incoming : Incoming)
    (subscriptionId secret : String) : Prop where
  named : scope.subscriptionId = some subscriptionId
  short : incoming.bytes.length ≤ receiver.maxBodyBytes
  signed : scope.header signatureHeader = some (signatureValue receiver.lib secret incoming.bytes)

/-- The runs of `_handle`, exit by exit: what was asked, and how it ended. -/
inductive HandleRun (receiver : WebhookReceiver) (scope : Scope) (incoming : Incoming) :
    List HookCall → Except Exn Response → Prop where
  | unnamed (text : Bytes) (hid : scope.subscriptionId = none) : HandleRun receiver scope incoming [] (.ok (400, text))
  | oversize (text : Bytes) (hlen : receiver.maxBodyBytes < incoming.bytes.length) :
      HandleRun receiver scope incoming [] (.ok (413, text))
  | secretRaises (id : String) (e : Exn) :
      HandleRun receiver scope incoming [⟨.secretResolver id, .error e⟩] (.error e)
  | unknown {id : String} (text : Bytes) (hid : scope.subscriptionId = some id) :
      HandleRun receiver scope incoming [⟨.secretResolver id, .ok none⟩] (.ok (401, text))
  | unsigned {id secret : String} (text : Bytes) (hid : scope.subscriptionId = some id)
      (h : verifyWebhook receiver.lib secret incoming.bytes (scope.header signatureHeader) = .ok false) :
      HandleRun receiver scope incoming [⟨.secretResolver id, .ok (some secret)⟩] (.ok (401, text))
  | verifyRaises {id secret : String} {e : Exn} (hid : scope.subscriptionId = some id)
      (hlen : incoming.bytes.length ≤ receiver.maxBodyBytes)
      (h : verifyWebhook receiver.lib secret incoming.bytes (scope.header signatureHeader) = .error e) :
      HandleRun receiver scope incoming [⟨.secretResolver id, .ok (some secret)⟩] (.error e)
  | notJson {id secret : String} (text : Bytes) (ha : Authentic receiver scope incoming id secret)
      (h : receiver.lib.loads incoming.bytes = .error .jsonDecodeError) :
      HandleRun receiver scope incoming [⟨.secretResolver id, .ok (some secret)⟩] (.ok (400, text))
  | loadsRaises {id secret : String} {e : Exn} (ha : Authentic receiver scope incoming id secret)
      (h : receiver.lib.loads incoming.bytes = .error e) (he : e ≠ .jsonDecodeError) :
      HandleRun receiver scope incoming [⟨.secretResolver id, .ok (some secret)⟩] (.error e)
  | accountRaises {id secret : String} (e : Exn) (ha : Authentic receiver scope incoming id secret) :
      HandleRun receiver scope incoming [⟨.secretResolver id, .ok (some secret)⟩, ⟨.accountResolver id, .error e⟩]
        (.error e)
  | noAccount {id secret : String} (text : Bytes) (ha : Authentic receiver scope incoming id secret)
      {body : Json} (hl : receiver.lib.loads incoming.bytes = .ok body) :
      HandleRun receiver scope incoming [⟨.secretResolver id, .ok (some secret)⟩, ⟨.accountResolver id, .ok none⟩]
        (.ok (401, text))
  | malformed {id secret : String} (account : AccountContext) (text : Bytes)
      (ha : Authentic receiver scope incoming id secret) {body : Json}
      (hl : receiver.lib.loads incoming.bytes = .ok body) {e : Exn} (h : receiver.makeEvent scope body = .error e)
      (he : e.isMalformed = true) :
      HandleRun receiver scope incoming
        [⟨.secretResolver id, .ok (some secret)⟩, ⟨.accountResolver id, .ok (some account)⟩] (.ok (400, text))
  | eventRaises {id secret : String} (account : AccountContext) (ha : Authentic receiver scope incoming id secret)
      {body : Json} (hl : receiver.lib.loads incoming.bytes = .ok body) {e : Exn}
      (h : receiver.makeEvent scope body = .error e) (he : e.isMalformed = false) :
      HandleRun receiver scope incoming
        [⟨.secretResolver id, .ok (some secret)⟩, ⟨.accountResolver id, .ok (some account)⟩] (.error e)
  | fed {id secret : String} (account : AccountContext) (text : Bytes)
      (ha : Authentic receiver scope incoming id secret) {body : Json}
      (hl : receiver.lib.loads incoming.bytes = .ok body) {event : ClientEvent}
      (h : receiver.makeEvent scope body = .ok event) (x : Except Exn DispatchResult)
      (hx : ∀ e, x = .error e → e.isException = true) :
      HandleRun receiver scope incoming
        [⟨.secretResolver id, .ok (some secret)⟩, ⟨.accountResolver id, .ok (some account)⟩, ⟨.feed event account, x⟩]
        (.ok (feedStatus x, text))
  | feedRaises {id secret : String} (account : AccountContext) (ha : Authentic receiver scope incoming id secret)
      {body : Json} (hl : receiver.lib.loads incoming.bytes = .ok body) {event : ClientEvent}
      (h : receiver.makeEvent scope body = .ok event) {e : Exn} (he : e.isException = false) :
      HandleRun receiver scope incoming
        [⟨.secretResolver id, .ok (some secret)⟩, ⟨.accountResolver id, .ok (some account)⟩,
          ⟨.feed event account, .error e⟩] (.error e)

variable {incoming : Incoming} {res : Except Exn Response}

private theorem accept_runs {id secret : String} (ha : Authentic receiver scope incoming id secret)
    (hrun : (receiver.accept scope id incoming.bytes).Runs t res) :
    HandleRun receiver scope incoming (⟨.secretResolver id, .ok (some secret)⟩ :: t) res := by
  unfold WebhookReceiver.accept at hrun
  cases hl : receiver.lib.loads incoming.bytes with
  | error e =>
    rw [hl] at hrun
    simp only at hrun
    split at hrun <;> obtain ⟨rfl, rfl⟩ := hrun
    · next he => exact .notJson _ ha (he ▸ hl)
    · next he => exact .loadsRaises ha hl he
  | ok body =>
    rw [hl] at hrun
    obtain ⟨x, t', rfl, h⟩ := hrun
    rcases x with e | _ | account
    · obtain ⟨rfl, rfl⟩ := h
      exact .accountRaises e ha
    · obtain ⟨rfl, rfl⟩ := h
      exact .noAccount _ ha hl
    · have h' : (match receiver.makeEvent scope body with
        | .error exc =>
          if exc.isMalformed then .ret (400, jsonBody "bad_request" "malformed event body") else .raise exc
        | .ok event => WebhookReceiver.dispatch event account : Hook Response).Runs t' res := h
      cases hm : receiver.makeEvent scope body with
      | error e =>
        rw [hm] at h'
        simp only at h'
        split at h' <;> obtain ⟨rfl, rfl⟩ := h'
        · next he => exact .malformed account _ ha hl hm he
        · next he => exact .eventRaises account ha hl hm (by simpa using he)
      | ok event =>
        rw [hm] at h'
        obtain ⟨x, rfl, ⟨hx, text, rfl⟩ | ⟨e, rfl, he, rfl⟩⟩ := dispatch_runs h'
        · exact .fed account text ha hl hm x hx
        · exact .feedRaises account ha hl hm he

private theorem handle_runs (hrun : (receiver.handle scope incoming).Runs t res) :
    HandleRun receiver scope incoming t res := by
  unfold WebhookReceiver.handle at hrun
  cases hs : scope.subscriptionId with
  | none =>
    rw [hs] at hrun
    obtain ⟨rfl, rfl⟩ := hrun
    exact .unnamed _ hs
  | some id =>
    rw [hs] at hrun
    simp only [readBody_eq, Nat.zero_add, List.flatten_nil, List.nil_append] at hrun
    by_cases hlen : incoming.bytes.length ≤ receiver.maxBodyBytes
    · simp only [hlen, ↓reduceIte, Bool.false_eq_true] at hrun
      obtain ⟨x, t', rfl, h⟩ := hrun
      rcases x with e | _ | secret
      · obtain ⟨rfl, rfl⟩ := h
        exact .secretRaises id e
      · obtain ⟨rfl, rfl⟩ := h
        exact .unknown _ hs
      · have h' : (match verifyWebhook receiver.lib secret incoming.bytes (scope.header signatureHeader) with
          | .error exc => .raise exc
          | .ok false => .ret (401, jsonBody "unauthorized" "signature verification failed")
          | .ok true => receiver.accept scope id incoming.bytes : Hook Response).Runs t' res := h
        rcases hv : verifyWebhook receiver.lib secret incoming.bytes (scope.header signatureHeader) with e | _ | _ <;>
          rw [hv] at h'
        · obtain ⟨rfl, rfl⟩ := h'
          exact .verifyRaises hs hlen hv
        · obtain ⟨rfl, rfl⟩ := h'
          exact .unsigned _ hs hv
        · exact accept_runs ⟨hs, hlen, verifyWebhook_eq_true.1 hv⟩ h'
    · simp only [hlen, ↓reduceIte] at hrun
      obtain ⟨rfl, rfl⟩ := hrun
      exact .oversize _ (by omega)

/-- The messages sent. -/
def sends (t : List HookCall) : List Sent :=
  t.filterMap fun
    | ⟨.send message, _⟩ => some message
    | _ => none

/-- After a response of `_handle`, its two messages are sent, unless sending fails. -/
theorem call_runs (htype : scope.type = "http") {res : Except Exn Unit}
    (hrun : (receiver.call scope incoming).Runs t res) :
    (∃ e, HandleRun receiver scope incoming t (.error e) ∧ res = .error e) ∨
    ∃ t₁ t₂ status text, t = t₁ ++ t₂ ∧ HandleRun receiver scope incoming t₁ (.ok (status, text)) ∧
      let start : Sent := .responseStart status [(encode "content-type", encode "application/json")]
      ((∃ e, t₂ = [⟨.send start, .error e⟩] ∧ res = .error e) ∨
        ∃ x, t₂ = [⟨.send start, .ok ()⟩, ⟨.send (.responseBody text), x⟩] ∧ res = x) := by
  simp only [WebhookReceiver.call, htype, ne_eq, not_true_eq_false, ↓reduceIte, Prog.bind_eq, Prog.runs_bind] at hrun
  rcases hrun with ⟨⟨status, text⟩, t₁, t₂, rfl, h₁, h₂⟩ | ⟨e, rfl, h⟩
  · refine Or.inr ⟨t₁, t₂, status, text, rfl, handle_runs h₁, ?_⟩
    rcases h₂ with ⟨_, t₃, t₄, rfl, h₃, h₄⟩ | ⟨e, rfl, h₃⟩ <;> obtain rfl := runs_callHook.1 h₃
    · rcases h₄ with ⟨_, t₅, t₆, rfl, h₅, rfl, rfl⟩ | ⟨e, rfl, h₅⟩ <;> obtain rfl := runs_callHook.1 h₅
      · exact Or.inr ⟨_, rfl, rfl⟩
      · exact Or.inr ⟨_, rfl, rfl⟩
    · exact Or.inl ⟨e, rfl, rfl⟩
  · exact Or.inl ⟨e, handle_runs h, rfl⟩

end

end EventusSdk
