import EventusSdk.Operations

/-!
# The management API

What the operations of the client are for: an engine with a state of its own carries out operations, and answers each
with a reply or a fault.  On the wire it decodes a request into an operation and encodes its answer.  A program over the
operations does over HTTP what it does on the engine itself.
-/

namespace EventusSdk

abbrev KindedScope := {scope : SubscriptionScope // scope.WellKinded}

abbrev KindedCtx := {ctx : SubscriptionCtx // ctx.WellKinded}

inductive Operation where
  | createSubscription (transport endpoint : String) (eventTypes : List String) (scope : Option KindedScope)
      (ctx : Option KindedCtx) (backfill : Bool)
  | listSubscriptions (limit offset : Int) (activeOnly : Bool)
  | getSubscription (subscriptionId : String)
  | updateSubscription (subscriptionId : String) (eventTypes : Option (List String)) (scope : Option KindedScope)
      (active : Option Bool)
  | deactivateSubscription (subscriptionId : String)
  | pollPending (subscriptionId : String) (eventType : List String) (limit : Int) (readAll : Bool)
  | confirmRead (subscriptionId : String) (upToSeq : Int)
  | emitEvent (eventType aggregateId : String) (payload fields : List (String × Json))
  | listEventTypes
  | health

section
variable {lib : ClientLib} {times : Timestamps}

/-- The scope and the context have the `kind` of their class. -/
def SubscriptionInfo.WellKinded (info : SubscriptionInfo times) : Prop := info.scope.WellKinded ∧ info.ctx.WellKinded

variable (times) in
/-- What an operation returns. -/
abbrev Operation.Result : Operation → Type
  | createSubscription .. => SubscriptionCreated times
  | listSubscriptions .. => SubscriptionPage times
  | getSubscription .. | updateSubscription .. => SubscriptionInfo times
  | deactivateSubscription .. => Unit
  | pollPending .. => Models.PendingBatch
  | confirmRead .. => Int
  | emitEvent .. => Models.EmittedEvent
  | listEventTypes => List Json
  | health => Bool

variable (times) in
/-- What the engine has to say to an operation. -/
abbrev Operation.Reply : Operation → Type
  | createSubscription .. => {created : SubscriptionCreated times // created.WellKinded}
  | listSubscriptions .. => {page : SubscriptionPage times // ∀ info ∈ page.items, info.WellKinded}
  | getSubscription .. | updateSubscription .. => {info : SubscriptionInfo times // info.WellKinded}
  | deactivateSubscription .. | health => Unit
  | pollPending .. => Models.PendingBatch
  | confirmRead .. => Int
  | emitEvent .. => Models.EmittedEvent
  | listEventTypes => List Json

/-- An operation fails: the engine refuses it, or cannot be reached.  `text` is what Python prints of the detail. -/
inductive Fault (lib : ClientLib) where
  | refused (status : ℕ) (code : String) (detail : List (String × Json)) (requestId : Option String) (text : String)
      (hstatus : 400 ≤ status) (htext : lib.repr (.obj detail) = .ok text)
  | unreachable (reason text : String) (htext : lib.repr (.obj [("reason", .str reason)]) = .ok text)

def requestIdJson : Option String → Json
  | some id => .str id
  | none => .null

/-- The error a fault becomes. -/
def Fault.error : Fault lib → ManagementApiError
  | .refused status code detail requestId text _ _ =>
    { cls := (codeMap.lookup code).getD ((statusFallback.lookup status).getD .managementApiError)
      status, code := .str code, detail := .obj detail, requestId := requestIdJson requestId
      message := code ++ " (" ++ toString status ++ "): " ++ text }
  | .unreachable reason text _ =>
    { cls := .managementApiConnectionError, status := 0, code := .str "connection_error"
      detail := .obj [("reason", .str reason)], requestId := .null
      message := "connection_error" ++ " (" ++ toString 0 ++ "): " ++ text }

/-- The value an operation returns for a reply. -/
def Operation.value : (op : Operation) → op.Reply times → op.Result times
  | createSubscription .., created => created.1
  | listSubscriptions .., page => page.1
  | getSubscription .., info | updateSubscription .., info => info.1
  | health, _ => true
  | deactivateSubscription .., reply | pollPending .., reply | confirmRead .., reply | emitEvent .., reply
  | listEventTypes, reply => reply

/-- What becomes of the engine's answer; `health` makes a bool of it. -/
def Operation.outcome : (op : Operation) → Except (Fault lib) (op.Reply times) →
    Except RequestFailure (op.Result times)
  | op, .ok reply => .ok (op.value reply)
  | health, .error _ => .ok false
  | _, .error f => .error (.api f.error)

/-! ### Operations as requests -/

def Json.str? : Json → Option String
  | .str s => some s
  | _ => none

def Json.int? : Json → Option Int
  | .int n => some n
  | _ => none

def Json.bool? : Json → Option Bool
  | .bool b => some b
  | _ => none

def Json.obj? : Json → Option (List (String × Json))
  | .obj members => some members
  | _ => none

def Json.strs? : Json → Option (List String)
  | .arr items => items.mapM Json.str?
  | _ => none

def KindedScope.read (v : Json) : Option KindedScope :=
  match h : parseScope v with
  | .ok scope => some ⟨scope, parseScope_wellKinded h⟩
  | .error _ => none

def KindedCtx.read (v : Json) : Option KindedCtx :=
  match h : parseCtx v with
  | .ok ctx => some ⟨ctx, parseCtx_wellKinded h⟩
  | .error _ => none

/-- A member that has to be there. -/
def member {α : Type} (members : List (String × Json)) (name : String) (read : Json → Option α) : Option α :=
  (members.lookup name).bind read

/-- A member that may be left out. -/
def optionalMember {α : Type} (members : List (String × Json)) (name : String) (read : Json → Option α) :
    Option (Option α) :=
  match members.lookup name with
  | some v => (read v).map some
  | none => some none

/-- What the engine takes a request for. -/
def Operation.ofRequest (r : HttpRequest) : Option Operation :=
  let body := r.jsonBody.getD []
  let params := r.params.getD []
  match r.method, r.path with
  | "POST", "/subscriptions/create" => do
    let transport ← member body "transport" Json.str?
    let endpoint ← member body "endpoint" Json.str?
    let eventTypes ← member body "event_types" Json.strs?
    let scope ← optionalMember body "scope" KindedScope.read
    let ctx ← optionalMember body "ctx" KindedCtx.read
    let backfill ← member body "backfill" Json.bool?
    return createSubscription transport endpoint eventTypes scope ctx backfill
  | "GET", "/subscriptions/list" => do
    let limit ← member params "limit" Json.int?
    let offset ← member params "offset" Json.int?
    let activeOnly ← member params "active_only" Json.bool?
    return listSubscriptions limit offset activeOnly
  | "GET", "/subscriptions/get" => do
    return getSubscription (← member params "subscription_id" Json.str?)
  | "POST", "/subscriptions/update" => do
    let subscriptionId ← member body "subscription_id" Json.str?
    let eventTypes ← optionalMember body "event_types" Json.strs?
    let scope ← optionalMember body "scope" KindedScope.read
    let active ← optionalMember body "active" Json.bool?
    return updateSubscription subscriptionId eventTypes scope active
  | "POST", "/subscriptions/deactivate" => do
    return deactivateSubscription (← member body "subscription_id" Json.str?)
  | "GET", "/events/pending" => do
    let subscriptionId ← member params "subscription_id" Json.str?
    let eventType ← optionalMember params "event_type" Json.strs?
    let limit ← member params "limit" Json.int?
    let readAll ← member params "read_all" Json.bool?
    return pollPending subscriptionId (eventType.getD []) limit readAll
  | "POST", "/events/read_events" => do
    return confirmRead (← member body "subscription_id" Json.str?) (← member body "up_to_seq" Json.int?)
  | "POST", "/admin/events/emit" => do
    let eventType ← member body "event_type" Json.str?
    let aggregateId ← member body "aggregate_id" Json.str?
    let payload ← member body "payload" Json.obj?
    let fields ← member body "fields" Json.obj?
    return emitEvent eventType aggregateId payload fields
  | "GET", "/event-types" => some listEventTypes
  | "GET", "/healthz" => some health
  | _, _ => none

variable (lib times) in
/-- The method of the client for an operation. -/
def Operation.perform : (op : Operation) → Http (op.Result times)
  | createSubscription transport endpoint eventTypes scope ctx backfill =>
    ManagementClient.createSubscription lib times transport endpoint eventTypes (scope.map Subtype.val)
      (ctx.map Subtype.val) backfill
  | listSubscriptions limit offset activeOnly => ManagementClient.listSubscriptions lib times limit offset activeOnly
  | getSubscription subscriptionId => ManagementClient.getSubscription lib times subscriptionId
  | updateSubscription subscriptionId eventTypes scope active =>
    ManagementClient.updateSubscription lib times subscriptionId eventTypes (scope.map Subtype.val) active
  | deactivateSubscription subscriptionId => ManagementClient.deactivateSubscription lib subscriptionId
  | pollPending subscriptionId eventType limit readAll =>
    ManagementClient.pollPending lib subscriptionId (some eventType) limit readAll
  | confirmRead subscriptionId upToSeq => ManagementClient.confirmRead lib subscriptionId upToSeq
  | emitEvent eventType aggregateId payload fields =>
    ManagementClient.emitEvent lib eventType aggregateId (some payload) (some fields)
  | listEventTypes => ManagementClient.listEventTypes lib
  | health => ManagementClient.health lib

/-! ### Answers as responses -/

/-- How the engine writes points in time, so that `datetime.fromisoformat` reads them. -/
structure IsoText (times : Timestamps) where
  text : times.DateTime → String
  read_text : ∀ d, times.fromisoformat (text d) = .ok d

variable (iso : IsoText times)

def SubscriptionInfo.members (info : SubscriptionInfo times) : List (String × Json) :=
  [("subscription_id", info.subscriptionId), ("transport", info.transport), ("endpoint", info.endpoint),
    ("event_types", .arr info.eventTypes), ("scope", .obj info.scope.asdict), ("ctx", .obj info.ctx.asdict),
    ("active", info.active), ("created_at", .str (iso.text info.createdAt))]

def SubscriptionCreated.members (created : SubscriptionCreated times) : List (String × Json) :=
  created.toSubscriptionInfo.members iso ++ [("secret", created.secret), ("stream_token", created.streamToken)]

def SubscriptionPage.members (page : SubscriptionPage times) : List (String × Json) :=
  [("items", .arr (page.items.map fun info => .obj (info.members iso))), ("total", page.total),
    ("limit", page.limit), ("offset", page.offset)]

def Models.PendingEvent.members (i : Models.PendingEvent) : List (String × Json) :=
  [("seq", i.seq), ("event_type", i.eventType), ("data", i.data)]

def Models.PendingBatch.members (batch : Models.PendingBatch) : List (String × Json) :=
  [("subscription_id", batch.subscriptionId), ("items", .arr (batch.items.map fun i => .obj i.members)),
    ("next_seq", batch.nextSeq), ("last_read_seq", batch.lastReadSeq), ("drained", batch.drained),
    ("committed", batch.committed)]

def Models.EmittedEvent.members (emitted : Models.EmittedEvent) : List (String × Json) :=
  [("event_id", emitted.eventId), ("event_type", emitted.eventType), ("seq", .int emitted.seq)]

/-- The body of a reply. -/
def Operation.body : (op : Operation) → op.Reply times → List (String × Json)
  | createSubscription .., created => [("data", .obj (created.1.members iso))]
  | listSubscriptions .., page => page.1.members iso
  | getSubscription .., info | updateSubscription .., info => [("data", .obj (info.1.members iso))]
  | deactivateSubscription .., _ | health, _ => [("ok", .bool true)]
  | pollPending .., batch => batch.members
  | confirmRead subscriptionId _, lastSeq => [("subscription_id", .str subscriptionId), ("last_seq", .int lastSeq)]
  | emitEvent .., emitted => emitted.members
  | listEventTypes, eventTypes => [("data", .arr eventTypes)]

/-- What the client gets to see of the engine's answer. -/
def Operation.answer (op : Operation) : Except (Fault lib) (op.Reply times) → HttpAnswer
  | .ok reply => answerOf 200 (.obj (op.body iso reply))
  | .error (.refused status code detail requestId ..) =>
    answerOf status (.obj [("error", .str code), ("detail", .obj detail), ("request_id", requestIdJson requestId)])
  | .error (.unreachable reason ..) => .httpError reason

/-- An engine: what it does for each operation, and what it answers. -/
abbrev Engine (lib : ClientLib) (times : Timestamps) (σ : Type) :=
  (op : Operation) → σ → Except (Fault lib) (op.Reply times) × σ

/-- The engine behind HTTP. -/
def Engine.wire {σ : Type} (engine : Engine lib times σ) :
    Prog.Env HttpRequest (fun _ => HttpAnswer) RequestFailure σ := fun r s =>
  match Operation.ofRequest r with
  | some op => (.ok (op.answer iso (engine op s).1), (engine op s).2)
  | none => (.ok (answerOf 404 (.obj [("error", .str "not_found")])), s)

/-- The engine itself, as the caller of an operation sees it. -/
def Engine.direct {σ : Type} (engine : Engine lib times σ) :
    Prog.Env Operation (Operation.Result times) RequestFailure σ := fun op s =>
  (op.outcome (engine op s).1, (engine op s).2)

end

/-! ### Every operation is understood -/

private theorem strs_texts (values : List String) : (ManagementClient.texts values).strs? = some values := by
  have h : ∀ values : List String, (values.map Json.str).mapM Json.str? = some values := by
    intro values
    induction values with
    | nil => rfl
    | cons v values ih => simp [List.mapM_cons, ih, Json.str?]
  exact h values

private theorem KindedScope.read_asdict (scope : KindedScope) :
    KindedScope.read (.obj scope.1.asdict) = some scope := by
  have h := parseScope_asdict.2 scope.2
  unfold KindedScope.read
  split
  · next scope' h' => exact congrArg some (Subtype.ext (Except.ok.inj (h'.symm.trans h)))
  · next e h' => exact absurd (h'.symm.trans h) (by simp)

private theorem KindedCtx.read_asdict (ctx : KindedCtx) : KindedCtx.read (.obj ctx.1.asdict) = some ctx := by
  have h := parseCtx_asdict.2 ctx.2
  unfold KindedCtx.read
  split
  · next ctx' h' => exact congrArg some (Subtype.ext (Except.ok.inj (h'.symm.trans h)))
  · next e h' => exact absurd (h'.symm.trans h) (by simp)

section
variable {lib : ClientLib} {times : Timestamps} {iso : IsoText times} {σ : Type} {engine : Engine lib times σ}
  {op : Operation} {r : HttpRequest} {f : Fault lib} {α : Type}

private theorem errorOfBody_refused {status : ℕ} {code : String} {detail : List (String × Json)}
    {requestId : Option String} {text : String} (htext : lib.repr (.obj detail) = .ok text) (hstatus : 400 ≤ status) :
    errorOfBody lib status
        (.obj [("error", .str code), ("detail", .obj detail), ("request_id", requestIdJson requestId)]) =
      .ok (Fault.refused status code detail requestId text hstatus htext).error := by
  -- `body.get("detail") or {}` is the detail also where that is empty
  have hdetail : (if (Json.obj detail).truthy = true then Json.obj detail else .obj []) = .obj detail := by
    cases detail <;> simp [Json.truthy]
  simp [errorOfBody, Json.get, List.lookup_cons, buildError, classOfCode, ManagementApiError.build, Json.toStr, htext,
    hdetail, Fault.error, bind, Except.bind, pure, Except.pure]

/-- What `_request` makes of the engine's answer. -/
private theorem request_answer (op : Operation) (x : Except (Fault lib) (op.Reply times)) :
    EventusSdk.request lib (op.answer iso x) =
      (x.map fun reply => Json.obj (op.body iso reply)).mapError fun f => .api f.error := by
  rcases x with (⟨status, code, detail, requestId, text, hstatus, htext⟩ | ⟨reason, text, htext⟩) | reply
  · simp only [Operation.answer, answerOf, EventusSdk.request, ge_iff_le, hstatus, if_true,
      errorOfBody_refused htext hstatus]
    rfl
  · simp [Operation.answer, EventusSdk.request, connectionError, ManagementApiError.build, Json.toStr, htext,
      Fault.error, raiseBuilt, bind, Except.bind, pure, Except.pure, Except.map, Except.mapError]
  · rfl

/-- A request that the engine understands, and what is made of the body. -/
private theorem run_exchange (iso : IsoText times) (engine : Engine lib times σ) (op : Operation)
    (hr : Operation.ofRequest r = some op) (read : Json → Except Exn α) (s : σ) :
    ((ManagementClient.request lib r).bind fun body => reading (read body)).run (engine.wire iso) s =
      ⟨((engine op s).1.mapError fun f => RequestFailure.api f.error).bind fun reply =>
          (read (.obj (op.body iso reply))).mapError .other,
        (engine op s).2, [⟨r, .ok (op.answer iso (engine op s).1)⟩]⟩ := by
  have hanswer : engine.wire iso r s = (.ok (op.answer iso (engine op s).1), (engine op s).2) := by
    simp only [Engine.wire, hr]
  have hrequest := Prog.run_request (engine.wire iso) r s
  rw [hanswer] at hrequest
  have hbody := Prog.run_bind_ok (f := fun answer => Prog.ofExcept (EventusSdk.request lib answer)) hrequest
  rw [Prog.run_ofExcept, request_answer] at hbody
  show Prog.run _ (Prog.bind (Prog.bind _ _) _) s = _
  rcases h : (engine op s).1 with f | reply <;> rw [h] at hbody
  · exact Prog.run_bind_error hbody
  · rw [Prog.run_bind_ok hbody, reading, Prog.run_ofExcept]
    rfl

/-! ### Every reply is read -/

private theorem mapM_members {β : Type} (read : Json → Except Exn β) (toJson : β → Json) {items : List β}
    (h : ∀ i ∈ items, read (toJson i) = .ok i) : (items.map toJson).mapM read = .ok items := by
  induction items with
  | nil => rfl
  | cons i items ih =>
    have hitems := ih fun j hj => h j (List.mem_cons_of_mem _ hj)
    rw [List.map_cons, List.mapM_cons, h i (List.mem_cons_self ..), hitems]
    rfl

/-- The members of a subscription carry it, whatever follows them. -/
private theorem carries_members {info : SubscriptionInfo times} (h : info.WellKinded) (rest : List (String × Json)) :
    Carries info (info.members iso ++ rest) where
  subscriptionId := rfl
  transport := rfl
  endpoint := rfl
  eventTypes := ⟨_, rfl, rfl⟩
  scope := ⟨_, rfl, parseScope_asdict.2 h.1⟩
  ctx := ⟨_, rfl, parseCtx_asdict.2 h.2⟩
  active := rfl
  createdAt := ⟨_, rfl, iso.read_text _⟩

private theorem subscriptionInfo_members {info : SubscriptionInfo times} (h : info.WellKinded) :
    subscriptionInfo times (.obj (info.members iso)) = .ok info :=
  subscriptionInfo_ok.2 ⟨_, rfl, List.append_nil (info.members iso) ▸ carries_members h []⟩

private theorem subscriptionCreated_members {created : SubscriptionCreated times}
    (h : created.toSubscriptionInfo.WellKinded) :
    subscriptionCreated times (.obj (created.members iso)) = .ok created :=
  except_bind_ok.2 ⟨_, subscriptionInfo_ok.2 ⟨_, rfl, carries_members h _⟩, rfl⟩

private theorem subscriptionPage_members {page : SubscriptionPage times} (h : ∀ info ∈ page.items, info.WellKinded) :
    subscriptionPage times (.obj (page.members iso)) = .ok page := by
  have hitems := mapM_members (subscriptionInfo times) (fun info => .obj (info.members iso))
    fun info hinfo => subscriptionInfo_members (h info hinfo)
  exact except_bind_ok.2 ⟨_, rfl, except_bind_ok.2 ⟨_, rfl, except_bind_ok.2 ⟨_, hitems, rfl⟩⟩⟩

private theorem pendingBatch_members (batch : Models.PendingBatch) : pendingBatch (.obj batch.members) = .ok batch := by
  have hitems : (batch.items.map fun i => Json.obj i.members).mapM pendingEvent = .ok batch.items :=
    mapM_members pendingEvent (fun i => .obj i.members) fun _ _ => rfl
  exact except_bind_ok.2 ⟨_, rfl, except_bind_ok.2 ⟨_, rfl, except_bind_ok.2 ⟨_, rfl,
    except_bind_ok.2 ⟨_, hitems, rfl⟩⟩⟩⟩

/-! ### The client is transparent -/

/-- Over HTTP the program does what the engine does for the operation, in one request that the engine takes for it. -/
def Performs (iso : IsoText times) (engine : Engine lib times σ) (op : Operation) (p : Http (op.Result times)) : Prop :=
  ∀ s, (p.run (engine.wire iso) s).result = op.outcome (engine op s).1 ∧
    (p.run (engine.wire iso) s).state = (engine op s).2 ∧
    (p.run (engine.wire iso) s).trace.map (fun ev => Operation.ofRequest ev.1) = [some op]

private theorem outcome_error (h : op ≠ .health) :
    op.outcome (.error f : Except (Fault lib) (op.Reply times)) = .error (.api f.error) := by
  cases op with
  | health => exact absurd rfl h
  | _ => rfl

private theorem performs_exchange (op : Operation) (read : Json → Except Exn (op.Result times)) (hop : op ≠ .health)
    (hr : Operation.ofRequest r = some op)
    (hread : ∀ reply, read (.obj (op.body iso reply)) = .ok (op.value reply)) :
    Performs iso engine op ((ManagementClient.request lib r).bind fun body => reading (read body)) := by
  intro s
  rw [run_exchange iso engine op hr]
  refine ⟨?_, rfl, by simp [hr]⟩
  rcases (engine op s).1 with f | reply
  · exact (outcome_error hop).symm
  · show Except.mapError _ (read _) = _
    rw [hread]
    rfl

theorem performs (iso : IsoText times) (engine : Engine lib times σ) (op : Operation) :
    Performs iso engine op (op.perform lib times) := by
  cases op with
  | createSubscription transport endpoint eventTypes scope ctx backfill =>
    refine performs_exchange (.createSubscription ..) (fun body => do subscriptionCreated times (← body.getItem "data"))
      (by simp) ?_ fun created => subscriptionCreated_members created.2
    cases scope <;> cases ctx <;>
      simp [Operation.ofRequest, member, optionalMember, ManagementClient.optional, List.lookup_cons, Json.str?,
        Json.bool?, strs_texts, KindedScope.read_asdict, KindedCtx.read_asdict]
  | listSubscriptions limit offset activeOnly =>
    refine performs_exchange (.listSubscriptions ..) (subscriptionPage times) (by simp) ?_ fun page =>
      subscriptionPage_members page.2
    simp [Operation.ofRequest, member, List.lookup_cons, Json.int?, Json.bool?]
  | getSubscription subscriptionId =>
    refine performs_exchange (.getSubscription _) (fun body => do subscriptionInfo times (← body.getItem "data"))
      (by simp) ?_ fun info => subscriptionInfo_members info.2
    simp [Operation.ofRequest, member, Json.str?]
  | updateSubscription subscriptionId eventTypes scope active =>
    refine performs_exchange (.updateSubscription ..) (fun body => do subscriptionInfo times (← body.getItem "data"))
      (by simp) ?_ fun info => subscriptionInfo_members info.2
    cases eventTypes <;> cases scope <;> cases active <;>
      simp [Operation.ofRequest, member, optionalMember, ManagementClient.optional, List.lookup_cons, Json.str?,
        Json.bool?, strs_texts, KindedScope.read_asdict]
  | deactivateSubscription subscriptionId =>
    refine performs_exchange (.deactivateSubscription _) (fun _ => .ok ()) (by simp) ?_ fun _ => rfl
    simp [Operation.ofRequest, member, Json.str?]
  | pollPending subscriptionId eventType limit readAll =>
    refine performs_exchange (.pollPending ..) pendingBatch (by simp) ?_ pendingBatch_members
    cases eventType <;>
      simp [Operation.ofRequest, member, optionalMember, ManagementClient.optional, List.lookup_cons, Option.filter,
        Json.str?, Json.int?, Json.bool?, strs_texts]
  | confirmRead subscriptionId upToSeq =>
    refine performs_exchange (.confirmRead ..) (fun body => do (← body.getItem "last_seq").toInt) (by simp) ?_
      fun _ => rfl
    simp [Operation.ofRequest, member, List.lookup_cons, Json.str?, Json.int?]
  | emitEvent eventType aggregateId payload fields =>
    refine performs_exchange (.emitEvent ..) emittedEvent (by simp) ?_ fun _ => rfl
    simp [Operation.ofRequest, member, List.lookup_cons, Json.str?, Json.obj?]
  | listEventTypes =>
    exact performs_exchange .listEventTypes (fun body => do (← body.getItem "data").toList) (by simp) rfl fun _ => rfl
  | health =>
    intro s
    have hrun := run_exchange iso engine .health (r := { method := "GET", path := "/healthz" }) rfl
      (fun _ => Except.ok true) s
    rcases h : (engine .health s).1 with f | reply <;> rw [h] at hrun
    · have hcaught : ((Operation.perform lib times .health).run (engine.wire iso) s) = _ :=
        Prog.run_tryCatch_error hrun
      rw [hcaught]
      exact ⟨rfl, rfl, rfl⟩
    · have hpassed : ((Operation.perform lib times .health).run (engine.wire iso) s) = _ := Prog.run_tryCatch_ok hrun
      rw [hpassed]
      exact ⟨rfl, rfl, rfl⟩

/-- A program over the operations comes over HTTP to the same result as on the engine, and leaves the engine in the same
state; its requests are taken for the operations it asks for, each for one. -/
theorem management_transparent (iso : IsoText times) (engine : Engine lib times σ)
    (p : Prog Operation (Operation.Result times) RequestFailure α) (s : σ) :
    ((p.interp (Operation.perform lib times)).run (engine.wire iso) s).result = (p.run engine.direct s).result ∧
    ((p.interp (Operation.perform lib times)).run (engine.wire iso) s).state = (p.run engine.direct s).state ∧
    ((p.interp (Operation.perform lib times)).run (engine.wire iso) s).trace.map (fun ev => Operation.ofRequest ev.1) =
      (p.run engine.direct s).trace.map fun ev => some ev.1 := by
  have hstep : ∀ op (s s' : σ), s = s' →
      ((op.perform lib times).run (engine.wire iso) s').result = (engine.direct op s).1 ∧
      (engine.direct op s).2 = ((op.perform lib times).run (engine.wire iso) s').state ∧
      ((op.perform lib times).run (engine.wire iso) s').trace.map (fun ev => Operation.ofRequest ev.1) = [some op] := by
    rintro op s _ rfl
    obtain ⟨hres, hstate, htrace⟩ := performs iso engine op s
    exact ⟨hres, hstate.symm, htrace⟩
  obtain ⟨hres, hstate, htrace⟩ := Prog.run_interp hstep p rfl
  refine ⟨hres, hstate.symm, htrace.trans ?_⟩
  induction (p.run engine.direct s).trace with
  | nil => rfl
  | cons ev t ih => rw [List.flatMap_cons, ih]; rfl

end

end EventusSdk
