import EventusSdk.Client
import EventusSdk.Lib.Interp
import EventusSdk.Models

/-!
# The operations of the management client

Each operation sends one request and makes a value of the body that comes back.  Here they are programs over HTTP
requests, as the code has them.
-/

namespace EventusSdk

structure HttpRequest where
  method : String
  path : String
  jsonBody : Option (List (String × Json)) := none
  params : Option (List (String × Json)) := none

/-- A coroutine of the client. -/
abbrev Http (α : Type) := Prog HttpRequest (fun _ => HttpAnswer) RequestFailure α

/-- `_request`. -/
def ManagementClient.request (lib : ClientLib) (r : HttpRequest) : Http Json := do
  let answer ← Prog.request r
  .ofExcept (EventusSdk.request lib answer)

/-- What the client does with a body. -/
def reading {α : Type} (x : Except Exn α) : Http α := .ofExcept (x.mapError .other)

/-! ### Answers -/

namespace Models

structure PendingEvent where
  seq : Json
  eventType : Json
  data : Json

structure PendingBatch where
  subscriptionId : Json
  items : List PendingEvent
  nextSeq : Json
  lastReadSeq : Json
  drained : Json
  committed : Json

structure EmittedEvent where
  eventId : Json
  eventType : Json
  seq : Int

end Models

def pendingEvent (i : Json) : Except Exn Models.PendingEvent := do
  let seq ← i.getItem "seq"
  let eventType ← i.getItem "event_type"
  let data ← i.getItem "data"
  return { seq, eventType, data }

def pendingBatch (body : Json) : Except Exn Models.PendingBatch := do
  let subscriptionId ← body.getItem "subscription_id"
  let items ← (← (← body.getItem "items").toList).mapM pendingEvent
  let nextSeq ← body.getItem "next_seq"
  let lastReadSeq ← body.getItem "last_read_seq"
  let drained ← body.getItem "drained"
  let committed ← body.getItem "committed"
  return { subscriptionId, items, nextSeq, lastReadSeq, drained, committed }

def subscriptionPage (times : Timestamps) (body : Json) : Except Exn (SubscriptionPage times) := do
  let items ← (← (← body.getItem "items").toList).mapM (subscriptionInfo times)
  let total ← body.getItem "total"
  let limit ← body.getItem "limit"
  let offset ← body.getItem "offset"
  return { items, total, limit, offset }

def emittedEvent (body : Json) : Except Exn Models.EmittedEvent := do
  let eventId ← body.getItem "event_id"
  let eventType ← body.getItem "event_type"
  let seq ← (← body.getItem "seq").toInt
  return { eventId, eventType, seq }

/-! ### Operations -/

namespace ManagementClient

variable (lib : ClientLib) (times : Timestamps)

/-- A member that is there if the argument is. -/
def optional {α : Type} (name : String) (toJson : α → Json) : Option α → List (String × Json)
  | none => []
  | some a => [(name, toJson a)]

def texts (values : List String) : Json := .arr (values.map .str)

def createSubscription (transport endpoint : String) (eventTypes : List String) (scope : Option SubscriptionScope)
    (ctx : Option SubscriptionCtx) (backfill : Bool) : Http (SubscriptionCreated times) := do
  let jsonBody := [("transport", .str transport), ("endpoint", .str endpoint), ("event_types", texts eventTypes),
      ("backfill", .bool backfill)] ++
    optional "scope" (fun scope => .obj scope.asdict) scope ++ optional "ctx" (fun ctx => .obj ctx.asdict) ctx
  let body ← request lib { method := "POST", path := "/subscriptions/create", jsonBody := some jsonBody }
  reading do subscriptionCreated times (← body.getItem "data")

def listSubscriptions (limit offset : Int) (activeOnly : Bool) : Http (SubscriptionPage times) := do
  let params := [("limit", .int limit), ("offset", .int offset), ("active_only", .bool activeOnly)]
  let body ← request lib { method := "GET", path := "/subscriptions/list", params := some params }
  reading (subscriptionPage times body)

def getSubscription (subscriptionId : String) : Http (SubscriptionInfo times) := do
  let params := [("subscription_id", .str subscriptionId)]
  let body ← request lib { method := "GET", path := "/subscriptions/get", params := some params }
  reading do subscriptionInfo times (← body.getItem "data")

def updateSubscription (subscriptionId : String) (eventTypes : Option (List String))
    (scope : Option SubscriptionScope) (active : Option Bool) : Http (SubscriptionInfo times) := do
  let payload := [("subscription_id", .str subscriptionId)] ++ optional "event_types" texts eventTypes ++
    optional "scope" (fun scope => .obj scope.asdict) scope ++ optional "active" .bool active
  let body ← request lib { method := "POST", path := "/subscriptions/update", jsonBody := some payload }
  reading do subscriptionInfo times (← body.getItem "data")

def deactivateSubscription (subscriptionId : String) : Http Unit := do
  let jsonBody := [("subscription_id", .str subscriptionId)]
  let _ ← request lib { method := "POST", path := "/subscriptions/deactivate", jsonBody := some jsonBody }
  .ret ()

def pollPending (subscriptionId : String) (eventType : Option (List String)) (limit : Int) (readAll : Bool) :
    Http Models.PendingBatch := do
  -- an empty list of types is left out as well
  let params := [("subscription_id", .str subscriptionId), ("limit", .int limit), ("read_all", .bool readAll)] ++
    optional "event_type" texts (eventType.filter (! ·.isEmpty))
  let body ← request lib { method := "GET", path := "/events/pending", params := some params }
  reading (pendingBatch body)

def confirmRead (subscriptionId : String) (upToSeq : Int) : Http Int := do
  let jsonBody := [("subscription_id", .str subscriptionId), ("up_to_seq", .int upToSeq)]
  let body ← request lib { method := "POST", path := "/events/read_events", jsonBody := some jsonBody }
  reading do (← body.getItem "last_seq").toInt

def emitEvent (eventType aggregateId : String) (payload fields : Option (List (String × Json))) :
    Http Models.EmittedEvent := do
  let jsonBody := [("event_type", .str eventType), ("aggregate_id", .str aggregateId),
    ("payload", .obj (payload.getD [])), ("fields", .obj (fields.getD []))]
  let body ← request lib { method := "POST", path := "/admin/events/emit", jsonBody := some jsonBody }
  reading (emittedEvent body)

def listEventTypes : Http (List Json) := do
  let body ← request lib { method := "GET", path := "/event-types" }
  reading do (← body.getItem "data").toList

def health : Http Bool :=
  Prog.tryCatch
    (do
      let _ ← request lib { method := "GET", path := "/healthz" }
      .ret true)
    fun
      | .api _ => .ret false
      | .other e => .raise (.other e)

end ManagementClient

end EventusSdk
