import EventusSdk.Lib.Prog
import EventusSdk.Router

/-!
# The dispatcher

`Dispatcher.feed` as the program the code is: everything it awaits that is not its own code (filters and callbacks of
the application, payload models, the dedup store) is a request, and a middleware is a function from a handler to a
handler.  A dict argument that the callee may change in place is passed in and out: the callee returns it as it leaves
it.
-/

namespace EventusSdk

/-- A payload model registered for an event type. -/
structure Model where
  id : ℕ
  hasModelValidate : Bool
deriving DecidableEq

/-- What `feed` asks of code that is not its own; `external` is anything else an application's middleware awaits. -/
inductive Req where
  | modelValidate (model : Model) (data : EventData)
  | construct (model : Model) (data : EventData)
  | filter (f : CustomFilter) (event : ClientEvent) (data : Data)
  | callback (callback : HandlerCallback) (kwargs : Data)
  | markIfNew (key : String) (ttl : ℚ)
  | external (name : String) (arg : Value)

abbrev Resp : Req → Type
  | .modelValidate .. => Value
  | .construct .. => Value
  | .filter .. => FilterOutcome × Data
  | .callback .. => Value
  | .markIfNew .. => Bool
  | .external .. => Value

/-- A coroutine of the library. -/
abbrev Py (α : Type) := Prog Req Resp Exn α

/-- Await code that is not the library's own. -/
def ask (r : Req) : Py (Resp r) := Prog.request r

/-- A request with the answer it got. -/
abbrev Call := Prog.Event Req Resp Exn

/-- `Handler`, a link of a middleware chain; it also returns the `data` dict as it leaves it. -/
abbrev Handler (ρ : Type) := ClientEvent → Data → Py (ρ × Data)

/-- A middleware, given the next link of the chain. -/
abbrev Middleware (ρ : Type) := Handler ρ → Handler ρ

/-- Build a chain: the first middleware of the list is the outermost. -/
def chain {ρ : Type} (middleware : List (Middleware ρ)) (handler : Handler ρ) : Handler ρ :=
  middleware.foldr (fun m next => m next) handler

@[simp] theorem chain_nil {ρ : Type} (handler : Handler ρ) : chain [] handler = handler := rfl

@[simp] theorem chain_cons {ρ : Type} (m : Middleware ρ) (middleware : List (Middleware ρ)) (handler : Handler ρ) :
    chain (m :: middleware) handler = m (chain middleware handler) := rfl

theorem chain_append {ρ : Type} (m₁ m₂ : List (Middleware ρ)) (handler : Handler ρ) :
    chain (m₁ ++ m₂) handler = chain m₁ (chain m₂ handler) := List.foldr_append

/-- Around a handler that asks only for requests in `A` and raises only exceptions in `X`, so does the middleware. -/
def Within {ρ : Type} (A : Req → Prop) (X : Exn → Prop) (m : Middleware ρ) : Prop :=
  ∀ handler : Handler ρ, (∀ event data, (handler event data).Safe A X fun _ => True) →
    ∀ event data, (m handler event data).Safe A X fun _ => True

theorem chain_safe {ρ : Type} {A : Req → Prop} {X : Exn → Prop} {middleware : List (Middleware ρ)}
    (hm : ∀ m ∈ middleware, Within A X m) {handler : Handler ρ}
    (hhandler : ∀ event data, (handler event data).Safe A X fun _ => True) (event : ClientEvent) (data : Data) :
    (chain middleware handler event data).Safe A X fun _ => True := by
  induction middleware generalizing event data with
  | nil => exact hhandler event data
  | cons m ms ih =>
    exact hm m (List.mem_cons_self ..) _ (ih fun m' h => hm m' (List.mem_cons_of_mem _ h)) event data

/-! ### Payloads -/

structure PayloadRegistry where
  models : Dict String Model

namespace PayloadRegistry

def empty : PayloadRegistry := ⟨∅⟩

def register (registry : PayloadRegistry) (eventType : String) (model : Model) : PayloadRegistry :=
  ⟨registry.models.insert eventType model⟩

def resolve (registry : PayloadRegistry) (eventType : String) : Option Model := registry.models.lookup eventType

/-- Caught by `except (TypeError, ValueError)`. -/
def isParseFailure (e : Exn) : Bool := e = .typeError || e.isValueError

def parse (registry : PayloadRegistry) (eventType : String) (data : EventData) : Py Value :=
  match registry.resolve eventType with
  | none => .ret .none
  | some model =>
    Prog.tryCatch
      (if model.hasModelValidate then ask (.modelValidate model data)
       else ask (.construct model data))
      fun e => if isParseFailure e then .ret .none else .raise e

end PayloadRegistry

/-! ### Binding a handler's parameters -/

/-- `_bind_kwargs`: the parameters a callback declares by name, taken from `data` and the event. -/
def bindKwargs (callback : HandlerCallback) (event : ClientEvent) (data : Data) : Data :=
  let full := data.insert "event" (.event event)
  if callback.params.any fun p => p.kind = .varKeyword then full
  else callback.params.foldl
    (fun kwargs p => match full.lookup p.name with
      | some v => kwargs.insert p.name v
      | none => kwargs) ∅

/-! ### Dispatching -/

structure Dispatcher where
  root : Router
  outer : List (Middleware DispatchResult) := []
  inner : List (Middleware Value) := []
  registry : PayloadRegistry := .empty

/-- `await filt(event, data)`. -/
def Filter.call (filt : Filter) (event : ClientEvent) (data : Data) : Py (FilterOutcome × Data) :=
  match filt with
  | .eventType eventTypes => .ret (.plain (eventTypes.contains event.eventType), data)
  | .custom f => ask (.filter f event data)

/-- The loop over a handler's filters: `none` where one of them fails, else the dicts they returned, merged. -/
def evalFilters : List Filter → ClientEvent → Data → Data → Py (Option Data × Data)
  | [], _, data, extra => .ret (some extra, data)
  | filt :: filters, event, data, extra => do
    let (outcome, data) ← filt.call event data
    if outcome.truthy then
      match outcome with
      | .dict d => evalFilters filters event data (extra.update d)
      | .plain _ => evalFilters filters event data extra
    -- the dicts of the filters before the failed one are dropped with it
    else .ret (none, data)

/-- `_call`, the innermost link of the inner chain. -/
def callCallback (callback : HandlerCallback) : Handler Value := fun event data => do
  let v : Value ← ask (.callback callback (bindKwargs callback event data))
  .ret (v, data)

/-- The `except` clauses of `_run_handler`; `none` is `_SKIPPED`. -/
def settle (event : ClientEvent) (e : Exn) : Py (Option DispatchResult) :=
  if e = .skipHandler then .ret none
  else if e.isException then .ret (some ⟨.errored, event, some e⟩)
  -- no clause catches `CancelledError` and the other exceptions outside `Exception`
  else .raise e

namespace Dispatcher

def runHandler (dispatcher : Dispatcher) (callback : HandlerCallback) (event : ClientEvent) (data : Data) :
    Py (Option DispatchResult) :=
  Prog.tryCatch
    (do
      let _ ← chain dispatcher.inner (callCallback callback) event data
      .ret (some ⟨.handled, event, none⟩))
    (settle event)

/-- The handlers of one router, in order; `none` where none of them settles the event. -/
def tryHandlers (dispatcher : Dispatcher) : List HandlerObject → ClientEvent → Data →
    Py (Option DispatchResult × Data)
  | [], _, data => .ret (none, data)
  | handler :: handlers, event, data => do
    let (extra, data) ← evalFilters handler.filters event data ∅
    match extra with
    | none => dispatcher.tryHandlers handlers event data
    | some extra =>
      -- only this handler sees the merged dicts
      match ← dispatcher.runHandler handler.callback event (data.update extra) with
      | none => dispatcher.tryHandlers handlers event data
      | some result => .ret (some result, data)

/-- The routers of the walk, in order. -/
def tryRouters (dispatcher : Dispatcher) : List Router → ClientEvent → Data → Py (DispatchResult × Data)
  | [], event, data => .ret (⟨.skipped, event, none⟩, data)
  | router :: routers, event, data => do
    match ← dispatcher.tryHandlers router.handlers event data with
    | (none, data) => dispatcher.tryRouters routers event data
    | (some result, data) => .ret (result, data)

def walkAndHandle (dispatcher : Dispatcher) : Handler DispatchResult :=
  dispatcher.tryRouters dispatcher.root.walk

/-- The `data` dict a feed starts with. -/
def baseData (ctx : AccountContext) : Data :=
  ((AList.insert "ctx" (.ctx ctx) (∅ : Data)).insert "client" (.client ctx.client)).insert "subscription_id"
    (.str ctx.subscriptionId)

def withPayload (data : Data) : Value → Data
  | .none => data
  | payload => data.insert "payload" payload

def feed (dispatcher : Dispatcher) (event : ClientEvent) (ctx : AccountContext) : Py DispatchResult := do
  let payload ← dispatcher.registry.parse event.eventType event.data
  let (result, _) ← chain dispatcher.outer dispatcher.walkAndHandle event (withPayload (baseData ctx) payload)
  .ret result

/-! ### The walk as one loop -/

private theorem tryHandlers_append (dispatcher : Dispatcher) (hs₁ hs₂ : List HandlerObject) (event : ClientEvent)
    (data : Data) : dispatcher.tryHandlers (hs₁ ++ hs₂) event data =
      (dispatcher.tryHandlers hs₁ event data).bind fun a =>
        if a.1.isSome then .ret a else dispatcher.tryHandlers hs₂ event a.2 := by
  induction hs₁ generalizing data with
  | nil => rfl
  | cons h hs ih =>
    simp only [List.cons_append, tryHandlers, Prog.bind_eq, Prog.bind_assoc]
    refine congrArg _ (funext fun a => ?_)
    obtain ⟨extra, data⟩ := a
    cases extra with
    | none => exact ih data
    | some extra =>
      simp only [Prog.bind_assoc]
      refine congrArg _ (funext fun r => ?_)
      cases r with
      | none => exact ih data
      | some r => rfl

/-- The walk is one loop over the handlers of its routers. -/
theorem tryRouters_eq (dispatcher : Dispatcher) (routers : List Router) (event : ClientEvent) (data : Data) :
    dispatcher.tryRouters routers event data =
      (dispatcher.tryHandlers (routers.flatMap Router.handlers) event data).bind fun a =>
        .ret (a.1.getD ⟨.skipped, event, none⟩, a.2) := by
  induction routers generalizing data with
  | nil => rfl
  | cons router routers ih =>
    simp only [tryRouters, List.flatMap_cons, tryHandlers_append, Prog.bind_eq, Prog.bind_assoc]
    refine congrArg _ (funext fun a => ?_)
    obtain ⟨r, data⟩ := a
    cases r with
    | none => exact ih data
    | some r => rfl

/-! ### What a feed asks for and raises -/

section
variable {A : Req → Prop} {X : Exn → Prop} (hfilter : ∀ f event data, A (.filter f event data))

include hfilter in
theorem evalFilters_safe (filters : List Filter) (event : ClientEvent) (data extra : Data) :
    (evalFilters filters event data extra).Safe A X fun _ => True := by
  induction filters generalizing data extra with
  | nil => trivial
  | cons filt filters ih =>
    have hcall : (filt.call event data).Safe A X fun _ => True := by
      cases filt with
      | eventType eventTypes => trivial
      | custom f => exact Prog.safe_request (hfilter f event data)
    refine Prog.safe_bind hcall ?_
    rintro ⟨outcome, data⟩ -
    show Prog.Safe A X _ (if _ then _ else _)
    split
    · cases outcome with
      | dict d => exact ih ..
      | plain b => exact ih ..
    · trivial

theorem parse_safe (hmodel : ∀ model data, A (.modelValidate model data) ∧ A (.construct model data))
    (registry : PayloadRegistry) (eventType : String) (data : EventData) :
    (registry.parse eventType data).Safe A X fun _ => True := by
  unfold PayloadRegistry.parse
  split
  · trivial
  · next model _ =>
    refine Prog.safe_tryCatch ?_ fun e he => ?_
    · split
      · exact Prog.safe_request (hmodel model data).1
      · exact Prog.safe_request (hmodel model data).2
    · split
      · trivial
      · exact he

/-- The walk comes to any outcome but `DUPLICATE`. -/
def Walked (r : DispatchResult) : Prop := r.outcome ≠ .duplicate

private theorem settle_safe (event : ClientEvent) (e : Exn) (he : X e) :
    (settle event e).Safe A X fun o => ∀ r ∈ o, Walked r := by
  unfold settle
  split
  · simp
  · split
    · simp [Walked]
    · exact he

theorem callCallback_safe (hcallback : ∀ callback kwargs, A (.callback callback kwargs)) (callback : HandlerCallback)
    (event : ClientEvent) (data : Data) : (callCallback callback event data).Safe A X fun _ => True :=
  Prog.safe_bind (Prog.safe_request (hcallback callback _)) fun _ _ => trivial

variable {dispatcher : Dispatcher}
  (hinner : ∀ callback event data, (chain dispatcher.inner (callCallback callback) event data).Safe A X fun _ => True)

include hinner in
private theorem runHandler_safe (callback : HandlerCallback) (event : ClientEvent) (data : Data) :
    (dispatcher.runHandler callback event data).Safe A X fun o => ∀ r ∈ o, Walked r :=
  Prog.safe_tryCatch (Prog.safe_bind (hinner callback event data) fun _ _ => by simp [Walked]) (settle_safe event)

include hfilter hinner

private theorem tryHandlers_safe (hs : List HandlerObject) (event : ClientEvent) (data : Data) :
    (dispatcher.tryHandlers hs event data).Safe A X fun a => ∀ r ∈ a.1, Walked r := by
  induction hs generalizing data with
  | nil => simp [tryHandlers]
  | cons h hs ih =>
    refine Prog.safe_bind (evalFilters_safe hfilter h.filters event data ∅) ?_
    rintro ⟨extra, data⟩ -
    cases extra with
    | none => exact ih data
    | some extra =>
      refine Prog.safe_bind (runHandler_safe hinner h.callback event (data.update extra)) fun r hr => ?_
      cases r with
      | none => exact ih data
      | some r => exact hr

theorem tryRouters_safe (routers : List Router) (event : ClientEvent) (data : Data) :
    (dispatcher.tryRouters routers event data).Safe A X fun a => Walked a.1 := by
  rw [tryRouters_eq]
  refine Prog.safe_bind (tryHandlers_safe hfilter hinner (routers.flatMap Router.handlers) event data) ?_
  rintro ⟨r, data⟩ hr
  cases r with
  | none => simp [Walked]
  | some r => exact hr r rfl

/-- What a feed asks for besides what its outer middleware does. -/
theorem feed_safe (hmodel : ∀ model data, A (.modelValidate model data) ∧ A (.construct model data))
    (houter : ∀ m ∈ dispatcher.outer, Within A X m) (event : ClientEvent) (ctx : AccountContext) :
    (dispatcher.feed event ctx).Safe A X fun _ => True := by
  refine Prog.safe_bind (parse_safe hmodel dispatcher.registry event.eventType event.data) fun payload _ => ?_
  refine Prog.safe_bind (chain_safe houter (fun event data => ?_) event _) fun _ _ => trivial
  exact (tryRouters_safe hfilter hinner dispatcher.root.walk event data).mono (fun _ h => h) fun _ _ => trivial

end

end Dispatcher

/-! ### A small application: one handler, one event, one account -/

def greet : HandlerCallback := ⟨0, []⟩

def greetRouter : Router := (Router.mk [] []).on [.str "new_lot"] greet

def newLot : ClientEvent := { seq := 1, eventType := "new_lot", data := [], transport := .webhook }

def seller : AccountContext := { client := ⟨0⟩, subscriptionId := "sub-1", label := "seller" }

end EventusSdk
