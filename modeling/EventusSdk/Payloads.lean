import EventusSdk.FirstMatch
import EventusSdk.Lib.Related
import EventusSdk.Middleware

/-!
# Payload models and routing

A feed under two registries, over one router tree, in the same surroundings.  The filters, the middleware and the
callbacks do not look at `data["payload"]`; whatever else the surroundings do, they may do in dependence of what they
have been asked before.

Then it makes no difference to the feed which models are registered, or whether there are any, as long as the payload
is parsed: handlers are invoked in the same order and with the same arguments, and the result is the same.  A model that
raises anything but a `TypeError` or a `ValueError` ends the feed with that exception, before a handler is looked for.
-/

namespace EventusSdk

/-! ### Apart from the payload -/

/-- The two dicts differ under `"payload"` only. -/
def AgreeBut (data data' : Data) : Prop := ∀ key, key ≠ "payload" → data.lookup key = data'.lookup key

/-- Results that are the same, with such dicts. -/
def SameBut {ρ : Type} (a a' : ρ × Data) : Prop := a.1 = a'.1 ∧ AgreeBut a.2 a'.2

inductive LinkedReq : Req → Req → Prop where
  | same (r : Req) (h : ∀ f event data, r ≠ .filter f event data) : LinkedReq r r
  | filter (f : CustomFilter) (event : ClientEvent) {data data' : Data} (h : AgreeBut data data') :
      LinkedReq (.filter f event data) (.filter f event data')

def LinkedAns : (r r' : Req) → Except Exn (Resp r) → Except Exn (Resp r') → Prop
  | .filter .., .filter .., x, x' => Prog.Lift SameBut Eq x x'
  | _, _, x, x' => HEq x x'

/-- The same requests are asked, up to what filters find under `"payload"`. -/
def payloadLink : Prog.Link Req Resp Exn := ⟨LinkedReq, LinkedAns⟩

abbrev BlindProg {α : Type} (Q : α → α → Prop) (p p' : Py α) : Prop := Prog.Related payloadLink Q p p'

/-- Called with dicts that agree but for the payload, the links of two chains do the same. -/
def BlindLinks {ρ : Type} (handler handler' : Handler ρ) : Prop :=
  ∀ event data data', AgreeBut data data' → BlindProg SameBut (handler event data) (handler' event data')

/-- The middleware does not look at the payload. -/
def Blind {ρ : Type} (m : Middleware ρ) : Prop := ∀ handler handler', BlindLinks handler handler' →
  BlindLinks (m handler) (m handler')

/-- The callback declares neither the payload nor `**kwargs`. -/
def HandlerCallback.Payloadless (callback : HandlerCallback) : Prop :=
  ∀ p ∈ callback.params, p.name ≠ "payload" ∧ p.kind ≠ .varKeyword

/-- Neither callbacks nor middleware look at the payload. -/
structure PayloadBlind (dispatcher : Dispatcher) : Prop where
  callbacks : ∀ h ∈ dispatcher.root.handlersInOrder, h.callback.Payloadless
  outer : ∀ m ∈ dispatcher.outer, Blind m
  inner : ∀ m ∈ dispatcher.inner, Blind m

section
variable {data data' extra : Data} {Q : Value → Value → Prop}

theorem AgreeBut.refl (data : Data) : AgreeBut data data := fun _ _ => rfl

theorem AgreeBut.update (h : AgreeBut data data') (extra : Data) :
    AgreeBut (data.update extra) (data'.update extra) := by
  intro key hkey
  rw [Dict.lookup_update, Dict.lookup_update, h key hkey]

private theorem agreeBut_withPayload (data : Data) (payload payload' : Value) :
    AgreeBut (Dispatcher.withPayload data payload) (Dispatcher.withPayload data payload') := by
  have hbase : ∀ payload, AgreeBut (Dispatcher.withPayload data payload) data := by
    intro payload key hkey
    cases payload with
    | none => rfl
    | _ => exact AList.lookup_insert_ne hkey
  exact fun key hkey => (hbase payload key hkey).trans (hbase payload' key hkey).symm

private theorem bindKwargs_agree {callback : HandlerCallback} (hc : callback.Payloadless) (event : ClientEvent)
    (h : AgreeBut data data') : bindKwargs callback event data = bindKwargs callback event data' := by
  have hnone : (callback.params.any fun p => p.kind = .varKeyword) = false := by
    simpa using fun p hp => (hc p hp).2
  have hlookup : ∀ p ∈ callback.params,
      (data.insert "event" (.event event)).lookup p.name = (data'.insert "event" (.event event)).lookup p.name := by
    intro p hp
    simp only [Dict.lookup_insert_eq, Function.update_apply]
    split
    · rfl
    · exact h _ (hc p hp).1
  unfold bindKwargs
  simp only [hnone, Bool.false_eq_true, ↓reduceIte]
  refine List.foldl_ext _ _ _ fun kwargs p hp => ?_
  rw [hlookup p hp]

end

/-! ### The parts of a feed -/

section
variable {ρ : Type} {data data' : Data} {event : ClientEvent}

private theorem linkedAns_same {r : Req} (hr : ∀ f event data, r ≠ .filter f event data) {x x' : Except Exn (Resp r)}
    (hx : LinkedAns r r x x') : x = x' := by
  cases r with
  | filter f event data => exact absurd rfl (hr f event data)
  | _ => exact eq_of_heq hx

private theorem ask_blind {r : Req} (hr : ∀ f event data, r ≠ .filter f event data) : BlindProg Eq (ask r) (ask r) := by
  refine Prog.Related.request (.same r hr) fun x x' hx => ?_
  obtain rfl := linkedAns_same hr hx
  cases x with
  | ok v => exact .ok rfl
  | error e => exact .error rfl

private theorem logging_blind : Blind (logging : Middleware ρ) := fun _ _ h => h

private theorem errorBoundary_blind : Blind (errorBoundary : Middleware ρ) := by
  intro handler handler' h event data data' hdata
  refine (h event data data' hdata).tryCatch fun e => ?_
  split
  · exact .raise _
  · exact .raise e

private theorem IdempotencyMiddleware.blind (m : IdempotencyMiddleware) : Blind m.call := by
  intro handler handler' h event data data' hdata
  have hkey : data.lookup "subscription_id" = data'.lookup "subscription_id" := hdata _ (by decide)
  unfold IdempotencyMiddleware.call
  rw [hkey]
  refine (ask_blind (by simp)).bind fun new new' hnew => ?_
  subst hnew
  split
  · exact h event data data' hdata
  · exact .ret ⟨rfl, hdata⟩

private theorem chain_blind {middleware : List (Middleware ρ)} (hm : ∀ m ∈ middleware, Blind m)
    {handler handler' : Handler ρ}
    (h : BlindLinks handler handler') : BlindLinks (chain middleware handler) (chain middleware handler') := by
  induction middleware with
  | nil => exact h
  | cons m ms ih => exact hm m (List.mem_cons_self ..) _ _ (ih fun m' hm' => hm m' (List.mem_cons_of_mem _ hm'))

private theorem filterCall_blind (filt : Filter) (hdata : AgreeBut data data') :
    BlindProg SameBut (filt.call event data) (filt.call event data') := by
  cases filt with
  | eventType eventTypes => exact .ret ⟨rfl, hdata⟩
  | custom f =>
    have hr : LinkedReq (.filter f event data) (.filter f event data') := .filter f event hdata
    exact Prog.Related.request (L := payloadLink) hr fun _ _ hx => hx

private theorem evalFilters_blind (filters : List Filter) (extra : Data) (hdata : AgreeBut data data') :
    BlindProg SameBut (evalFilters filters event data extra) (evalFilters filters event data' extra) := by
  induction filters generalizing data data' extra with
  | nil => exact .ret ⟨rfl, hdata⟩
  | cons filt filters ih =>
    refine (filterCall_blind filt hdata).bind ?_
    rintro ⟨outcome, d⟩ ⟨outcome', d'⟩ ⟨hout, hd⟩
    obtain rfl : outcome = outcome' := hout
    show Prog.Related _ _ (if _ then _ else _) (if _ then _ else _)
    split
    · cases outcome with
      | dict extra' => exact ih _ hd
      | plain b => exact ih _ hd
    · exact .ret ⟨rfl, hd⟩

private theorem callCallback_blind {callback : HandlerCallback} (hc : callback.Payloadless) :
    BlindLinks (callCallback callback) (callCallback callback) := by
  intro event data data' hdata
  unfold callCallback
  rw [bindKwargs_agree hc event hdata]
  refine (ask_blind (by simp)).bind fun v v' hv => ?_
  subst hv
  exact .ret ⟨rfl, hdata⟩

variable {dispatcher : Dispatcher} {registry registry' : PayloadRegistry} (hinner : ∀ m ∈ dispatcher.inner, Blind m)

include hinner

private theorem runHandler_blind {callback : HandlerCallback} (hc : callback.Payloadless)
    (hdata : AgreeBut data data') :
    BlindProg Eq ({ dispatcher with registry := registry }.runHandler callback event data)
      ({ dispatcher with registry := registry' }.runHandler callback event data') := by
  have hchain := chain_blind hinner (callCallback_blind hc) event data data' hdata
  have hret : BlindProg Eq _ _ :=
    hchain.bind fun _ _ _ => .ret (rfl : some (⟨.handled, event, none⟩ : DispatchResult) = _)
  refine hret.tryCatch fun e => ?_
  unfold settle
  split
  · exact .ret rfl
  · split
    · exact .ret rfl
    · exact .raise e

private theorem tryHandlers_blind {hs : List HandlerObject} (hc : ∀ h ∈ hs, h.callback.Payloadless)
    (hdata : AgreeBut data data') :
    BlindProg SameBut ({ dispatcher with registry := registry }.tryHandlers hs event data)
      ({ dispatcher with registry := registry' }.tryHandlers hs event data') := by
  induction hs generalizing data data' with
  | nil => exact .ret ⟨rfl, hdata⟩
  | cons h hs ih =>
    have hc' : ∀ h ∈ hs, h.callback.Payloadless := fun h hh => hc h (List.mem_cons_of_mem _ hh)
    refine (evalFilters_blind h.filters ∅ hdata).bind ?_
    rintro ⟨extra, d⟩ ⟨extra', d'⟩ ⟨hextra, hd⟩
    obtain rfl : extra = extra' := hextra
    cases extra with
    | none => exact ih hc' hd
    | some extra =>
      refine (runHandler_blind hinner (hc h (List.mem_cons_self ..)) (hd.update extra)).bind fun r r' hr => ?_
      subst hr
      cases r with
      | none => exact ih hc' hd
      | some r => exact .ret ⟨rfl, hd⟩

private theorem tryRouters_blind {routers : List Router}
    (hc : ∀ h ∈ routers.flatMap Router.handlers, h.callback.Payloadless) (hdata : AgreeBut data data') :
    BlindProg SameBut ({ dispatcher with registry := registry }.tryRouters routers event data)
      ({ dispatcher with registry := registry' }.tryRouters routers event data') := by
  rw [Dispatcher.tryRouters_eq, Dispatcher.tryRouters_eq]
  refine (tryHandlers_blind hinner hc hdata).bind ?_
  rintro ⟨r, d⟩ ⟨r', d'⟩ ⟨hr, hd⟩
  obtain rfl : r = r' := hr
  exact .ret ⟨rfl, hd⟩

end

/-! ### Two feeds -/

/-- The handlers invoked, each with its arguments and its answer. -/
def invocations (t : List Call) : List (HandlerCallback × Data × Except Exn Value) :=
  t.filterMap fun
    | ⟨.callback callback kwargs, x⟩ => some (callback, kwargs, x)
    | _ => none

@[simp] theorem invocations_append (t₁ t₂ : List Call) : invocations (t₁ ++ t₂) = invocations t₁ ++ invocations t₂ :=
  List.filterMap_append

/-- What a payload model answers in the state `s`. -/
def modelAnswer {σ : Type} (env : Prog.Env Req Resp Exn σ) (s : σ) (model : Model) (data : EventData) :
    Except Exn Value :=
  if model.hasModelValidate then (env (.modelValidate model data) s).1 else (env (.construct model data) s).1

/-- Models leave their surroundings as they are. -/
def ModelsPure {σ : Type} (env : Prog.Env Req Resp Exn σ) : Prop :=
  ∀ model data s, (env (.modelValidate model data) s).2 = s ∧ (env (.construct model data) s).2 = s

/-- A feed with the models of the registry. -/
def Dispatcher.feedWith {σ : Type} (dispatcher : Dispatcher) (env : Prog.Env Req Resp Exn σ) (s : σ)
    (registry : PayloadRegistry) (event : ClientEvent) (ctx : AccountContext) :
    Prog.Outcome Req Resp Exn σ DispatchResult :=
  ({ dispatcher with registry := registry }.feed event ctx).run env s

section
variable {σ : Type} {env : Prog.Env Req Resp Exn σ} {dispatcher : Dispatcher}

private theorem invocations_linked {t t' : List Call} (h : List.Forall₂ payloadLink.Events t t') :
    invocations t = invocations t' := by
  induction h with
  | nil => rfl
  | @cons call call' t t' hcall _ ih =>
    obtain ⟨r, x⟩ := call
    obtain ⟨r', x'⟩ := call'
    obtain ⟨hr, hx⟩ := hcall
    cases hr with
    | filter f event h => exact ih
    | same _ hsame =>
      obtain rfl := linkedAns_same hsame hx
      cases r with
      | callback callback kwargs => exact congrArg ((callback, kwargs, x) :: ·) ih
      | _ => exact ih

/-- Asking the model: its answer, with the surroundings as they were. -/
private theorem askModel_run (hmodels : ModelsPure env) (model : Model) (data : EventData) (s : σ) :
    ∃ t, (if model.hasModelValidate then ask (.modelValidate model data) else ask (.construct model data) :
      Py Value).run env s = ⟨modelAnswer env s model data, s, t⟩ ∧ invocations t = [] := by
  obtain ⟨hvalidate, hconstruct⟩ := hmodels model data s
  unfold modelAnswer
  split
  · have hrun := Prog.run_request env (.modelValidate model data) s
    rw [hvalidate] at hrun
    exact ⟨_, hrun, rfl⟩
  · have hrun := Prog.run_request env (.construct model data) s
    rw [hconstruct] at hrun
    exact ⟨_, hrun, rfl⟩

/-- What a model raises but `TypeError` and `ValueError` leaves the registry. -/
private theorem parse_run_error (hmodels : ModelsPure env) {registry : PayloadRegistry} {event : ClientEvent} {s : σ}
    {model : Model} {e : Exn} (hm : registry.resolve event.eventType = some model)
    (hx : modelAnswer env s model event.data = .error e) (he : PayloadRegistry.isParseFailure e = false) :
    ∃ t, (registry.parse event.eventType event.data).run env s = ⟨.error e, s, t⟩ ∧ invocations t = [] := by
  obtain ⟨t, hrun, hnone⟩ := askModel_run hmodels model event.data s
  rw [hx] at hrun
  refine ⟨t, ?_, hnone⟩
  simp [PayloadRegistry.parse, hm, Prog.run_tryCatch_error hrun, he, Prog.run]

/-- Parsing the payload invokes no handler, and returns exactly when the payload parses. -/
private theorem parse_run (hmodels : ModelsPure env) (registry : PayloadRegistry) (event : ClientEvent) (s : σ) :
    ∃ res t, (registry.parse event.eventType event.data).run env s = ⟨res, s, t⟩ ∧ invocations t = [] ∧
      (res.isOk = true ↔ PayloadParses registry (modelAnswer env s) event) := by
  cases hm : registry.resolve event.eventType with
  | none => exact ⟨.ok .none, [], by simp [PayloadRegistry.parse, hm, Prog.run], rfl,
      iff_of_true rfl (payloadParses_none hm)⟩
  | some model =>
    obtain ⟨t, hrun, hnone⟩ := askModel_run hmodels model event.data s
    rw [payloadParses_some hm]
    cases hx : modelAnswer env s model event.data with
    | ok payload =>
      rw [hx] at hrun
      refine ⟨.ok payload, t, ?_, hnone, iff_of_true rfl (by simp)⟩
      simp [PayloadRegistry.parse, hm, Prog.run_tryCatch_ok hrun]
    | error e =>
      cases he : PayloadRegistry.isParseFailure e with
      | true =>
        rw [hx] at hrun
        refine ⟨.ok .none, t, ?_, hnone, iff_of_true rfl (by simp [he])⟩
        simp [PayloadRegistry.parse, hm, Prog.run_tryCatch_error hrun, he, Prog.run]
      | false =>
        obtain ⟨t, hrun, hnone⟩ := parse_run_error hmodels hm hx he
        exact ⟨.error e, t, hrun, hnone, iff_of_false (by simp [Except.isOk, Except.toBool]) (by simp [he])⟩

/-- A feed behind its payload. -/
def Dispatcher.feedRest (dispatcher : Dispatcher) (registry : PayloadRegistry) (event : ClientEvent)
    (ctx : AccountContext) (payload : Value) : Py DispatchResult :=
  (chain dispatcher.outer ({ dispatcher with registry := registry } : Dispatcher).walkAndHandle event
    (Dispatcher.withPayload (Dispatcher.baseData ctx) payload)).bind fun a => .ret a.1

private theorem feedRest_blind (hd : PayloadBlind dispatcher) (registry registry' : PayloadRegistry)
    (event : ClientEvent) (ctx : AccountContext) (payload payload' : Value) :
    BlindProg Eq (dispatcher.feedRest registry event ctx payload)
      (dispatcher.feedRest registry' event ctx payload') := by
  have hwalk : BlindLinks ({ dispatcher with registry := registry } : Dispatcher).walkAndHandle
      ({ dispatcher with registry := registry' } : Dispatcher).walkAndHandle := by
    intro event data data' hdata
    refine tryRouters_blind hd.inner ?_ hdata
    rw [Router.flatMap_handlers_walk]
    exact hd.callbacks
  have hdata := agreeBut_withPayload (Dispatcher.baseData ctx) payload payload'
  exact (chain_blind hd.outer hwalk event _ _ hdata).bind fun a a' ha => .ret ha.1

/-- If the payload parses, the feed is what is left of it then. -/
private theorem feedWith_run (hmodels : ModelsPure env) (dispatcher : Dispatcher) (registry : PayloadRegistry)
    (event : ClientEvent) (ctx : AccountContext) (s : σ)
    (hparses : PayloadParses registry (modelAnswer env s) event) :
    ∃ payload, (dispatcher.feedWith env s registry event ctx).result =
        ((dispatcher.feedRest registry event ctx payload).run env s).result ∧
      invocations (dispatcher.feedWith env s registry event ctx).trace =
        invocations ((dispatcher.feedRest registry event ctx payload).run env s).trace := by
  obtain ⟨res, t, hrun, hnone, hok⟩ := parse_run hmodels registry event s
  cases res with
  | error e => cases hok.2 hparses
  | ok payload =>
    have hfeed : dispatcher.feedWith env s registry event ctx = _ := Prog.run_bind_ok hrun
    rw [hfeed]
    refine ⟨payload, rfl, ?_⟩
    show invocations (t ++ _) = _
    rw [invocations_append, hnone, List.nil_append]
    rfl

/-- If it does not, the feed raises what the model raises, and invokes no handler. -/
private theorem feedWith_raises (hmodels : ModelsPure env) (dispatcher : Dispatcher) {registry : PayloadRegistry}
    {event : ClientEvent} (ctx : AccountContext) {s : σ}
    (hparses : ¬ PayloadParses registry (modelAnswer env s) event) :
    ∃ model e, registry.resolve event.eventType = some model ∧ modelAnswer env s model event.data = .error e ∧
      (dispatcher.feedWith env s registry event ctx).result = .error e ∧
      invocations (dispatcher.feedWith env s registry event ctx).trace = [] := by
  unfold PayloadParses at hparses
  push Not at hparses
  obtain ⟨model, e, hm, hx, he⟩ := hparses
  obtain ⟨t, hrun, hnone⟩ := parse_run_error hmodels hm hx (Bool.eq_false_of_not_eq_true he)
  have hfeed : dispatcher.feedWith env s registry event ctx = _ := Prog.run_bind_error hrun
  rw [hfeed]
  exact ⟨model, e, hm, hx, rfl, hnone⟩

/-- With payloads that parse, two feeds come to the same. -/
private theorem feedWith_same (hd : PayloadBlind dispatcher) (henv : Prog.Respects payloadLink env)
    (hmodels : ModelsPure env) {registry registry' : PayloadRegistry} {event : ClientEvent} (ctx : AccountContext)
    {s : σ} (h : PayloadParses registry (modelAnswer env s) event)
    (h' : PayloadParses registry' (modelAnswer env s) event) :
    (dispatcher.feedWith env s registry event ctx).result = (dispatcher.feedWith env s registry' event ctx).result ∧
      invocations (dispatcher.feedWith env s registry event ctx).trace =
        invocations (dispatcher.feedWith env s registry' event ctx).trace := by
  obtain ⟨payload, hresult, hinvoked⟩ := feedWith_run hmodels dispatcher registry event ctx s h
  obtain ⟨payload', hresult', hinvoked'⟩ := feedWith_run hmodels dispatcher registry' event ctx s h'
  obtain ⟨hres, -, htrace⟩ := (feedRest_blind hd registry registry' event ctx payload payload').run henv s
  constructor
  · rw [hresult, hresult', hres.eq]
  · rw [hinvoked, hinvoked', invocations_linked htrace]

end

/-! The handler `greet` behind the middleware of the library, with a strict payload model and with none. -/

def reception : Dispatcher :=
  { root := greetRouter, outer := [logging, errorBoundary, dayLong.call], inner := [errorBoundary] }

/-- Constructing a model raises `e`; everything else goes well. -/
def strictEnv (e : Exn) : Prog.Env Req Resp Exn Unit
  | .construct .., s => (.error e, s)
  | .modelValidate .., s | .callback .., s | .external .., s => (.ok .none, s)
  | .filter _ _ data, s => (.ok (.plain true, data), s)
  | .markIfNew .., s => (.ok true, s)

private theorem reception_blind : PayloadBlind reception where
  callbacks := by simp [reception, greetRouter, Router.on, Router.handlersInOrder, Router.handlersOfChildren,
    Router.handlers, Router.children, HandlerCallback.Payloadless, greet]
  outer := by
    intro m hm
    rcases List.mem_cons.1 hm with rfl | hm
    · exact logging_blind
    · rcases List.mem_cons.1 hm with rfl | hm
      · exact errorBoundary_blind
      · rw [List.mem_singleton.1 hm]
        exact dayLong.blind
  inner := by
    intro m hm
    rw [List.mem_singleton.1 hm]
    exact errorBoundary_blind

private theorem strictEnv_respects (e : Exn) : Prog.Respects payloadLink (strictEnv e) := by
  intro r r' s hr
  cases hr with
  | filter f event h => exact ⟨.ok ⟨rfl, h⟩, rfl⟩
  | same _ hsame =>
    refine ⟨?_, rfl⟩
    cases r with
    | filter f event data => exact absurd rfl (hsame f event data)
    | _ => exact HEq.rfl

private theorem strictEnv_pure (e : Exn) : ModelsPure (strictEnv e) := fun _ _ _ => ⟨rfl, rfl⟩

end EventusSdk
