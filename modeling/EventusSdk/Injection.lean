import Mathlib.Data.List.Induction
import EventusSdk.Payloads

/-!
# Argument injection

What a handler is called with.  Its keyword arguments are the parameters it declares, looked up in the event and in the
`data` dict: what the feed put there, overlaid with the dicts its own filters returned.  A name that is not there is
left out, and Python then refuses the call.

The names a feed provides are there in any event, except for `payload`: the feed leaves it out when there is no parsed
payload, where an ordinary handler would need it to be `None`.

`HandsOn` is said of middleware that passes a new event on as it is, once, with the dict as it is; it may ask for other
things before and after.
-/

namespace EventusSdk

/-! ### Parameters -/

/-- What a feed provides by name. -/
def injected : List String := ["event", "ctx", "client", "subscription_id", "payload"]

/-- A callback that can be called by keyword only, with every parameter given, and asks for what a feed provides. -/
def HandlerCallback.Ordinary (callback : HandlerCallback) : Prop :=
  ∀ p ∈ callback.params,
    p.name ∈ injected ∧ (p.kind = .positionalOrKeyword ∨ p.kind = .keywordOnly) ∧ p.hasDefault = false

def HandlerCallback.Declares (callback : HandlerCallback) (name : String) : Prop := ∃ p ∈ callback.params, p.name = name

instance (callback : HandlerCallback) (name : String) : Decidable (callback.Declares name) :=
  inferInstanceAs (Decidable (∃ p ∈ callback.params, p.name = name))

/-- Python enters the body of an ordinary callback: no parameter is missing and no argument is unexpected. -/
def HandlerCallback.Accepts (callback : HandlerCallback) (kwargs : Data) : Prop :=
  ∀ key, key ∈ kwargs ↔ callback.Declares key

/-- The parsed payload, `None` where there is none. -/
def parsedPayload (registry : PayloadRegistry) (validate : Model → EventData → Except Exn Value)
    (event : ClientEvent) : Value :=
  match registry.resolve event.eventType with
  | none => .none
  | some model =>
    match validate model event.data with
    | .ok payload => payload
    | .error _ => .none

/-- What the handler is to find under a name: the event, what its filters returned, or what the feed provides. -/
def intended (event : ClientEvent) (ctx : AccountContext) (payload : Value) (extra : Data) (name : String) : Value :=
  if name = "event" then .event event
  else (extra.lookup name).getD
    (if name = "ctx" then .ctx ctx
    else if name = "client" then .client ctx.client
    else if name = "subscription_id" then .str ctx.subscriptionId
    else payload)

/-- The invocation enters the handler's body, with everything the handler declares as intended. -/
def HandlerObject.EnteredBy (h : HandlerObject) (ans : CustomFilter → FilterOutcome) (event : ClientEvent)
    (ctx : AccountContext) (payload : Value) (call : Option (HandlerCallback × Data × Except Exn Value)) : Prop :=
  ∃ kwargs x, call = some (h.callback, kwargs, x) ∧ h.callback.Accepts kwargs ∧
    ∀ p ∈ h.callback.params,
      kwargs.lookup p.name = some (intended event ctx payload (mergedDicts ans h.filters ∅) p.name)

/-- There is a payload for the handler, if it declares it: a parsed one, or one that its filters returned. -/
def HandlerObject.FindsPayload (h : HandlerObject) (ans : CustomFilter → FilterOutcome) (payload : Value) : Prop :=
  h.callback.Declares "payload" → payload ≠ .none ∨ ∃ filt ∈ h.filters, "payload" ∈ filterDict ans filt

section
variable {ans : CustomFilter → FilterOutcome} {event : ClientEvent} {ctx : AccountContext} {data extra : Data}
  {callback : HandlerCallback} {name : String}

private theorem mem_mergedDicts {filters : List Filter} :
    name ∈ mergedDicts ans filters extra ↔ name ∈ extra ∨ ∃ filt ∈ filters, name ∈ filterDict ans filt := by
  induction filters generalizing extra with
  | nil => simp [mergedDicts]
  | cons filt filters ih =>
    have hstep : mergedDicts ans (filt :: filters) extra =
        mergedDicts ans filters (extra.update (filterDict ans filt)) := rfl
    rw [hstep, ih, Dict.update, AList.mem_union, List.exists_mem_cons_iff]
    tauto

/-- The arguments are those of the declared names that are there. -/
theorem lookup_bindKwargs (hc : ∀ p ∈ callback.params, p.kind ≠ .varKeyword) :
    (bindKwargs callback event data).lookup name =
      if callback.Declares name then (data.insert "event" (.event event)).lookup name else none := by
  obtain ⟨id, params⟩ := callback
  induction params using List.reverseRecOn with
  | nil => rfl
  | append_singleton params p ih =>
    have hc' : ∀ q ∈ params, q.kind ≠ .varKeyword := fun q hq => hc q (List.mem_append_left _ hq)
    have hall : ∀ ps : List Param, (∀ q ∈ ps, q.kind ≠ .varKeyword) →
        (ps.any fun q => decide (q.kind = .varKeyword)) = false := fun ps h => by simpa using h
    have hdeclares : HandlerCallback.Declares ⟨id, params ++ [p]⟩ name ↔
        HandlerCallback.Declares ⟨id, params⟩ name ∨ p.name = name := by
      simp [HandlerCallback.Declares, or_and_right, exists_or]
    specialize ih hc'
    simp only [bindKwargs, hall _ hc, hall _ hc', Bool.false_eq_true, ↓reduceIte, List.foldl_append, List.foldl_cons,
      List.foldl_nil, hdeclares] at ih ⊢
    by_cases hp : p.name = name
    · subst hp
      cases hv : (data.insert "event" (.event event)).lookup p.name with
      | none => simpa [hv] using ih
      | some v => simp [AList.lookup_insert]
    · cases hv : (data.insert "event" (.event event)).lookup p.name with
      | none => simpa [hp] using ih
      | some v =>
        rw [AList.lookup_insert_ne (Ne.symm hp), ih]
        simp [hp]

private theorem mem_bindKwargs (hc : ∀ p ∈ callback.params, p.kind ≠ .varKeyword) :
    name ∈ bindKwargs callback event data ↔
      callback.Declares name ∧ name ∈ data.insert "event" (.event event) := by
  rw [← AList.lookup_isSome, ← AList.lookup_isSome, lookup_bindKwargs hc]
  by_cases h : callback.Declares name
  · rw [if_pos h, and_iff_right h]
  · rw [if_neg h]
    exact iff_of_false (by simp) fun h' => h h'.1

/-- Python enters the body exactly when everything that is declared is there. -/
private theorem accepts_bindKwargs (hc : ∀ p ∈ callback.params, p.kind ≠ .varKeyword) :
    callback.Accepts (bindKwargs callback event data) ↔
      ∀ name, callback.Declares name → name ∈ data.insert "event" (.event event) := by
  simp only [HandlerCallback.Accepts, mem_bindKwargs hc, and_iff_left_iff_imp]

end

/-! ### Middleware that hands the event on -/

/-- The dedup store has not seen the event before. -/
def AllNew (t : List Call) : Prop := ∀ key ttl x, (⟨.markIfNew key ttl, x⟩ : Call) ∈ t → x = .ok true

/-- A new event is handed on, once and as it is; an exception in `X` of the next link is let through. -/
def HandsOn {ρ : Type} (X : Exn → Prop) (m : Middleware ρ) : Prop :=
  ∀ handler event data t res, (m handler event data).Runs t res → AllNew t →
    ∃ t₁ t₂ t₃ res', t = t₁ ++ t₂ ++ t₃ ∧ invocations t₁ = [] ∧ invocations t₃ = [] ∧
      (handler event data).Runs t₂ res' ∧ ∀ e, X e → res' = .error e → res = .error e

section
variable {ρ : Type} {X : Exn → Prop} {t t₁ t₂ : List Call}

private theorem allNew_append : AllNew (t₁ ++ t₂) ↔ AllNew t₁ ∧ AllNew t₂ := by
  constructor
  · intro h
    exact ⟨fun key ttl x hx => h key ttl x (List.mem_append_left _ hx),
      fun key ttl x hx => h key ttl x (List.mem_append_right _ hx)⟩
  · intro ⟨h₁, h₂⟩ key ttl x hx
    rcases List.mem_append.1 hx with hx | hx
    · exact h₁ key ttl x hx
    · exact h₂ key ttl x hx

private theorem callbackCalls_eq (t : List Call) :
    callbackCalls t = (invocations t).map fun call => (call.1, call.2.2) := by
  induction t with
  | nil => rfl
  | cons call t ih =>
    obtain ⟨r, x⟩ := call
    cases r with
    | callback callback kwargs => exact congrArg ((callback, x) :: ·) ih
    | _ => exact ih

private theorem invocations_eq_nil (h : callbackCalls t = []) : invocations t = [] := by
  rw [callbackCalls_eq] at h
  exact List.map_eq_nil_iff.1 h

private theorem logging_handsOn : HandsOn X (logging : Middleware ρ) :=
  fun _ _ _ t res hrun _ => ⟨[], t, [], res, by simp, rfl, rfl, hrun, fun _ _ h => h⟩

private theorem errorBoundary_handsOn (hX : ∀ e, X e → e.isException = false) :
    HandsOn X (errorBoundary : Middleware ρ) := by
  intro handler event data t res hrun _
  obtain ⟨x, hnext, hx⟩ := errorBoundary_runs hrun
  refine ⟨[], t, [], x, by simp, rfl, rfl, hnext, ?_⟩
  intro e he heq
  rcases hx with ⟨a, rfl, -⟩ | ⟨e', rfl, hres⟩
  · cases heq
  · obtain rfl := Except.error.inj heq
    rw [hres, hX e' he, if_neg Bool.false_ne_true]

private theorem IdempotencyMiddleware.handsOn (m : IdempotencyMiddleware) : HandsOn X m.call := by
  intro handler event data t res hrun hnew
  obtain ⟨x, t', rfl, hx⟩ := m.runs_cases hrun
  have happend : ∀ (call : Call), call :: t' = [call] ++ t' ++ [] := by simp
  obtain rfl : x = .ok true := hnew _ _ _ (List.mem_cons_self ..)
  rcases hx with ⟨-, hnext⟩ | ⟨hx, -⟩ | ⟨e, hx, -⟩
  · exact ⟨_, t', [], res, happend _, rfl, rfl, hnext, fun _ _ he => he⟩
  · cases hx
  · cases hx

private theorem chain_handsOn {middleware : List (Middleware ρ)} (hm : ∀ m ∈ middleware, HandsOn X m) :
    HandsOn X (chain middleware) := by
  induction middleware with
  | nil => exact logging_handsOn
  | cons m ms ih =>
    intro handler event data t res hrun hnew
    obtain ⟨t₁, t₂, t₃, res', rfl, h₁, h₃, hnext, hpass⟩ := hm m (List.mem_cons_self ..) _ event data t res hrun hnew
    have hnew₂ : AllNew t₂ := (allNew_append.1 (allNew_append.1 hnew).1).2
    obtain ⟨u₁, u₂, u₃, res'', rfl, g₁, g₃, hhandler, hpass'⟩ :=
      ih (fun m' hm' => hm m' (List.mem_cons_of_mem _ hm')) handler event data t₂ res' hnext hnew₂
    refine ⟨t₁ ++ u₁, u₂, u₃ ++ t₃, res'', by simp, by simp [h₁, g₁], by simp [h₃, g₃], hhandler, ?_⟩
    exact fun e he heq => hpass e he (hpass' e he heq)

end

/-! ### The walk -/

section
variable {ans : CustomFilter → FilterOutcome} {event : ClientEvent} {data : Data} {X : Exn → Prop} {t : List Call}
  {dispatcher : Dispatcher} (hinner : ∀ m ∈ dispatcher.inner, HandsOn X m)

include hinner

/-- Behind the inner middleware the callback is invoked once. -/
private theorem chain_invokes {callback : HandlerCallback} {res : Except Exn (Value × Data)}
    (hrun : (chain dispatcher.inner (callCallback callback) event data).Runs t res) (hnew : AllNew t) :
    ∃ x, invocations t = [(callback, bindKwargs callback event data, x)] ∧
      (X .skipHandler → x = .error .skipHandler → res = .error .skipHandler) := by
  obtain ⟨t₁, t₂, t₃, res', rfl, h₁, h₃, hcall, hpass⟩ := chain_handsOn hinner _ event data t res hrun hnew
  obtain ⟨x, rfl, rfl⟩ := callCallback_runs hcall
  refine ⟨x, ?_, fun hskip hx => hpass _ hskip ?_⟩
  · rw [invocations_append, invocations_append, h₁, h₃]
    rfl
  · rw [hx]
    rfl

/-- A handler is invoked once; if it skips and the middleware lets that through, the walk goes on. -/
private theorem runHandler_invokes {callback : HandlerCallback} {res : Except Exn (Option DispatchResult)}
    (hrun : (dispatcher.runHandler callback event data).Runs t res) (hnew : AllNew t) :
    ∃ x, invocations t = [(callback, bindKwargs callback event data, x)] ∧
      (X .skipHandler → x = .error .skipHandler → res = .ok none) := by
  rcases Prog.runs_tryCatch.1 hrun with ⟨a, rfl, h⟩ | ⟨e, t₁, t₂, rfl, h, hsettle⟩
  · rcases Prog.runs_bind.1 h with ⟨v, t₁, t₂, rfl, hcall, rfl, -⟩ | ⟨e, he, -⟩
    · obtain ⟨x, hx, hskip⟩ := chain_invokes hinner hcall (allNew_append.1 hnew).1
      refine ⟨x, by rw [List.append_nil]; exact hx, fun hX hxs => ?_⟩
      cases hskip hX hxs
    · cases he
  · rcases Prog.runs_bind.1 h with ⟨v, u₁, u₂, -, -, -, he⟩ | ⟨e', he, hcall⟩
    · cases he
    · cases he
      obtain ⟨x, hx, hskip⟩ := chain_invokes hinner hcall (allNew_append.1 hnew).1
      obtain ⟨rfl, hres⟩ := settle_runs hsettle
      refine ⟨x, by rw [List.append_nil]; exact hx, fun hX hxs => ?_⟩
      cases hskip hX hxs
      rcases hres with ⟨-, hres⟩ | ⟨hne, -⟩
      · exact hres
      · exact absurd rfl hne

/-- The first handler: it does not match and the walk goes on, or it is invoked and the walk goes on if it skips. -/
private theorem tryHandlers_first {g : HandlerObject} {hs : List HandlerObject}
    {res : Except Exn (Option DispatchResult × Data)}
    (hrun : (dispatcher.tryHandlers (g :: hs) event data).Runs t res) (hans : FiltersAnswer ans t) (hnew : AllNew t) :
    (isCandidate ans event g = false ∧ ∃ t', invocations t = invocations t' ∧
        (dispatcher.tryHandlers hs event data).Runs t' res ∧ FiltersAnswer ans t' ∧ AllNew t') ∨
      (isCandidate ans event g = true ∧ ∃ x t', invocations t =
          (g.callback, bindKwargs g.callback event (data.update (mergedDicts ans g.filters ∅)), x) :: invocations t' ∧
        (X .skipHandler → x = .error .skipHandler →
          (dispatcher.tryHandlers hs event data).Runs t' res ∧ FiltersAnswer ans t' ∧ AllNew t')) := by
  simp only [Dispatcher.tryHandlers, Prog.bind_eq, Prog.runs_bind] at hrun
  rcases hrun with ⟨⟨extra, data'⟩, t₁, t₂, rfl, hf, hrest⟩ | ⟨e, -, hf⟩
  · obtain ⟨hans₁, hans₂⟩ := filtersAnswer_append.1 hans
    obtain ⟨-, hnew₂⟩ := allNew_append.1 hnew
    obtain ⟨hc, -, ho⟩ := evalFilters_runs hf hans₁
    obtain ⟨hextra, rfl⟩ : extra = (if isCandidate ans event g then some (mergedDicts ans g.filters ∅) else none) ∧
        data' = data := by simpa [isCandidate] using ho
    rw [invocations_append, invocations_eq_nil hc, List.nil_append]
    by_cases hcand : isCandidate ans event g = true
    · rw [if_pos hcand] at hextra
      subst hextra
      refine Or.inr ⟨hcand, ?_⟩
      rcases Prog.runs_bind.1 hrest with ⟨r, t₃, t₄, rfl, hcall, hrest⟩ | ⟨e, rfl, hcall⟩
      · obtain ⟨hnew₃, hnew₄⟩ := allNew_append.1 hnew₂
        obtain ⟨x, hx, hnone⟩ := runHandler_invokes hinner hcall hnew₃
        refine ⟨x, t₄, by rw [invocations_append, hx]; rfl, fun hX hskip => ?_⟩
        cases hnone hX hskip
        exact ⟨hrest, (filtersAnswer_append.1 hans₂).2, hnew₄⟩
      · obtain ⟨x, hx, hnone⟩ := runHandler_invokes hinner hcall hnew₂
        refine ⟨x, [], hx, fun hX hskip => ?_⟩
        cases hnone hX hskip
    · rw [if_neg hcand] at hextra
      subst hextra
      exact Or.inl ⟨Bool.eq_false_of_not_eq_true hcand, t₂, rfl, hrest, hans₂, hnew₂⟩
  · cases (evalFilters_runs hf hans).2.2

/-- A handler that matches is invoked once those before it that match have skipped, with what is there for it. -/
private theorem tryHandlers_invokes {pre post : List HandlerObject} {h : HandlerObject}
    {res : Except Exn (Option DispatchResult × Data)}
    (hrun : (dispatcher.tryHandlers (pre ++ h :: post) event data).Runs t res) (hans : FiltersAnswer ans t)
    (hnew : AllNew t) (hcand : isCandidate ans event h = true)
    (hX : ∀ g ∈ pre, isCandidate ans event g = true → X .skipHandler)
    (hskip : ∀ call ∈ (invocations t).take (pre.countP (isCandidate ans event)),
      call.2.2 = .error .skipHandler) :
    ∃ x, (invocations t)[pre.countP (isCandidate ans event)]? =
      some (h.callback, bindKwargs h.callback event (data.update (mergedDicts ans h.filters ∅)), x) := by
  induction pre generalizing t with
  | nil =>
    rcases tryHandlers_first hinner hrun hans hnew with ⟨hno, -⟩ | ⟨-, x, t', hinv, -⟩
    · rw [hcand] at hno
      cases hno
    · exact ⟨x, by rw [hinv]; rfl⟩
  | cons g pre ih =>
    have hX' : ∀ g ∈ pre, isCandidate ans event g = true → X .skipHandler :=
      fun g' hg' => hX g' (List.mem_cons_of_mem _ hg')
    rcases tryHandlers_first hinner hrun hans hnew with ⟨hno, t', hinv, hrest, hans', hnew'⟩ | ⟨hg, x, t', hinv, hgo⟩
    · rw [List.countP_cons_of_neg (by simp [hno]), hinv] at hskip ⊢
      exact ih hrest hans' hnew' hX' hskip
    · rw [List.countP_cons_of_pos hg, hinv, List.take_succ_cons] at hskip
      obtain ⟨hx, hlater⟩ := List.forall_mem_cons.1 hskip
      obtain ⟨hrest, hans', hnew'⟩ := hgo (hX g (List.mem_cons_self ..) hg) hx
      rw [List.countP_cons_of_pos hg, hinv, List.getElem?_cons_succ]
      exact ih hrest hans' hnew' hX' hlater

end

/-! ### The arguments of a handler -/

section
variable {event : ClientEvent} {ctx : AccountContext} {payload : Value} {extra : Data} {callback : HandlerCallback}
  {name : String}

/-- What a feed starts with, under the names it provides. -/
theorem lookup_base (ctx : AccountContext) (payload : Value) :
    (Dispatcher.withPayload (Dispatcher.baseData ctx) payload).lookup "ctx" = some (.ctx ctx) ∧
      (Dispatcher.withPayload (Dispatcher.baseData ctx) payload).lookup "client" = some (.client ctx.client) ∧
      (Dispatcher.withPayload (Dispatcher.baseData ctx) payload).lookup "subscription_id" =
        some (.str ctx.subscriptionId) := by
  cases payload <;> exact ⟨rfl, rfl, rfl⟩

theorem lookup_payload (ctx : AccountContext) (h : payload ≠ .none) :
    (Dispatcher.withPayload (Dispatcher.baseData ctx) payload).lookup "payload" = some payload := by
  cases payload with
  | none => exact absurd rfl h
  | _ => rfl

/-- The dict of a handler: what the feed provides, overlaid with what the handler's filters returned. -/
def handlerData (ctx : AccountContext) (payload : Value) (extra : Data) : Data :=
  (Dispatcher.withPayload (Dispatcher.baseData ctx) payload).update extra

/-- A name that a feed provides is there as intended, except for a missing payload. -/
private theorem lookup_handlerData (hname : name ∈ injected)
    (hpayload : name = "payload" → payload ≠ .none ∨ "payload" ∈ extra) :
    ((handlerData ctx payload extra).insert "event" (.event event)).lookup name =
      some (intended event ctx payload extra name) := by
  obtain ⟨hctx, hclient, hsub⟩ := lookup_base ctx payload
  unfold intended handlerData
  by_cases hevent : name = "event"
  · rw [if_pos hevent, hevent, AList.lookup_insert]
  · rw [if_neg hevent, AList.lookup_insert_ne hevent, Dict.lookup_update]
    cases hx : extra.lookup name with
    | some v => rfl
    | none =>
      simp only [injected, List.mem_cons, hevent, List.not_mem_nil, or_false, false_or] at hname
      rcases hname with rfl | rfl | rfl | rfl
      · exact hctx
      · exact hclient
      · exact hsub
      · rcases hpayload rfl with h | h
        · exact lookup_payload ctx h
        · exact absurd h (AList.lookup_eq_none.1 hx)

private theorem payload_notMem (hextra : "payload" ∉ extra) :
    "payload" ∉ (handlerData ctx .none extra).insert "event" (.event event) := by
  rw [← AList.lookup_eq_none, AList.lookup_insert_ne (by decide), handlerData, Dict.lookup_update,
    AList.lookup_eq_none.2 hextra]
  rfl

/-- An ordinary handler is called with everything it declares, as intended, exactly when the payload it may declare is
there. -/
private theorem bindKwargs_intended_iff (hord : callback.Ordinary) (event : ClientEvent) (ctx : AccountContext)
    (payload : Value) (extra : Data) :
    (callback.Accepts (bindKwargs callback event (handlerData ctx payload extra)) ∧
      ∀ p ∈ callback.params, (bindKwargs callback event (handlerData ctx payload extra)).lookup p.name =
        some (intended event ctx payload extra p.name)) ↔
    (callback.Declares "payload" → payload ≠ .none ∨ "payload" ∈ extra) := by
  have hkind : ∀ p ∈ callback.params, p.kind ≠ .varKeyword := by
    intro p hp hk
    obtain ⟨-, hkind, -⟩ := hord p hp
    simp [hk] at hkind
  constructor
  · rintro ⟨haccepts, -⟩ hdeclares
    have hmem := (accepts_bindKwargs hkind).1 haccepts "payload" hdeclares
    by_contra hnone
    simp only [ne_eq, not_or, not_not] at hnone
    obtain ⟨rfl, hextra⟩ := hnone
    exact payload_notMem hextra hmem
  · intro hpayload
    have hfound : ∀ p ∈ callback.params,
        ((handlerData ctx payload extra).insert "event" (.event event)).lookup p.name =
          some (intended event ctx payload extra p.name) := by
      intro p hp
      exact lookup_handlerData (hord p hp).1 fun hname => hpayload ⟨p, hp, hname⟩
    constructor
    · refine (accepts_bindKwargs hkind).2 fun name hdeclares => ?_
      obtain ⟨p, hp, rfl⟩ := hdeclares
      rw [← AList.lookup_isSome, hfound p hp]
      rfl
    · intro p hp
      rw [lookup_bindKwargs hkind, if_pos ⟨p, hp, rfl⟩, hfound p hp]

end

/-! ### The feed -/

section
variable {ans : CustomFilter → FilterOutcome} {validate : Model → EventData → Except Exn Value} {event : ClientEvent}
  {ctx : AccountContext} {X : Exn → Prop} {t : List Call}

/-- Behind such middleware the event comes to the loop over the handlers. -/
private theorem walk_runs {dispatcher : Dispatcher} {data : Data} {res : Except Exn DispatchResult}
    (houter : ∀ m ∈ dispatcher.outer, HandsOn X m)
    (hrun : ((chain dispatcher.outer dispatcher.walkAndHandle event data).bind fun a => .ret a.1).Runs t res)
    (hans : FiltersAnswer ans t) (hnew : AllNew t) :
    ∃ u res', invocations t = invocations u ∧
      (dispatcher.tryHandlers dispatcher.root.handlersInOrder event data).Runs u res' ∧ FiltersAnswer ans u ∧
      AllNew u := by
  have hchain : ∃ r, (chain dispatcher.outer dispatcher.walkAndHandle event data).Runs t r := by
    rcases Prog.runs_bind.1 hrun with ⟨a, t₁, t₂, rfl, h, rfl, -⟩ | ⟨e, -, h⟩
    · exact ⟨.ok a, by rwa [List.append_nil]⟩
    · exact ⟨.error e, h⟩
  obtain ⟨r, hchain⟩ := hchain
  obtain ⟨t₁, t₂, t₃, r', rfl, h₁, h₃, hwalk, -⟩ := chain_handsOn houter _ event data t r hchain hnew
  have hans₂ : FiltersAnswer ans t₂ := (filtersAnswer_append.1 (filtersAnswer_append.1 hans).1).2
  have hnew₂ : AllNew t₂ := (allNew_append.1 (allNew_append.1 hnew).1).2
  have hinv : invocations (t₁ ++ t₂ ++ t₃) = invocations t₂ := by
    rw [invocations_append, invocations_append, h₁, h₃, List.nil_append, List.append_nil]
  rw [Dispatcher.walkAndHandle, Dispatcher.tryRouters_eq, Router.flatMap_handlers_walk] at hwalk
  rcases Prog.runs_bind.1 hwalk with ⟨a, u₁, u₂, rfl, h, rfl, -⟩ | ⟨e, -, h⟩
  · rw [List.append_nil] at hinv hans₂ hnew₂ ⊢
    exact ⟨u₁, _, hinv, h, hans₂, hnew₂⟩
  · exact ⟨t₂, _, hinv, h, hans₂, hnew₂⟩

/-- What parsing returns, when it returns. -/
private theorem parse_eq {registry : PayloadRegistry} {payload : Value}
    (hrun : (registry.parse event.eventType event.data).Runs t (.ok payload)) (hval : ModelsAnswer validate t) :
    payload = parsedPayload registry validate event := by
  unfold PayloadRegistry.parse at hrun
  unfold parsedPayload
  cases hm : registry.resolve event.eventType with
  | none =>
    rw [hm] at hrun
    exact Except.ok.inj hrun.2
  | some model =>
    simp only [hm, Prog.runs_tryCatch] at hrun
    rcases hrun with ⟨v, hv, h⟩ | ⟨e, t₁, t₂, rfl, h, hcatch⟩
    · obtain ⟨-, -, hx⟩ := askModel_runs h hval
      cases hv
      simp [← hx]
    · obtain ⟨-, -, hx⟩ := askModel_runs h fun m d x hmem => hval m d x
        (hmem.imp (List.mem_append_left _) (List.mem_append_left _))
      split at hcatch
      · have hnone := Except.ok.inj hcatch.2
        simpa [← hx] using hnone
      · cases hcatch.2

/-- A handler that matches, reached because those before it that match have skipped, is entered with everything it
declares if and only if the payload model raises nothing but `TypeError` and `ValueError` and the handler finds the
payload it may declare. -/
theorem handler_injected_iff {dispatcher : Dispatcher} {res : Except Exn DispatchResult}
    {pre post : List HandlerObject} {h : HandlerObject}
    (houter : ∀ m ∈ dispatcher.outer, HandsOn (fun _ => False) m) (hinner : ∀ m ∈ dispatcher.inner, HandsOn X m)
    (hrun : (dispatcher.feed event ctx).Runs t res) (hans : FiltersAnswer ans t) (hval : ModelsAnswer validate t)
    (hnew : AllNew t) (hroot : dispatcher.root.handlersInOrder = pre ++ h :: post)
    (hcand : isCandidate ans event h = true) (hord : h.callback.Ordinary)
    (hX : ∀ g ∈ pre, isCandidate ans event g = true → X .skipHandler)
    (hskip : ∀ call ∈ (invocations t).take (pre.countP (isCandidate ans event)), call.2.2 = .error .skipHandler) :
    h.EnteredBy ans event ctx (parsedPayload dispatcher.registry validate event)
        (invocations t)[pre.countP (isCandidate ans event)]? ↔
      PayloadParses dispatcher.registry validate event ∧
        h.FindsPayload ans (parsedPayload dispatcher.registry validate event) := by
  rcases Prog.runs_bind.1 hrun with ⟨payload, t₁, t₂, rfl, hparse, hrest⟩ | ⟨e, rfl, hparse⟩
  · have hval₁ : ModelsAnswer validate t₁ := fun m d x hx => hval m d x
      (hx.imp (List.mem_append_left _) (List.mem_append_left _))
    obtain ⟨hc, -, hparses⟩ := parse_runs hparse hval₁
    obtain rfl := parse_eq hparse hval₁
    obtain ⟨-, hans₂⟩ := filtersAnswer_append.1 hans
    obtain ⟨-, hnew₂⟩ := allNew_append.1 hnew
    obtain ⟨u, res', hinv, hwalk, hans₃, hnew₃⟩ := walk_runs houter hrest hans₂ hnew₂
    rw [invocations_append, invocations_eq_nil hc, List.nil_append, hinv] at hskip ⊢
    rw [hroot] at hwalk
    obtain ⟨x, hx⟩ := tryHandlers_invokes hinner hwalk hans₃ hnew₃ hcand hX hskip
    have harguments := bindKwargs_intended_iff hord event ctx (parsedPayload dispatcher.registry validate event)
      (mergedDicts ans h.filters ∅)
    rw [mem_mergedDicts] at harguments
    constructor
    · rintro ⟨kwargs, y, hy, hkwargs⟩
      rw [hx] at hy
      cases hy
      refine ⟨hparses.1 rfl, fun hdeclares => ?_⟩
      exact (harguments.1 hkwargs hdeclares).imp_right fun h => h.resolve_left (AList.notMem_empty _)
    · intro ⟨_, hpayload⟩
      exact ⟨_, x, hx, harguments.2 fun hdeclares => (hpayload hdeclares).imp_right Or.inr⟩
  · obtain ⟨hc, -, hparses⟩ := parse_runs hparse hval
    refine iff_of_false ?_ fun hcond => by cases hparses.2 hcond.1
    rintro ⟨kwargs, x, hinv, -⟩
    rw [invocations_eq_nil hc] at hinv
    cases hinv

end

/-! A handler that declares the payload, fed with a model for `new_lot` and with none. -/

def appraise : HandlerCallback := ⟨1, [{ name := "event" }, { name := "payload" }]⟩

/-- The handler `appraise` behind middleware of the library. -/
def appraisal (registry : PayloadRegistry) : Dispatcher where
  root := (Router.mk [] []).on [.str "new_lot"] appraise
  outer := [logging, errorBoundary, dayLong.call]
  inner := [logging]
  registry := registry

private theorem appraise_ordinary : appraise.Ordinary := by
  simp [HandlerCallback.Ordinary, appraise, injected]

private theorem appraisal_handsOn (registry : PayloadRegistry) :
    ∀ m ∈ (appraisal registry).outer, HandsOn (fun _ => False) m := by
  intro m hm
  rcases List.mem_cons.1 hm with rfl | hm
  · exact logging_handsOn
  · rcases List.mem_cons.1 hm with rfl | hm
    · exact errorBoundary_handsOn fun _ h => h.elim
    · rw [List.mem_singleton.1 hm]
      exact dayLong.handsOn

/-- A feed that parses the payload, asks the dedup store and invokes the handler. -/
def lotAppraised : List Call :=
  [⟨.construct ⟨0, false⟩ [], .ok (.object 7)⟩, ⟨.markIfNew "sub-1:1" 86400, .ok true⟩,
    ⟨.callback appraise (AList.insert "payload" (.object 7) (AList.singleton "event" (.event newLot))), .ok .none⟩]

/-- With a parsed payload the handler is called with both of its parameters. -/
theorem handler_injected_appraise :
    ((appraisal strictRegistry).feed newLot seller).Runs lotAppraised (.ok ⟨.handled, newLot, none⟩) ∧
      (⟨appraise, [.eventType ["new_lot"]]⟩ : HandlerObject).EnteredBy (fun _ => .plain true) newLot seller (.object 7)
        (invocations lotAppraised)[0]? := by
  have hrun : ((appraisal strictRegistry).feed newLot seller).Runs lotAppraised (.ok ⟨.handled, newLot, none⟩) :=
    ⟨_, _, rfl, _, _, rfl, _, _, rfl, rfl, rfl⟩
  have hinner : ∀ m ∈ (appraisal strictRegistry).inner, HandsOn (· = .skipHandler) m := by
    intro m hm
    rw [List.mem_singleton.1 hm]
    exact logging_handsOn
  have hroot : (appraisal strictRegistry).root.handlersInOrder =
      [] ++ (⟨appraise, [.eventType ["new_lot"]]⟩ : HandlerObject) :: [] := rfl
  have hans : FiltersAnswer (fun _ => .plain true) lotAppraised := by simp [FiltersAnswer, lotAppraised]
  have hval : ModelsAnswer (fun _ _ => .ok (.object 7)) lotAppraised := by simp [ModelsAnswer, lotAppraised]
  have hnew : AllNew lotAppraised := by simp [AllNew, lotAppraised]
  have hparses : PayloadParses strictRegistry (fun _ _ => .ok (.object 7)) newLot := fun _ _ _ h => by cases h
  have hfound : parsedPayload strictRegistry (fun _ _ => .ok (.object 7)) newLot ≠ .none := Value.noConfusion
  exact ⟨hrun, (handler_injected_iff (appraisal_handsOn _) hinner hrun hans hval hnew hroot rfl appraise_ordinary
    (by simp) (by simp)).2 ⟨hparses, fun _ => Or.inl hfound⟩⟩

/-- Without one the call raises `TypeError` before the handler's body is entered, and the event is `ERRORED`. -/
theorem handler_not_injected :
    appraise.Ordinary ∧ ∃ t kwargs, ((appraisal .empty).feed newLot seller).Runs t
        (.ok ⟨.errored, newLot, some .typeError⟩) ∧
      invocations t = [(appraise, kwargs, .error .typeError)] ∧ ¬ appraise.Accepts kwargs := by
  refine ⟨appraise_ordinary, [⟨.markIfNew "sub-1:1" 86400, .ok true⟩,
    ⟨.callback appraise (AList.singleton "event" (.event newLot)), .error .typeError⟩], _,
    ⟨_, _, rfl, _, _, rfl, rfl, rfl⟩, rfl, fun haccepts => ?_⟩
  have hmem := (haccepts "payload").2 ⟨⟨"payload", .positionalOrKeyword, false⟩, by simp [appraise], rfl⟩
  exact absurd hmem (by decide)

end EventusSdk
