import EventusSdk.Dispatcher

/-!
# First-match routing

Without middleware, `feed` offers the event to the handlers of the tree in pre-order.  A handler is a *candidate* when
each of its filters returns a true value; the candidates are called one after the other until one of them does not
raise `SkipHandler`, and that one decides the result.

The statement is about every run of `feed` in which the filters return and leave `data` alone.  `ans` is what the
application's filters return for this event; the callbacks answer as they like, each time anew.
-/

namespace EventusSdk

/-! ### What a trace says about filters and callbacks -/

/-- The callbacks invoked, each with its answer. -/
def callbackCalls (t : List Call) : List (HandlerCallback × Except Exn Value) :=
  t.filterMap fun
    | ⟨.callback cb _, x⟩ => some (cb, x)
    | _ => none

/-- The application's filters that were asked. -/
def filterCalls (t : List Call) : List CustomFilter :=
  t.filterMap fun
    | ⟨.filter f _ _, _⟩ => some f
    | _ => none

@[simp] theorem callbackCalls_append (t₁ t₂ : List Call) :
    callbackCalls (t₁ ++ t₂) = callbackCalls t₁ ++ callbackCalls t₂ := List.filterMap_append

@[simp] theorem filterCalls_append (t₁ t₂ : List Call) :
    filterCalls (t₁ ++ t₂) = filterCalls t₁ ++ filterCalls t₂ := List.filterMap_append

private theorem calls_append_callback (callback : HandlerCallback) (kwargs : Data) (x : Except Exn Value)
    {t : List Call} {fs : List CustomFilter} (hc : callbackCalls t = []) (hf : filterCalls t = fs) :
    callbackCalls (t ++ [⟨.callback callback kwargs, x⟩]) = [(callback, x)] ∧
      filterCalls (t ++ [⟨.callback callback kwargs, x⟩]) = fs := by
  rw [callbackCalls_append, filterCalls_append, hc, hf]
  exact ⟨rfl, List.append_nil fs⟩

/-- Every filter asked returned what `ans` says, and left `data` as it was. -/
def FiltersAnswer (ans : CustomFilter → FilterOutcome) (t : List Call) : Prop :=
  ∀ f event data x, (⟨.filter f event data, x⟩ : Call) ∈ t → x = .ok (ans f, data)

theorem filtersAnswer_append {ans : CustomFilter → FilterOutcome} {t₁ t₂ : List Call} :
    FiltersAnswer ans (t₁ ++ t₂) ↔ FiltersAnswer ans t₁ ∧ FiltersAnswer ans t₂ := by
  constructor
  · intro h
    exact ⟨fun f e d x hx => h f e d x (List.mem_append_left _ hx),
      fun f e d x hx => h f e d x (List.mem_append_right _ hx)⟩
  · intro ⟨h₁, h₂⟩ f e d x hx
    rcases List.mem_append.1 hx with hx | hx
    · exact h₁ f e d x hx
    · exact h₂ f e d x hx

/-! ### The declarative side -/

/-- The dict a filter returned, empty when it returned something else. -/
def FilterOutcome.asDict : FilterOutcome → Data
  | .plain _ => ∅
  | .dict d => d

section
variable (ans : CustomFilter → FilterOutcome) (event : ClientEvent)

def passes : Filter → Bool
  | .eventType eventTypes => eventTypes.contains event.eventType
  | .custom f => (ans f).truthy

def isCandidate (handler : HandlerObject) : Bool := handler.filters.all (passes ans event)

/-- The application's filters among those evaluated: up to and including the first that fails. -/
def asked : List Filter → List CustomFilter
  | [] => []
  | .eventType eventTypes :: filters => if eventTypes.contains event.eventType then asked filters else []
  | .custom f :: filters => f :: if (ans f).truthy then asked filters else []

/-- The dict a filter adds to those of its handler. -/
def filterDict : Filter → Data
  | .eventType _ => ∅
  | .custom f => (ans f).asDict

/-- The dicts of the filters laid over each other. -/
def mergedDicts (filters : List Filter) (extra : Data) : Data :=
  filters.foldl (fun extra filt => extra.update (filterDict ans filt)) extra

/-- The result of the feed when a candidate that answered `x` decides it. -/
def settled : Except Exn Value → Except Exn DispatchResult
  | .ok _ => .ok ⟨.handled, event, none⟩
  | .error e => if e.isException then .ok ⟨.errored, event, some e⟩ else .error e

/-- The handlers `hs` were visited and none decided: the candidates among them were called and raised `SkipHandler`. -/
def PassedOver (hs : List HandlerObject) (t : List Call) : Prop :=
  callbackCalls t = (hs.filter (isCandidate ans event)).map (fun h => (h.callback, .error .skipHandler)) ∧
    filterCalls t = hs.flatMap fun h => asked ans event h.filters

/-- A candidate among `hs` decided with the answer `x`, after the handlers before it were passed over; nothing was
asked of the handlers behind it. -/
def DecidedBy (hs : List HandlerObject) (t : List Call) (x : Except Exn Value) : Prop :=
  ∃ pre h post, hs = pre ++ h :: post ∧ isCandidate ans event h = true ∧ x ≠ .error .skipHandler ∧
    callbackCalls t =
      (pre.filter (isCandidate ans event)).map (fun h => (h.callback, .error .skipHandler)) ++ [(h.callback, x)] ∧
    filterCalls t = (pre ++ [h]).flatMap fun h => asked ans event h.filters

/-- First match over the handlers `hs`. -/
def FirstMatch (hs : List HandlerObject) (t : List Call) (res : Except Exn DispatchResult) : Prop :=
  (PassedOver ans event hs t ∧ res = .ok ⟨.skipped, event, none⟩) ∨
    ∃ x, DecidedBy ans event hs t x ∧ res = settled event x

end

variable {ans : CustomFilter → FilterOutcome} {event : ClientEvent} {hs hs₁ hs₂ : List HandlerObject}
  {t t₁ t₂ : List Call} {x : Except Exn Value}

private theorem PassedOver.append (h₁ : PassedOver ans event hs₁ t₁) (h₂ : PassedOver ans event hs₂ t₂) :
    PassedOver ans event (hs₁ ++ hs₂) (t₁ ++ t₂) := by
  simp only [PassedOver, callbackCalls_append, filterCalls_append, List.filter_append, List.map_append,
    List.flatMap_append]
  exact ⟨by rw [h₁.1, h₂.1], by rw [h₁.2, h₂.2]⟩

private theorem PassedOver.append_decidedBy (h₁ : PassedOver ans event hs₁ t₁) (h₂ : DecidedBy ans event hs₂ t₂ x) :
    DecidedBy ans event (hs₁ ++ hs₂) (t₁ ++ t₂) x := by
  obtain ⟨pre, h, post, rfl, hc, hx, hcalls, hfilters⟩ := h₂
  refine ⟨hs₁ ++ pre, h, post, by simp, hc, hx, ?_, ?_⟩
  · simp only [callbackCalls_append, List.filter_append, List.map_append, h₁.1, hcalls, List.append_assoc]
  · rw [filterCalls_append, h₁.2, hfilters, List.append_assoc, ← List.flatMap_append]

private theorem DecidedBy.append_right (h : DecidedBy ans event hs₁ t x) (hs₂ : List HandlerObject) :
    DecidedBy ans event (hs₁ ++ hs₂) t x := by
  obtain ⟨pre, h, post, rfl, hc, hx, hcalls, hfilters⟩ := h
  exact ⟨pre, h, post ++ hs₂, by simp, hc, hx, hcalls, hfilters⟩

theorem PassedOver.nil : PassedOver ans event [] [] := ⟨rfl, rfl⟩

/-! One handler: its filters fail, or it is called and raises `SkipHandler`, or it is called and decides. -/

private theorem PassedOver.of_failed {h : HandlerObject} (hcand : isCandidate ans event h = false)
    (hc : callbackCalls t = []) (hf : filterCalls t = asked ans event h.filters) : PassedOver ans event [h] t :=
  ⟨by simp [hc, hcand], by simp [hf]⟩

private theorem PassedOver.of_skipped {h : HandlerObject} (hcand : isCandidate ans event h = true)
    (hc : callbackCalls t = [(h.callback, .error .skipHandler)]) (hf : filterCalls t = asked ans event h.filters) :
    PassedOver ans event [h] t :=
  ⟨by simp [hc, hcand], by simp [hf]⟩

private theorem DecidedBy.of_called {h : HandlerObject} (hcand : isCandidate ans event h = true)
    (hc : callbackCalls t = [(h.callback, x)]) (hf : filterCalls t = asked ans event h.filters)
    (hx : x ≠ .error .skipHandler) : DecidedBy ans event [h] t x :=
  ⟨[], h, [], rfl, hcand, hx, by simp [hc], by simp [hf]⟩

/-! ### The loops -/

theorem runs_ask {r : Req} {t : List Call} {res : Except Exn (Resp r)} : (ask r).Runs t res ↔ t = [⟨r, res⟩] :=
  Prog.runs_request

/-- Once a filter has answered, the loop ends without dicts, or goes on with the next filter and the dicts merged. -/
theorem evalFilters_outcome {filters : List Filter} {data extra : Data} {outcome : FilterOutcome}
    {res : Except Exn (Option Data × Data)}
    (hrun : ((if outcome.truthy then
        match outcome with
        | .dict d => evalFilters filters event data (extra.update d)
        | .plain _ => evalFilters filters event data extra
      else .ret (none, data)) : Py (Option Data × Data)).Runs t res) :
    (outcome.truthy = false ∧ t = [] ∧ res = .ok (none, data)) ∨
      (outcome.truthy = true ∧ (evalFilters filters event data (extra.update outcome.asDict)).Runs t res) := by
  by_cases htr : outcome.truthy = true
  · rw [if_pos htr] at hrun
    refine Or.inr ⟨htr, ?_⟩
    cases outcome with
    | dict d => exact hrun
    | plain b => simpa [FilterOutcome.asDict, Dict.update_empty] using hrun
  · rw [if_neg htr] at hrun
    exact Or.inl ⟨Bool.eq_false_of_not_eq_true htr, hrun⟩

/-- Evaluating a handler's filters: it returns, `data` stays, and the merged dicts come out exactly when all filters
pass. -/
theorem evalFilters_runs {filters : List Filter} {data extra : Data} {res : Except Exn (Option Data × Data)}
    (hrun : (evalFilters filters event data extra).Runs t res) (hans : FiltersAnswer ans t) :
    callbackCalls t = [] ∧ filterCalls t = asked ans event filters ∧
      res = .ok (if filters.all (passes ans event) then some (mergedDicts ans filters extra) else none, data) := by
  induction filters generalizing extra t with
  | nil =>
    obtain ⟨rfl, rfl⟩ := hrun
    exact ⟨rfl, rfl, rfl⟩
  | cons filt filters ih =>
    -- the rest of the loop, once the outcome of this filter is known
    have rest : ∀ {outcome : FilterOutcome} {t' : List Call}, FiltersAnswer ans t' →
        ((outcome.truthy = false ∧ t' = [] ∧ res = .ok (none, data)) ∨
          (outcome.truthy = true ∧ (evalFilters filters event data (extra.update outcome.asDict)).Runs t' res)) →
        callbackCalls t' = [] ∧ filterCalls t' = (if outcome.truthy then asked ans event filters else []) ∧
          res = .ok (if outcome.truthy && filters.all (passes ans event) then
            some (mergedDicts ans filters (extra.update outcome.asDict)) else none, data) := by
      intro outcome t' ht' h
      rcases h with ⟨htr, rfl, rfl⟩ | ⟨htr, h⟩
      · rw [htr]
        exact ⟨rfl, rfl, rfl⟩
      · simpa [htr] using ih h ht'
    cases filt with
    | eventType eventTypes =>
      obtain ⟨h₁, h₂, h₃⟩ := rest hans (evalFilters_outcome hrun)
      exact ⟨h₁, h₂, h₃⟩
    | custom f =>
      simp only [evalFilters, Filter.call, Prog.bind_eq, Prog.runs_bind] at hrun
      rcases hrun with ⟨⟨outcome, data'⟩, t₁, t₂, rfl, h₀, h⟩ | ⟨e, rfl, h₀⟩ <;> obtain rfl := runs_ask.1 h₀
      · have hx := hans f event data _ (List.mem_append_left _ (List.mem_singleton_self _))
        obtain ⟨rfl, rfl⟩ : outcome = ans f ∧ data' = data := by simpa using hx
        obtain ⟨h₁, h₂, h₃⟩ := rest (filtersAnswer_append.1 hans).2 (evalFilters_outcome h)
        refine ⟨by simpa [callbackCalls] using h₁, ?_, h₃⟩
        rw [filterCalls_append, h₂]; rfl
      · have hx := hans f event data _ (List.mem_singleton_self _)
        cases hx

/-- The innermost link: one invocation of the callback, whose answer is passed on. -/
theorem callCallback_runs {cb : HandlerCallback} {data : Data} {res : Except Exn (Value × Data)}
    (hrun : (callCallback cb event data).Runs t res) :
    ∃ x : Except Exn Value, t = [⟨.callback cb (bindKwargs cb event data), x⟩] ∧ res = x.map fun v => (v, data) := by
  simp only [callCallback, Prog.bind_eq, Prog.runs_bind, Prog.runs_ret] at hrun
  rcases hrun with ⟨v, t₁, t₂, rfl, h₀, rfl, rfl⟩ | ⟨e, rfl, h₀⟩ <;> obtain rfl := runs_ask.1 h₀
  · exact ⟨.ok v, rfl, rfl⟩
  · exact ⟨.error e, rfl, rfl⟩

theorem settle_runs {e : Exn} {res : Except Exn (Option DispatchResult)} (hrun : (settle event e).Runs t res) :
    t = [] ∧
      ((e = .skipHandler ∧ res = .ok none) ∨ (e ≠ .skipHandler ∧ res = (settled event (.error e)).map some)) := by
  unfold settle at hrun
  split at hrun
  · next h => exact ⟨hrun.1, Or.inl ⟨h, hrun.2⟩⟩
  · next h =>
    split at hrun
    · next hex => exact ⟨hrun.1, Or.inr ⟨h, by simp [hrun.2, settled, hex, Except.map]⟩⟩
    · next hex => exact ⟨hrun.1, Or.inr ⟨h, by simp [hrun.2, settled, hex, Except.map]⟩⟩

/-- Running a handler without inner middleware: the callback is invoked once, and its answer decides. -/
theorem runHandler_runs {dispatcher : Dispatcher} (hin : dispatcher.inner = []) {cb : HandlerCallback} {data : Data}
    {res : Except Exn (Option DispatchResult)} (hrun : (dispatcher.runHandler cb event data).Runs t res) :
    ∃ x : Except Exn Value, t = [⟨.callback cb (bindKwargs cb event data), x⟩] ∧
      ((x = .error .skipHandler ∧ res = .ok none) ∨
        (x ≠ .error .skipHandler ∧ res = (settled event x).map some)) := by
  simp only [Dispatcher.runHandler, hin, chain_nil, Prog.bind_eq, Prog.runs_tryCatch, Prog.runs_bind,
    Prog.runs_ret] at hrun
  rcases hrun with ⟨a, rfl, ⟨v, t₁, t₂, rfl, h₀, rfl, ha⟩ | ⟨e, he, -⟩⟩ | ⟨e, t₁, t₂, rfl, h₁, h₂⟩
  · cases ha
    obtain ⟨x, rfl, hx⟩ := callCallback_runs h₀
    cases x with
    | error e => cases hx
    | ok v => exact ⟨.ok v, rfl, Or.inr ⟨by simp, rfl⟩⟩
  · cases he
  · rcases h₁ with ⟨v, t₁, t₂, rfl, -, -, he⟩ | ⟨e', he', h₁⟩
    · cases he
    · cases he'
      obtain ⟨x, rfl, hx⟩ := callCallback_runs h₁
      obtain ⟨rfl, hsettle⟩ := settle_runs h₂
      cases x with
      | ok v => cases hx
      | error e' =>
        cases hx
        exact ⟨.error e, rfl, by simpa using hsettle⟩

theorem eq_ok_of_map {α β : Type} {f : α → β} {y : Except Exn α} {b : β} (h : .ok b = y.map f) :
    ∃ a, y = .ok a ∧ b = f a := by
  cases y with
  | error e => cases h
  | ok a => exact ⟨a, rfl, by cases h; rfl⟩

private theorem eq_error_of_map {α β : Type} {f : α → β} {y : Except Exn α} {e : Exn} (h : .error e = y.map f) :
    y = .error e := by
  cases y with
  | error e' => cases h; rfl
  | ok a => cases h

/-- One handler whose filters pass: it is called, and passed over or decides. -/
private theorem runHandler_candidate {dispatcher : Dispatcher} (hin : dispatcher.inner = []) {h : HandlerObject}
    {data : Data} (hcand : isCandidate ans event h = true) (hc : callbackCalls t₁ = [])
    (hf : filterCalls t₁ = asked ans event h.filters) {res : Except Exn (Option DispatchResult)}
    (hrun : (dispatcher.runHandler h.callback event data).Runs t₂ res) :
    (PassedOver ans event [h] (t₁ ++ t₂) ∧ res = .ok none) ∨
      ∃ x, DecidedBy ans event [h] (t₁ ++ t₂) x ∧ res = (settled event x).map some := by
  obtain ⟨x, rfl, hx⟩ := runHandler_runs hin hrun
  obtain ⟨hcalls, hfilters⟩ := calls_append_callback h.callback (bindKwargs h.callback event data) x hc hf
  rcases hx with ⟨rfl, hres⟩ | ⟨hskip, hres⟩
  · exact Or.inl ⟨.of_skipped hcand hcalls hfilters, hres⟩
  · exact Or.inr ⟨x, .of_called hcand hcalls hfilters hskip, hres⟩

/-- The handlers of one router: they are passed over, or one of them decides. -/
private theorem tryHandlers_runs {dispatcher : Dispatcher} (hin : dispatcher.inner = []) {data : Data}
    {res : Except Exn (Option DispatchResult × Data)} (hrun : (dispatcher.tryHandlers hs event data).Runs t res)
    (hans : FiltersAnswer ans t) :
    (PassedOver ans event hs t ∧ res = .ok (none, data)) ∨
      ∃ x, DecidedBy ans event hs t x ∧ res = (settled event x).map fun r => (some r, data) := by
  induction hs generalizing t with
  | nil =>
    obtain ⟨rfl, rfl⟩ := hrun
    exact Or.inl ⟨⟨rfl, rfl⟩, rfl⟩
  | cons h hs ih =>
    simp only [Dispatcher.tryHandlers, Prog.bind_eq, Prog.runs_bind] at hrun
    rcases hrun with ⟨⟨extra, data'⟩, t₁, t₂, rfl, hf, hrest⟩ | ⟨e, -, hf⟩
    · obtain ⟨hans₁, hans₂⟩ := filtersAnswer_append.1 hans
      obtain ⟨hc₁, hf₁, ho⟩ := evalFilters_runs hf hans₁
      obtain ⟨hextra, rfl⟩ : extra = (if isCandidate ans event h then some (mergedDicts ans h.filters ∅) else none) ∧
          data' = data := by simpa [isCandidate] using ho
      -- `h` is passed over, and the loop goes on
      have later : ∀ {t₀ t'}, PassedOver ans event [h] t₀ →
          (dispatcher.tryHandlers hs event data').Runs t' res → FiltersAnswer ans t' →
          (PassedOver ans event (h :: hs) (t₀ ++ t') ∧ res = .ok (none, data')) ∨
            ∃ x, DecidedBy ans event (h :: hs) (t₀ ++ t') x ∧
              res = (settled event x).map fun r => (some r, data') := by
        intro t₀ t' hp hrun' hans'
        rcases ih hrun' hans' with ⟨hover, hres⟩ | ⟨x, hdec, hres⟩
        · exact Or.inl ⟨hp.append hover, hres⟩
        · exact Or.inr ⟨x, hp.append_decidedBy hdec, hres⟩
      by_cases hcand : isCandidate ans event h = true
      · rw [if_pos hcand] at hextra
        subst hextra
        simp only [Prog.runs_bind] at hrest
        rcases hrest with ⟨r, t₃, t₄, rfl, hcall, hrest⟩ | ⟨e, rfl, hcall⟩
        · rcases runHandler_candidate hin hcand hc₁ hf₁ hcall with ⟨hover, hr⟩ | ⟨x, hdec, hr⟩
          · cases hr
            rw [← List.append_assoc]
            exact later hover hrest (filtersAnswer_append.1 hans₂).2
          · obtain ⟨result, hsettled, rfl⟩ := eq_ok_of_map hr
            obtain ⟨rfl, rfl⟩ := hrest
            exact Or.inr ⟨x, by simpa using hdec.append_right hs, by simp [hsettled, Except.map]⟩
        · rcases runHandler_candidate hin hcand hc₁ hf₁ hcall with ⟨-, hr⟩ | ⟨x, hdec, hr⟩
          · cases hr
          · exact Or.inr ⟨x, hdec.append_right hs, by simp [eq_error_of_map hr, Except.map]⟩
      · rw [if_neg hcand] at hextra
        subst hextra
        exact later (.of_failed (Bool.eq_false_of_not_eq_true hcand) hc₁ hf₁) hrest hans₂
    · cases (evalFilters_runs hf hans).2.2

/-- The walk over a list of routers is first match over their handlers, in order. -/
private theorem tryRouters_runs {dispatcher : Dispatcher} (hin : dispatcher.inner = []) {routers : List Router}
    {data : Data}
    {res : Except Exn (DispatchResult × Data)} (hrun : (dispatcher.tryRouters routers event data).Runs t res)
    (hans : FiltersAnswer ans t) :
    FirstMatch ans event (routers.flatMap Router.handlers) t (res.map Prod.fst) := by
  rw [Dispatcher.tryRouters_eq, Prog.runs_bind] at hrun
  rcases hrun with ⟨⟨r, data'⟩, t₁, t₂, rfl, h₁, rfl, rfl⟩ | ⟨e, rfl, h₁⟩
  · rw [List.append_nil] at hans ⊢
    rcases tryHandlers_runs hin h₁ hans with ⟨hover, hr⟩ | ⟨x, hdec, hr⟩
    · cases hr
      exact Or.inl ⟨hover, rfl⟩
    · obtain ⟨result, hsettled, heq⟩ := eq_ok_of_map hr
      cases heq
      exact Or.inr ⟨x, hdec, by simp [hsettled, Except.map]⟩
  · rcases tryHandlers_runs hin h₁ hans with ⟨-, hr⟩ | ⟨x, hdec, hr⟩
    · cases hr
    · exact Or.inr ⟨x, hdec, by simp [eq_error_of_map hr, Except.map]⟩

/-! ### The payload and the feed -/

/-- Every payload model asked answered what `validate` says. -/
def ModelsAnswer (validate : Model → EventData → Except Exn Value) (t : List Call) : Prop :=
  ∀ model data x, ((⟨.modelValidate model data, x⟩ : Call) ∈ t ∨ (⟨.construct model data, x⟩ : Call) ∈ t) →
    x = validate model data

/-- The model registered for the event type, if there is one, parses the event's data or fails to with a `TypeError`
or a `ValueError`. -/
def PayloadParses (registry : PayloadRegistry) (validate : Model → EventData → Except Exn Value)
    (event : ClientEvent) : Prop :=
  ∀ model e, registry.resolve event.eventType = some model → validate model event.data = .error e →
    PayloadRegistry.isParseFailure e = true

variable {validate : Model → EventData → Except Exn Value}

theorem payloadParses_none {registry : PayloadRegistry} (hm : registry.resolve event.eventType = none) :
    PayloadParses registry validate event := by
  intro model e h
  rw [hm] at h
  cases h

theorem payloadParses_some {registry : PayloadRegistry} {model : Model}
    (hm : registry.resolve event.eventType = some model) : PayloadParses registry validate event ↔
      ∀ e, validate model event.data = .error e → PayloadRegistry.isParseFailure e = true := by
  simp only [PayloadParses, hm, Option.some.injEq]
  exact ⟨fun h e => h model e rfl, fun h m e hm => hm ▸ h e⟩

theorem askModel_runs {model : Model} {data : EventData} {x : Except Exn Value}
    (hrun : (if model.hasModelValidate then ask (.modelValidate model data)
      else ask (.construct model data) : Py Value).Runs t x) (hval : ModelsAnswer validate t) :
    callbackCalls t = [] ∧ filterCalls t = [] ∧ x = validate model data := by
  split at hrun <;> obtain rfl := runs_ask.1 hrun
  · exact ⟨rfl, rfl, hval _ _ _ (Or.inl (List.mem_singleton_self _))⟩
  · exact ⟨rfl, rfl, hval _ _ _ (Or.inr (List.mem_singleton_self _))⟩

/-- Parsing the payload asks no filter and no callback; it returns exactly when the payload parses. -/
theorem parse_runs {registry : PayloadRegistry} {res : Except Exn Value}
    (hrun : (registry.parse event.eventType event.data).Runs t res) (hval : ModelsAnswer validate t) :
    callbackCalls t = [] ∧ filterCalls t = [] ∧ (res.isOk = true ↔ PayloadParses registry validate event) := by
  unfold PayloadRegistry.parse at hrun
  cases hm : registry.resolve event.eventType with
  | none =>
    rw [hm] at hrun
    obtain ⟨rfl, rfl⟩ := hrun
    exact ⟨rfl, rfl, iff_of_true rfl (payloadParses_none hm)⟩
  | some model =>
    simp only [hm, Prog.runs_tryCatch] at hrun
    rw [payloadParses_some hm]
    rcases hrun with ⟨v, rfl, h⟩ | ⟨e, t₁, t₂, rfl, h, hcatch⟩
    · obtain ⟨hc, hf, hv⟩ := askModel_runs h hval
      exact ⟨hc, hf, by simp [← hv, Except.isOk, Except.toBool]⟩
    · obtain ⟨hc, hf, hv⟩ := askModel_runs h fun m d x hx => hval m d x
        (hx.imp (List.mem_append_left _) (List.mem_append_left _))
      cases he : PayloadRegistry.isParseFailure e with
      | true =>
        simp only [he, ↓reduceIte, Prog.runs_ret] at hcatch
        obtain ⟨rfl, rfl⟩ := hcatch
        exact ⟨by simpa using hc, by simpa using hf, by simp [← hv, he, Except.isOk, Except.toBool]⟩
      | false =>
        simp only [he, Bool.false_eq_true, ↓reduceIte, Prog.runs_raise] at hcatch
        obtain ⟨rfl, rfl⟩ := hcatch
        exact ⟨by simpa using hc, by simpa using hf, by simp [← hv, he, Except.isOk, Except.toBool]⟩

private theorem not_firstMatch_of_error {e : Exn} (hc : callbackCalls t = []) :
    ¬ FirstMatch ans event hs t (.error e) := by
  rintro (⟨-, h⟩ | ⟨x, ⟨pre, h, post, -, -, -, hcalls, -⟩, -⟩)
  · cases h
  · simp [hc] at hcalls

private theorem FirstMatch.prepend {res : Except Exn DispatchResult} (h : FirstMatch ans event hs t₂ res)
    (hc : callbackCalls t₁ = []) (hf : filterCalls t₁ = []) : FirstMatch ans event hs (t₁ ++ t₂) res := by
  have hnil : PassedOver ans event [] t₁ := ⟨hc, hf⟩
  rcases h with ⟨hover, hres⟩ | ⟨x, hdec, hres⟩
  · exact Or.inl ⟨hnil.append hover, hres⟩
  · exact Or.inr ⟨x, hnil.append_decidedBy hdec, hres⟩

/-- Without middleware a feed is first match over the tree in pre-order if and only if the payload parses: any other
exception of the payload model leaves `feed` before a handler is looked for. -/
theorem feed_firstMatch_iff {dispatcher : Dispatcher} {ctx : AccountContext} {res : Except Exn DispatchResult}
    (hout : dispatcher.outer = []) (hin : dispatcher.inner = []) (hrun : (dispatcher.feed event ctx).Runs t res)
    (hans : FiltersAnswer ans t) (hval : ModelsAnswer validate t) :
    FirstMatch ans event dispatcher.root.handlersInOrder t res ↔
      PayloadParses dispatcher.registry validate event := by
  simp only [Dispatcher.feed, hout, chain_nil, Prog.bind_eq, Prog.runs_bind, Prog.runs_ret] at hrun
  rcases hrun with ⟨payload, t₁, t₂, rfl, hparse, hrest⟩ | ⟨e, rfl, hparse⟩
  · obtain ⟨hc, hf, hparses⟩ := parse_runs hparse fun m d x hx => hval m d x
      (hx.imp (List.mem_append_left _) (List.mem_append_left _))
    refine iff_of_true ?_ (hparses.1 rfl)
    have hwalk : FirstMatch ans event dispatcher.root.handlersInOrder t₂ res := by
      rw [← Router.flatMap_handlers_walk]
      rcases hrest with ⟨⟨result, data⟩, t₃, t₄, rfl, h, rfl, rfl⟩ | ⟨e, rfl, h⟩
      · have hans₃ := (filtersAnswer_append.1 (filtersAnswer_append.1 hans).2).1
        rw [List.append_nil]
        exact tryRouters_runs hin h hans₃
      · exact tryRouters_runs hin h (filtersAnswer_append.1 hans).2
    exact hwalk.prepend hc hf
  · obtain ⟨hc, -, hparses⟩ := parse_runs hparse hval
    exact iff_of_false (not_firstMatch_of_error hc) fun h => by cases hparses.2 h

/-! A handler whose filter fails, one that skips, and `greet` in a child router; the payload is parsed by a model. -/

/-- A model without `model_validate`, registered for `new_lot`. -/
def strictRegistry : PayloadRegistry := PayloadRegistry.empty.register "new_lot" ⟨0, false⟩

def nestedRouter : Router :=
  (((Router.mk [] []).on [.filter (.custom ⟨0⟩)] ⟨1, []⟩).on [.str "new_lot", .filter (.custom ⟨1⟩)]
    ⟨2, []⟩).includeRouter greetRouter

def nestedAnswer (f : CustomFilter) : FilterOutcome := .plain (f.id = 1)

def nestedTrace : List Call :=
  let data := Dispatcher.withPayload (Dispatcher.baseData seller) (.object 9)
  [⟨.construct ⟨0, false⟩ [], .ok (.object 9)⟩, ⟨.filter ⟨0⟩ newLot data, .ok (.plain false, data)⟩,
    ⟨.filter ⟨1⟩ newLot data, .ok (.plain true, data)⟩, ⟨.callback ⟨2, []⟩ ∅, .error .skipHandler⟩,
    ⟨.callback greet ∅, .ok .none⟩]

theorem feed_firstMatch_greet :
    FirstMatch nestedAnswer newLot nestedRouter.handlersInOrder nestedTrace (.ok ⟨.handled, newLot, none⟩) := by
  have hrun : ((Dispatcher.mk nestedRouter [] [] strictRegistry).feed newLot seller).Runs nestedTrace
      (.ok ⟨.handled, newLot, none⟩) := ⟨_, _, rfl, _, _, rfl, _, _, rfl, _, _, rfl, _, _, rfl, rfl, rfl⟩
  have hans : FiltersAnswer nestedAnswer nestedTrace := by
    intro f event data x hx
    simp only [nestedTrace, List.mem_cons, List.not_mem_nil, or_false, Sigma.mk.injEq, Req.filter.injEq, reduceCtorEq,
      false_and, false_or] at hx
    rcases hx with ⟨⟨rfl, rfl, rfl⟩, hx⟩ | ⟨⟨rfl, rfl, rfl⟩, hx⟩ <;> cases hx <;> rfl
  have hval : ModelsAnswer (fun _ _ => .ok (.object 9)) nestedTrace := by
    intro model data x hx
    simp only [nestedTrace, List.mem_cons, List.not_mem_nil, or_false, Sigma.mk.injEq, Req.construct.injEq,
      reduceCtorEq, false_and, false_or] at hx
    obtain ⟨-, hx⟩ := hx
    cases hx
    rfl
  exact (feed_firstMatch_iff rfl rfl hrun hans hval).2 fun _ _ _ h => by cases h

/-- With the model raising `KeyError` the handler is never called: `feed` raises instead. -/
theorem feed_not_firstMatch :
    ∃ t res, ((Dispatcher.mk greetRouter [] [] strictRegistry).feed newLot seller).Runs t res ∧
      FiltersAnswer (fun _ => .plain true) t ∧
      ¬ FirstMatch (fun _ => .plain true) newLot greetRouter.handlersInOrder t res := by
  refine ⟨[⟨.construct ⟨0, false⟩ [], .error .keyError⟩], .error .keyError, ?_, by simp [FiltersAnswer],
    not_firstMatch_of_error rfl⟩
  exact ⟨_, _, rfl, rfl, rfl⟩

end EventusSdk
