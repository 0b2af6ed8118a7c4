import EventusSdk.Lib.Follows
import EventusSdk.FirstMatch
import EventusSdk.Middleware

/-!
# The error boundary and routing

Two dispatchers that differ in an `ErrorBoundaryMiddleware` among the inner middleware are compared in the same
environment.  The boundary wraps what the links inside it raise into `HandlerError`.  Middleware outside it is
*oblivious* when it does not look at which exception a failure is; as long as no `SkipHandler` comes through the
boundary, such a chain does what it does without it.  A `SkipHandler` that does come through loses its meaning: the
handler counts as failed, and the handlers behind it are not tried.

Whether one comes through is asked of a *probe*, a link put in the boundary's place that reports a `SkipHandler` and
lets it pass.  Around a probe that reports nothing the run is the one without it.
-/

namespace EventusSdk

/-- A failure of a handler: an `Exception` other than `SkipHandler`. -/
def Exn.IsFailure (e : Exn) : Prop := e ≠ .skipHandler ∧ e.isException = true

/-- The second exception is the first, or has in its chain of causes one `HandlerError` more, about one of the events
and chained on a failure. -/
inductive Exn.Alike (about : Set ClientEvent) : Exn → Exn → Prop where
  | refl (e : Exn) : Alike about e e
  | wrapped {event : ClientEvent} (hevent : event ∈ about) {e : Exn} (he : e.IsFailure) :
      Alike about e (.handlerError event.eventType event.seq e)
  | chained (eventType : String) (seq : Int) {e e' : Exn} (h : Alike about e e') :
      Alike about (.handlerError eventType seq e) (.handlerError eventType seq e')

private theorem handlerError_isFailure (eventType : String) (seq : Int) (e : Exn) :
    (Exn.handlerError eventType seq e).IsFailure := ⟨by simp, rfl⟩

private theorem Exn.Alike.eq_or_failures {about : Set ClientEvent} {e e' : Exn} (h : e.Alike about e') :
    e = e' ∨ (e.IsFailure ∧ e'.IsFailure) := by
  cases h with
  | refl => exact Or.inl rfl
  | wrapped _ he => exact Or.inr ⟨he, handlerError_isFailure ..⟩
  | chained _ _ _ => exact Or.inr ⟨handlerError_isFailure .., handlerError_isFailure ..⟩

/-- The same result, up to the error of an `ERRORED` one, which may be wrapped once more. -/
def DispatchResult.Alike (about : Set ClientEvent) (r r' : DispatchResult) : Prop :=
  r.outcome = r'.outcome ∧ r.event = r'.event ∧ Option.Rel (Exn.Alike about) r.error r'.error ∧
    (r.outcome ≠ .errored → r.error = r'.error)

private theorem optionRel_refl {α : Type} {R : α → α → Prop} (h : ∀ a, R a a) (o : Option α) : Option.Rel R o o := by
  cases o with
  | none => exact .none
  | some a => exact .some (h a)

private theorem DispatchResult.Alike.refl {about : Set ClientEvent} (r : DispatchResult) : r.Alike about r :=
  ⟨rfl, rfl, optionRel_refl .refl _, fun _ => rfl⟩

/-- On the traces in `T` the two handlers do the same with each of the events, up to `Rρ` in what they return and `Re`
in what they raise. -/
def HandlerFollows {ρ : Type} (about : Set ClientEvent) (T : List Call → Prop) (Rρ : ρ → ρ → Prop)
    (Re : Exn → Exn → Prop) (h h' : Handler ρ) : Prop :=
  ∀ event ∈ about, ∀ data, Prog.Follows T (fun a a' => Rρ a.1 a'.1 ∧ a.2 = a'.2) Re (h event data) (h' event data)

/-- Around handlers that do the same up to the relations, so does the middleware. -/
def Respects {ρ : Type} (about : Set ClientEvent) (Rρ : ρ → ρ → Prop) (Re : Exn → Exn → Prop) (m : Middleware ρ) :
    Prop :=
  ∀ T, Prog.Closed T → ∀ h h', HandlerFollows about T Rρ Re h h' → HandlerFollows about T Rρ Re (m h) (m h')

/-- The middleware does not look at that in which the relations let results and exceptions differ, nor at anything of
the next link but what it does. -/
structure Oblivious {ρ : Type} (about : Set ClientEvent) (Rρ : ρ → ρ → Prop) (Re : Exn → Exn → Prop)
    (m : Middleware ρ) : Prop where
  alike : Respects about Rρ Re m
  same : Respects about Eq Eq m

section
variable {ρ : Type} {about : Set ClientEvent} {Rρ : ρ → ρ → Prop} {Re : Exn → Exn → Prop} {T : List Call → Prop}

private theorem oblivious_logging : Oblivious about Rρ Re logging := ⟨fun _ _ _ _ h => h, fun _ _ _ _ h => h⟩

/-- The boundary takes exceptions that are alike to exceptions that are alike. -/
private theorem respects_errorBoundary
    (hexc : ∀ e e', Re e e' → e.isException = e'.isException ∧ ∀ event : ClientEvent,
      Re (.handlerError event.eventType event.seq e) (.handlerError event.eventType event.seq e')) :
    Respects about Rρ Re errorBoundary := by
  intro T hT h h' hh event hevent data
  refine .tryCatch hT (hh event hevent data) fun e e' he => ?_
  obtain ⟨hsame, hwrapped⟩ := hexc e e' he
  rw [hsame]
  split
  · exact .raise (hwrapped event)
  · exact .raise he

theorem oblivious_errorBoundary : Oblivious about Rρ (Exn.Alike about) errorBoundary := by
  refine ⟨respects_errorBoundary fun e e' h => ⟨?_, fun event => .chained _ _ h⟩, respects_errorBoundary ?_⟩
  · rcases h.eq_or_failures with rfl | ⟨⟨-, he⟩, -, he'⟩
    · rfl
    · rw [he, he']
  · rintro e _ rfl
    exact ⟨rfl, fun _ => rfl⟩

private theorem respects_idempotency (m : IdempotencyMiddleware) {Rr : DispatchResult → DispatchResult → Prop}
    (hRr : ∀ r, Rr r r) : Respects about Rr Eq m.call := by
  intro T hT h h' hh event hevent data
  refine .bind hT .self ?_
  rintro new _ rfl
  cases new with
  | true => exact hh event hevent data
  | false => exact .ret ⟨hRr _, rfl⟩

theorem oblivious_idempotency (m : IdempotencyMiddleware) :
    Oblivious about (DispatchResult.Alike about) Eq m.call :=
  ⟨respects_idempotency m .refl, respects_idempotency m fun _ => rfl⟩

private theorem respects_chain {ms : List (Middleware ρ)} (hms : ∀ m ∈ ms, Respects about Rρ Re m)
    (hT : Prog.Closed T) {h h' : Handler ρ} (hh : HandlerFollows about T Rρ Re h h') :
    HandlerFollows about T Rρ Re (chain ms h) (chain ms h') := by
  induction ms with
  | nil => exact hh
  | cons m ms ih =>
    exact hms m (List.mem_cons_self ..) T hT _ _ (ih fun m' h => hms m' (List.mem_cons_of_mem _ h))

end

/-! ### What comes through the boundary -/

/-- A link that reports under its name every `SkipHandler` that comes to it, and lets it through. -/
def probe (name : String) : Middleware Value := fun handler event data =>
  (handler event data).tryCatch fun e =>
    if e = .skipHandler then (ask (.external name .none)).bind fun _ => .raise e else .raise e

/-- Nothing was reported under the name. -/
def Unreported (name : String) (t : List Call) : Prop := ∀ ev ∈ t, ev.1 ≠ .external name .none

/-- In the feed a `SkipHandler` comes out of the links behind `pre`: a probe put there reports, whatever its name. -/
def EnclosedSkips {σ : Type} (dispatcher : Dispatcher) (pre post : List (Middleware Value)) (event : ClientEvent)
    (ctx : AccountContext) (env : Prog.Env Req Resp Exn σ) (s : σ) : Prop :=
  ∀ name, ¬ Unreported name (({ dispatcher with inner := pre ++ probe name :: post }.feed event ctx).run env s).trace

private theorem closed_unreported (name : String) : Prog.Closed (Unreported name) :=
  fun _ _ h => List.forall_mem_append.1 h

section
variable {about : Set ClientEvent} {name : String} {handler : Handler Value} {event : ClientEvent} {data : Data}
  {t : List Call} {res : Except Exn (Value × Data)}

/-- A probe that reports nothing only hands on what the next link does, and that is no `SkipHandler`. -/
private theorem probe_runs (hrun : (probe name handler event data).Runs t res) (ht : Unreported name t) :
    (handler event data).Runs t res ∧ res ≠ .error .skipHandler := by
  rcases Prog.runs_tryCatch.1 hrun with ⟨a, rfl, h⟩ | ⟨e, t₁, t₂, rfl, h, hcatch⟩
  · exact ⟨h, by simp⟩
  · split at hcatch
    · next hskip =>
      have hreport : ∃ x t', t₂ = (⟨.external name .none, x⟩ : Call) :: t' := by
        obtain ⟨x, t', rfl, -⟩ := hcatch
        exact ⟨x, t', rfl⟩
      obtain ⟨x, t', rfl⟩ := hreport
      exact absurd rfl (ht _ (List.mem_append_right _ (List.mem_cons_self ..)))
    · next hskip =>
      obtain ⟨rfl, rfl⟩ := hcatch
      rw [List.append_nil]
      exact ⟨h, by simpa using hskip⟩

private theorem probe_follows : HandlerFollows about (Unreported name) Eq Eq (probe name handler) handler := by
  intro event _ data t res ht hrun
  obtain ⟨h, -⟩ := probe_runs hrun ht
  refine ⟨res, h, ?_⟩
  cases res with
  | ok a => exact .ok ⟨rfl, rfl⟩
  | error e => exact .error rfl

/-- Where a probe reports nothing, the boundary in its place only wraps failures. -/
private theorem boundary_follows :
    HandlerFollows about (Unreported name) Eq (Exn.Alike about) (probe name handler) (errorBoundary handler) := by
  intro event hevent data t res ht hrun
  obtain ⟨h, hskip⟩ := probe_runs hrun ht
  cases res with
  | ok a => exact ⟨.ok a, Prog.runs_tryCatch.2 (Or.inl ⟨a, rfl, h⟩), .ok ⟨rfl, rfl⟩⟩
  | error e =>
    cases hex : e.isException with
    | true =>
      refine ⟨.error (.handlerError event.eventType event.seq e), Prog.runs_tryCatch.2 (Or.inr
        ⟨e, t, [], by simp, h, by simp [hex]⟩), .error (.wrapped hevent ⟨?_, hex⟩)⟩
      rintro rfl
      exact hskip rfl
    | false => exact ⟨.error e, Prog.runs_tryCatch.2 (Or.inr ⟨e, t, [], by simp, h, by simp [hex]⟩), .error (.refl e)⟩

end

/-! ### Dispatchers whose inner chains follow each other -/

/-- `settle` tells `SkipHandler` from failures, and failures from what is no `Exception`; nothing else. -/
private theorem settle_follows {about : Set ClientEvent} {T : List Call → Prop} (event : ClientEvent) {e e' : Exn}
    (h : e.Alike about e') :
    Prog.Follows T (Option.Rel (DispatchResult.Alike about)) Eq (settle event e) (settle event e') := by
  rcases h.eq_or_failures with rfl | ⟨⟨hs, he⟩, hs', he'⟩
  · exact .refl (optionRel_refl .refl) (fun _ => rfl) _
  · simp only [settle, hs, hs', he, he', ↓reduceIte]
    exact .ret (.some ⟨rfl, rfl, .some h, fun h => absurd rfl h⟩)

private theorem settle_self {T : List Call → Prop} (event : ClientEvent) (e e' : Exn) (h : e = e') :
    Prog.Follows T (Option.Rel Eq) Eq (settle event e) (settle event e') :=
  h ▸ .refl (optionRel_refl fun _ => rfl) (fun _ => rfl) _

section
variable {inner inner' : List (Middleware Value)} {about : Set ClientEvent} {T : List Call → Prop}
  {Re : Exn → Exn → Prop} {Rr : DispatchResult → DispatchResult → Prop}

variable (dispatcher : Dispatcher) (hT : Prog.Closed T) (hRr : ∀ r, Rr r r)
  (hsettle : ∀ event e e', Re e e' → Prog.Follows T (Option.Rel Rr) Eq (settle event e) (settle event e'))
  (hinner : ∀ callback, HandlerFollows about T Eq Re (chain inner (callCallback callback))
    (chain inner' (callCallback callback)))
include hT hRr hsettle hinner

private theorem runHandler_follows (callback : HandlerCallback) {event : ClientEvent} (hevent : event ∈ about)
    (data : Data) :
    Prog.Follows T (Option.Rel Rr) Eq ({ dispatcher with inner := inner }.runHandler callback event data)
      ({ dispatcher with inner := inner' }.runHandler callback event data) := by
  refine .tryCatch hT (.bind hT (hinner callback event hevent data) fun _ _ _ => ?_) (hsettle event)
  exact .ret (.some (hRr _))

private theorem tryHandlers_follows (hs : List HandlerObject) {event : ClientEvent} (hevent : event ∈ about)
    (data : Data) :
    Prog.Follows T (fun a a' => Option.Rel Rr a.1 a'.1 ∧ a.2 = a'.2) Eq
      ({ dispatcher with inner := inner }.tryHandlers hs event data)
      ({ dispatcher with inner := inner' }.tryHandlers hs event data) := by
  induction hs generalizing data with
  | nil => exact .ret ⟨.none, rfl⟩
  | cons h hs ih =>
    refine .bind hT .self ?_
    rintro ⟨extra, data⟩ _ rfl
    cases extra with
    | none => exact ih data
    | some extra =>
      refine .bind hT (runHandler_follows dispatcher hT hRr hsettle hinner h.callback hevent (data.update extra)) ?_
      intro r r' hr
      cases hr with
      | none => exact ih data
      | some hr => exact .ret ⟨.some hr, rfl⟩

private theorem tryRouters_follows (routers : List Router) {event : ClientEvent} (hevent : event ∈ about)
    (data : Data) :
    Prog.Follows T (fun a a' => Rr a.1 a'.1 ∧ a.2 = a'.2) Eq
      ({ dispatcher with inner := inner }.tryRouters routers event data)
      ({ dispatcher with inner := inner' }.tryRouters routers event data) := by
  rw [Dispatcher.tryRouters_eq, Dispatcher.tryRouters_eq]
  refine .bind hT (tryHandlers_follows dispatcher hT hRr hsettle hinner (routers.flatMap Router.handlers) hevent
    data) ?_
  rintro ⟨r, data⟩ ⟨r', _⟩ ⟨hr, rfl⟩
  cases hr with
  | none => exact .ret ⟨hRr _, rfl⟩
  | some hr => exact .ret ⟨hr, rfl⟩

private theorem feed_follows (houter : ∀ m ∈ dispatcher.outer, Respects about Rr Eq m) {event : ClientEvent}
    (hevent : event ∈ about) (ctx : AccountContext) :
    Prog.Follows T Rr Eq ({ dispatcher with inner := inner }.feed event ctx)
      ({ dispatcher with inner := inner' }.feed event ctx) := by
  refine .bind hT .self ?_
  rintro payload _ rfl
  refine .bind hT (respects_chain houter hT (fun event hevent data => ?_) event hevent _) fun a a' h => .ret h.1
  exact tryRouters_follows dispatcher hT hRr hsettle hinner dispatcher.root.walk hevent data

end

/-! ### Without other middleware -/

/-- Some handler called in the trace raised `SkipHandler`. -/
def Skips (t : List Call) : Prop := ∃ callback, (callback, .error .skipHandler) ∈ callbackCalls t

/-- Requests other than calls of a callback. -/
def NoCallback (r : Req) : Prop := ∀ callback kwargs, r ≠ .callback callback kwargs

private theorem callbackCalls_eq_nil {t : List Call} (h : ∀ ev ∈ t, NoCallback ev.1) : callbackCalls t = [] := by
  rw [callbackCalls, List.filterMap_eq_nil_iff]
  intro ev hev
  have := h ev hev
  split
  · next cb kwargs x => exact absurd rfl (this cb kwargs)
  · rfl

private theorem evalFilters_callbackCalls {filters : List Filter} {event : ClientEvent} {data extra : Data}
    {t : List Call} {res : Except Exn (Option Data × Data)} (hrun : (evalFilters filters event data extra).Runs t res) :
    callbackCalls t = [] :=
  callbackCalls_eq_nil ((Dispatcher.evalFilters_safe (A := NoCallback) (X := fun _ => True) (by simp [NoCallback])
    ..).runs hrun fun _ _ _ _ => trivial).1

private theorem parse_callbackCalls {registry : PayloadRegistry} {eventType : String} {data : EventData} {t : List Call}
    {res : Except Exn Value} (hrun : (registry.parse eventType data).Runs t res) : callbackCalls t = [] :=
  callbackCalls_eq_nil ((Dispatcher.parse_safe (A := NoCallback) (X := fun _ => True) (by simp [NoCallback])
    ..).runs hrun fun _ _ _ _ => trivial).1

/-! A plain dispatcher and the one with the boundary, where a handler raises `SkipHandler`: the second stops at the
first such handler with an `ERRORED` result.  The first goes on, and calls a further callback or does not end in an
`ERRORED` result. -/

section
variable {root : Router} {registry : PayloadRegistry} {hs : List HandlerObject} {routers : List Router}
  {event : ClientEvent} {data data' : Data} {t : List Call}

/-- Without inner middleware only a called handler makes a router settle an event. -/
private theorem tryHandlers_called {a : Option DispatchResult × Data} (ha : a.1 ≠ none)
    (hrun : ((Dispatcher.mk root [] [] registry).tryHandlers hs event data).Runs t (.ok a)) :
    callbackCalls t ≠ [] := by
  induction hs generalizing data t with
  | nil => obtain ⟨-, h⟩ := hrun; cases h; exact absurd rfl ha
  | cons h hs ih =>
    simp only [Dispatcher.tryHandlers, Prog.bind_eq, Prog.runs_bind] at hrun
    rcases hrun with ⟨⟨extra, data'⟩, t₁, t₂, rfl, -, hrest⟩ | ⟨e, he, -⟩
    · rw [callbackCalls_append]
      cases extra with
      | none => exact fun h => ih hrest (List.append_eq_nil_iff.1 h).2
      | some extra =>
        simp only [Prog.runs_bind] at hrest
        rcases hrest with ⟨r, t₃, t₄, rfl, hcall, -⟩ | ⟨e, he, -⟩
        · obtain ⟨x, rfl, -⟩ := runHandler_runs rfl hcall
          simp [callbackCalls]
        · cases he
    · cases he

/-- With the boundary, a handler that raises `SkipHandler` counts as failed. -/
private theorem boundary_runHandler_skip {callback : HandlerCallback} {res : Except Exn (Option DispatchResult)}
    (hrun : ((Dispatcher.mk root [] [] registry).runHandler callback event data).Runs t res) (hskip : Skips t) :
    res = .ok none ∧ ∃ r : DispatchResult, r.outcome = .errored ∧
      ((Dispatcher.mk root [] [errorBoundary] registry).runHandler callback event data).Runs t (.ok (some r)) := by
  obtain ⟨x, rfl, hx⟩ := runHandler_runs rfl hrun
  obtain ⟨cb, hcb⟩ := hskip
  obtain ⟨-, rfl⟩ : callback = cb ∧ x = .error .skipHandler := by
    simpa [eq_comm] using List.mem_singleton.1 hcb
  have hres : res = .ok none := by simpa using hx
  exact ⟨hres, ⟨.errored, event, some (.handlerError event.eventType event.seq .skipHandler)⟩, rfl, _, _, rfl, rfl, rfl⟩

/-- The loop goes on after a handler only if that one raised `SkipHandler`. -/
private theorem runHandler_none {callback : HandlerCallback}
    (hrun : ((Dispatcher.mk root [] [] registry).runHandler callback event data).Runs t (.ok none)) : Skips t := by
  obtain ⟨x, rfl, ⟨rfl, -⟩ | ⟨-, hres⟩⟩ := runHandler_runs rfl hrun
  · exact ⟨callback, List.mem_singleton_self _⟩
  · obtain ⟨result, -, h⟩ := eq_ok_of_map hres
    cases h

private theorem skips_append {t₁ t₂ : List Call} : Skips (t₁ ++ t₂) ↔ Skips t₁ ∨ Skips t₂ := by
  simp only [Skips, callbackCalls_append, List.mem_append, exists_or]

private theorem not_skips_of_callbackCalls {t : List Call} (h : callbackCalls t = []) : ¬ Skips t := by
  simp [Skips, h]

private theorem boundary_tryHandlers_skip {res : Except Exn (Option DispatchResult × Data)}
    (hrun : ((Dispatcher.mk root [] [] registry).tryHandlers hs event data).Runs t res) (hskip : Skips t) :
    ∃ t₁ t₂ r data', t = t₁ ++ t₂ ∧ r.outcome = .errored ∧
      ((Dispatcher.mk root [] [errorBoundary] registry).tryHandlers hs event data).Runs t₁ (.ok (some r, data')) ∧
      ∀ a, res = .ok a → a.1 ≠ none → callbackCalls t₂ ≠ [] := by
  induction hs generalizing data t with
  | nil => obtain ⟨rfl, -⟩ := hrun; exact absurd hskip (not_skips_of_callbackCalls rfl)
  | cons h hs ih =>
    simp only [Dispatcher.tryHandlers, Prog.bind_eq, Prog.runs_bind] at hrun
    rcases hrun with ⟨⟨extra, data'⟩, t₁, t₂, rfl, hf, hrest⟩ | ⟨e, -, hf⟩
    · have hskip₂ := (skips_append.1 hskip).resolve_left
        (not_skips_of_callbackCalls (evalFilters_callbackCalls hf))
      -- the dispatcher with the boundary makes the same calls for the filters, and goes on as it does after them
      cases extra with
      | none =>
        obtain ⟨t₃, t₄, r, d, rfl, hr, hrun', hcalled⟩ := ih hrest hskip₂
        exact ⟨t₁ ++ t₃, t₄, r, d, by simp, hr, Prog.runs_bind.2 (Or.inl ⟨_, _, _, rfl, hf, hrun'⟩), hcalled⟩
      | some extra =>
        simp only [Prog.runs_bind] at hrest
        rcases hrest with ⟨r, t₃, t₄, rfl, hcall, hrest⟩ | ⟨e, rfl, hcall⟩
        · by_cases hskip₃ : Skips t₃
          · obtain ⟨hr, r', hr', hcall'⟩ := boundary_runHandler_skip hcall hskip₃
            cases hr
            refine ⟨t₁ ++ t₃, t₄, r', data', by simp, hr', ?_, ?_⟩
            · refine Prog.runs_bind.2 (Or.inl ⟨_, _, _, rfl, hf, ?_⟩)
              exact Prog.runs_bind.2 (Or.inl ⟨_, t₃, [], by simp, hcall', rfl, rfl⟩)
            · rintro a rfl ha
              exact tryHandlers_called ha hrest
          · have hskip₄ := (skips_append.1 hskip₂).resolve_left hskip₃
            cases r with
            | none => exact absurd (runHandler_none hcall) hskip₃
            | some r =>
              obtain ⟨rfl, -⟩ := hrest
              exact absurd hskip₄ (not_skips_of_callbackCalls rfl)
        · obtain ⟨hr, -⟩ := boundary_runHandler_skip hcall hskip₂
          cases hr
    · exact absurd hskip (not_skips_of_callbackCalls (evalFilters_callbackCalls hf))

private theorem boundary_tryRouters_skip {res : Except Exn (DispatchResult × Data)}
    (hrun : ((Dispatcher.mk root [] [] registry).tryRouters routers event data).Runs t res) (hskip : Skips t) :
    ∃ t₁ t₂ r data', t = t₁ ++ t₂ ∧ r.outcome = .errored ∧
      ((Dispatcher.mk root [] [errorBoundary] registry).tryRouters routers event data).Runs t₁ (.ok (r, data')) ∧
      ∀ a, res = .ok a → a.1.outcome = .errored → callbackCalls t₂ ≠ [] := by
  rw [Dispatcher.tryRouters_eq, Prog.runs_bind] at hrun
  rw [Dispatcher.tryRouters_eq]
  rcases hrun with ⟨⟨r, data'⟩, t₁, t₂, rfl, h₁, rfl, rfl⟩ | ⟨e, rfl, h₁⟩
  · rw [List.append_nil] at hskip ⊢
    obtain ⟨t₃, t₄, r', d, rfl, hr', hrun', hcalled⟩ := boundary_tryHandlers_skip h₁ hskip
    refine ⟨t₃, t₄, r', d, rfl, hr', Prog.runs_bind.2 (Or.inl ⟨_, t₃, [], by simp, hrun', rfl, rfl⟩), ?_⟩
    rintro a ha herr
    cases ha
    refine hcalled _ rfl ?_
    rintro rfl
    cases herr
  · obtain ⟨t₁, t₂, r, d, rfl, hr, hrun', -⟩ := boundary_tryHandlers_skip h₁ hskip
    refine ⟨t₁, t₂, r, d, rfl, hr, ?_, fun a ha => by cases ha⟩
    exact Prog.runs_bind.2 (Or.inl ⟨_, t₁, [], by simp, hrun', rfl, rfl⟩)

private theorem boundary_feed_skip {ctx : AccountContext} {res : Except Exn DispatchResult}
    (hrun : ((Dispatcher.mk root [] [] registry).feed event ctx).Runs t res) (hskip : Skips t) :
    ∃ t₁ t₂ r, t = t₁ ++ t₂ ∧ r.outcome = .errored ∧
      ((Dispatcher.mk root [] [errorBoundary] registry).feed event ctx).Runs t₁ (.ok r) ∧
      ∀ a, res = .ok a → a.outcome = .errored → callbackCalls t₂ ≠ [] := by
  simp only [Dispatcher.feed, chain_nil, Prog.bind_eq, Prog.runs_bind] at hrun
  rcases hrun with ⟨payload, t₁, t₂, rfl, hparse, hrest⟩ | ⟨e, -, hparse⟩
  · have hskip₂ := (skips_append.1 hskip).resolve_left (not_skips_of_callbackCalls (parse_callbackCalls hparse))
    have after : ∀ {t₃ r d}, ((Dispatcher.mk root [] [errorBoundary] registry).walkAndHandle event
        (Dispatcher.withPayload (Dispatcher.baseData ctx) payload)).Runs t₃ (.ok (r, d)) →
        ((Dispatcher.mk root [] [errorBoundary] registry).feed event ctx).Runs (t₁ ++ t₃) (.ok r) := by
      intro t₃ r d h
      exact Prog.runs_bind.2 (Or.inl ⟨_, t₁, t₃, rfl, hparse,
        Prog.runs_bind.2 (Or.inl ⟨_, t₃, [], by simp, h, rfl, rfl⟩)⟩)
    rcases hrest with ⟨⟨r, d⟩, t₃, t₄, rfl, hwalk, rfl, rfl⟩ | ⟨e, rfl, hwalk⟩
    · rw [List.append_nil] at hskip₂
      obtain ⟨t₅, t₆, r', d', rfl, hr', hrun', hcalled⟩ := boundary_tryRouters_skip hwalk hskip₂
      refine ⟨t₁ ++ t₅, t₆, r', by simp, hr', after hrun', ?_⟩
      rintro a ha herr
      cases ha
      exact hcalled _ rfl herr
    · obtain ⟨t₅, t₆, r', d', rfl, hr', hrun', -⟩ := boundary_tryRouters_skip hwalk hskip₂
      exact ⟨t₁ ++ t₅, t₆, r', by simp, hr', after hrun', fun a ha => by cases ha⟩
  · exact absurd hskip (not_skips_of_callbackCalls (parse_callbackCalls hparse))

end

/-! ### Transparency -/

/-- Of two feeds: the same handlers run, and the results are the same up to an error of an `ERRORED` one, which may be
wrapped once more in the second. -/
def Transparent {σ : Type} (about : Set ClientEvent) (a b : Prog.Outcome Req Resp Exn σ DispatchResult) : Prop :=
  (callbackCalls b.trace).map Prod.fst = (callbackCalls a.trace).map Prod.fst ∧
    Prog.Lift (DispatchResult.Alike about) Eq a.result b.result

section
variable {σ : Type} {about : Set ClientEvent} {event : ClientEvent} {ctx : AccountContext}
  {env : Prog.Env Req Resp Exn σ} {s : σ}

private theorem transparent_of_not_enclosedSkips {dispatcher : Dispatcher} {pre post : List (Middleware Value)}
    (hevent : event ∈ about) (houter : ∀ m ∈ dispatcher.outer, Oblivious about (DispatchResult.Alike about) Eq m)
    (hpre : ∀ m ∈ pre, Oblivious about Eq (Exn.Alike about) m)
    (hskip : ¬ EnclosedSkips dispatcher pre post event ctx env s) :
    Transparent about (({ dispatcher with inner := pre ++ post }.feed event ctx).run env s)
      (({ dispatcher with inner := pre ++ errorBoundary :: post }.feed event ctx).run env s) := by
  obtain ⟨name, hname⟩ := not_forall_not.1 hskip
  have hT := closed_unreported name
  -- the dispatcher with the silent probe is compared with the one without it, and with the one with the boundary
  have hwithout : Prog.Follows (Unreported name) Eq Eq
      ({ dispatcher with inner := pre ++ probe name :: post }.feed event ctx)
      ({ dispatcher with inner := pre ++ post }.feed event ctx) := by
    refine feed_follows dispatcher hT (fun _ => rfl) settle_self (fun callback => ?_)
      (fun m hm => (houter m hm).same) hevent ctx
    rw [chain_append, chain_append]
    exact respects_chain (fun m hm => (hpre m hm).same) hT probe_follows
  have hwithin : Prog.Follows (Unreported name) (DispatchResult.Alike about) Eq
      ({ dispatcher with inner := pre ++ probe name :: post }.feed event ctx)
      ({ dispatcher with inner := pre ++ errorBoundary :: post }.feed event ctx) := by
    refine feed_follows dispatcher hT .refl (fun event e e' => settle_follows event) (fun callback => ?_)
      (fun m hm => (houter m hm).alike) hevent ctx
    rw [chain_append, chain_append]
    exact respects_chain (fun m hm => (hpre m hm).alike) hT boundary_follows
  obtain ⟨htrace, -, hres⟩ := hwithout.run env s hname
  obtain ⟨htrace', -, hres'⟩ := hwithin.run env s hname
  rw [hres.eq] at hres'
  exact ⟨by rw [htrace, htrace'], hres'⟩

variable {root : Router} {registry : PayloadRegistry}

/-- Around a callback that does not raise `SkipHandler` a probe reports nothing. -/
private theorem callCallback_probe {name : String} {callback : HandlerCallback} :
    HandlerFollows Set.univ (fun t => ¬ Skips t) Eq Eq (callCallback callback)
      (probe name (callCallback callback)) := by
  intro event _ data t res ht hrun
  obtain ⟨x, rfl, hx⟩ := callCallback_runs hrun
  cases res with
  | ok a => exact ⟨.ok a, Prog.runs_tryCatch.2 (Or.inl ⟨a, rfl, hrun⟩), .ok ⟨rfl, rfl⟩⟩
  | error e =>
    have hskip : e ≠ .skipHandler := by
      rintro rfl
      cases x with
      | ok v => cases hx
      | error e => cases hx; exact ht ⟨callback, List.mem_singleton_self _⟩
    exact ⟨.error e, Prog.runs_tryCatch.2 (Or.inr ⟨e, _, [], by simp, hrun, by simp [hskip]⟩), .error rfl⟩

private theorem plain_feed_unreported {t : List Call} {res : Except Exn DispatchResult}
    (hrun : ((Dispatcher.mk root [] [] registry).feed event ctx).Runs t res) :
    ∀ ev ∈ t, ∀ name, ev.1 ≠ .external name .none := by
  have hsafe : ((Dispatcher.mk root [] [] registry).feed event ctx).Safe (fun r => ∀ name, r ≠ .external name .none)
      (fun _ => True) fun _ => True :=
    Dispatcher.feed_safe (by simp) (fun callback => Dispatcher.callCallback_safe (by simp) callback) (by simp)
      (by simp) event ctx
  exact (hsafe.runs hrun fun _ _ _ _ => trivial).1

/-- Around callbacks alone a probe reports only where one of them raises `SkipHandler`. -/
private theorem EnclosedSkips.skips (h : EnclosedSkips (Dispatcher.mk root [] [] registry) [] [] event ctx env s) :
    Skips (((Dispatcher.mk root [] [] registry).feed event ctx).run env s).trace := by
  by_contra hskip
  have hT : Prog.Closed fun t => ¬ Skips t := fun _ _ h => not_or.1 (mt skips_append.2 h)
  have hprobe : ∀ callback, HandlerFollows Set.univ (fun t => ¬ Skips t) Eq Eq (callCallback callback)
      (probe "probe" (callCallback callback)) := fun _ => callCallback_probe
  have hfollows : Prog.Follows (fun t => ¬ Skips t) Eq Eq ((Dispatcher.mk root [] [] registry).feed event ctx)
      ((Dispatcher.mk root [] [probe "probe"] registry).feed event ctx) :=
    feed_follows (Dispatcher.mk root [] [] registry) hT (fun _ => rfl) settle_self hprobe (by simp)
      (Set.mem_univ event) ctx
  obtain ⟨htrace, -, -⟩ := hfollows.run env s hskip
  refine h "probe" ?_
  rw [List.nil_append, htrace]
  exact fun ev hev => plain_feed_unreported (Prog.runs_run env _ s) ev hev "probe"

private theorem not_transparent_of_skips
    (hskip : Skips (((Dispatcher.mk root [] [] registry).feed event ctx).run env s).trace) :
    ¬ Transparent about (((Dispatcher.mk root [] [] registry).feed event ctx).run env s)
      (((Dispatcher.mk root [] [errorBoundary] registry).feed event ctx).run env s) := by
  obtain ⟨t₁, t₂, r, ht, hr, hrun, hcalled⟩ := boundary_feed_skip (Prog.runs_run env _ s) hskip
  have hans := Prog.answers_run env ((Dispatcher.mk root [] [] registry).feed event ctx) s
  rw [ht] at hans
  obtain ⟨s', hans₁, -⟩ := Prog.answers_append.1 hans
  rintro ⟨hcalls, hres⟩
  rw [hrun.run_eq hans₁] at hcalls hres
  rw [ht, callbackCalls_append, List.map_append, List.self_eq_append_right, List.map_eq_nil_iff] at hcalls
  generalize (((Dispatcher.mk root [] [] registry).feed event ctx).run env s).result = res at hres hcalled
  cases hres with
  | ok h => exact hcalled _ rfl (h.1.trans hr) hcalls

end

/-- An application in which the callback of `greet` returns and every other one raises `SkipHandler`. -/
def greetOnly : Prog.Env Req Resp Exn Unit
  | .callback cb _, s => (if cb = greet then .ok .none else .error .skipHandler, s)
  | _, s => (.error (.other "RuntimeError"), s)

/-- A link that declines auctions. -/
def noAuctions : Middleware Value := fun handler event data =>
  if event.eventType = "auction" then .raise .skipHandler else handler event data

/-- A handler that skips, and `greet` behind it. -/
def skippingRouter : Router := ((Router.mk [] []).on [] ⟨1, []⟩).on [.str "new_lot"] greet

end EventusSdk
