import EventusSdk.Lib.Surfacing
import EventusSdk.Middleware

/-!
# Which failures a feed lets out

A source does not catch what `Dispatcher.feed` raises: its `run` ends, and the event is left for a restart.  What a feed
raises is the failure of the framework and not of a handler, as the safety net of `_run_handler` promises: a filter, the
dedup store, a payload model that raises neither `TypeError` nor `ValueError`.  Of what a handler raises it lets out
only what is no `Exception`, such as `CancelledError`.
-/

namespace EventusSdk

/-- The exception is not caught, if the request is answered with it. -/
def Req.Escapes (e : Exn) : Req → Prop
  | .modelValidate .. | .construct .. => PayloadRegistry.isParseFailure e = false
  | .filter .. | .markIfNew .. | .external .. => True
  | .callback .. => e.isException = false

/-- The feed raises what escapes as it is. -/
def Escaped (r : Req) (e e' : Exn) : Prop := e' = e ∧ r.Escapes e

/-- What comes out of the inner chain is an `Exception` if what its handler has raised is one, and else the same. -/
def Contained (_ : Req) (e e' : Exn) : Prop := e'.isException = e.isException ∧ (e.isException = false → e' = e)

def Req.IsCallback : Req → Prop
  | .callback .. => True
  | _ => False

def Req.IsModel : Req → Prop
  | .modelValidate .. | .construct .. => True
  | _ => False

/-- The middleware of the library for handlers. -/
def LibraryInner (m : Middleware Value) : Prop := m = logging ∨ m = errorBoundary

/-- The middleware of the library for events. -/
def LibraryOuter (m : Middleware DispatchResult) : Prop :=
  m = logging ∨ ∃ idempotency : IdempotencyMiddleware, m = idempotency.call

/-! ### The inner chain -/

section
variable {event : ClientEvent} {data : Data} {callback : HandlerCallback}

private theorem contained_refl (r : Req) (e : Exn) : Contained r e e := ⟨rfl, fun _ => rfl⟩

private theorem errorBoundary_contained {handler : Handler Value}
    (h : ∀ event data, (handler event data).Surfaces Contained)
    (event : ClientEvent) (data : Data) : (errorBoundary handler event data).Surfaces Contained := by
  refine Prog.surfaces_tryCatch (Prog.safe_true _) (h event data) (fun r e e' _ hR => Or.inl ?_)
    fun r e _ hR => absurd (contained_refl r e) (hR e)
  cases he : e'.isException with
  | true => exact ⟨_, ⟨hR.1 ▸ he.symm, fun hf => by rw [← hR.1, he] at hf; cases hf⟩, if_pos rfl⟩
  | false => exact ⟨_, hR, if_neg (by simp)⟩

private theorem inner_contained {inner : List (Middleware Value)} (hinner : ∀ m ∈ inner, LibraryInner m)
    (event : ClientEvent) (data : Data) : (chain inner (callCallback callback) event data).Surfaces Contained := by
  induction inner generalizing event data with
  | nil => exact Prog.surfaces_bind (Prog.surfaces_request (contained_refl _)) fun _ => trivial
  | cons m inner ih =>
    have ih := ih fun m' h => hinner m' (List.mem_cons_of_mem _ h)
    rcases hinner m (List.mem_cons_self ..) with rfl | rfl
    · exact ih event data
    · exact errorBoundary_contained ih event data

private theorem inner_callback {inner : List (Middleware Value)} (hinner : ∀ m ∈ inner, LibraryInner m)
    (event : ClientEvent) (data : Data) :
    (chain inner (callCallback callback) event data).Safe Req.IsCallback (fun _ => True) fun _ => True := by
  refine chain_safe (fun m hm handler h event data => ?_) (fun event data => ?_) event data
  · rcases hinner m hm with rfl | rfl
    · exact h event data
    · refine Prog.safe_tryCatch (h event data) fun e _ => ?_
      split <;> trivial
  · exact Prog.safe_bind (Prog.safe_request trivial) fun _ _ => trivial

end

/-! ### The walk -/

namespace Dispatcher

variable {dispatcher : Dispatcher} (hinner : ∀ m ∈ dispatcher.inner, LibraryInner m)

/-- The `except` clauses keep every `Exception`. -/
private theorem settle_escaped {r : Req} {e e' : Exn} {event : ClientEvent} (hr : r.IsCallback)
    (hR : Contained r e e') : (∃ e'', Escaped r e e'' ∧ settle event e' = .raise e'') ∨
      ((∀ e'', ¬ Escaped r e e'') ∧ (settle event e').Surfaces Escaped) := by
  obtain ⟨callback, kwargs, rfl⟩ : ∃ callback kwargs, r = .callback callback kwargs := by
    cases r with
    | callback callback kwargs => exact ⟨callback, kwargs, rfl⟩
    | _ => exact hr.elim
  unfold settle
  cases he : e.isException with
  | true =>
    have hkept : ∀ e'', ¬ Escaped (.callback callback kwargs) e e'' := fun e'' h => by
      rw [show e.isException = false from h.2] at he
      cases he
    refine Or.inr ⟨hkept, ?_⟩
    split
    · trivial
    · rw [if_pos (hR.1.trans he)]
      trivial
  | false =>
    obtain rfl := hR.2 he
    refine Or.inl ⟨e', ⟨rfl, he⟩, ?_⟩
    rw [if_neg (by rintro rfl; cases he), if_neg (by simp [he])]

include hinner

private theorem runHandler_escaped (callback : HandlerCallback) (event : ClientEvent) (data : Data) :
    (dispatcher.runHandler callback event data).Surfaces Escaped := by
  refine Prog.surfaces_tryCatch (A := Req.IsCallback) ?_ ?_ (fun r e e' => settle_escaped)
    fun r e _ hR => absurd (contained_refl r e) (hR e)
  · exact Prog.safe_bind (inner_callback hinner event data) fun _ _ => trivial
  · exact Prog.surfaces_bind (inner_contained hinner event data) fun _ => trivial

omit hinner in
private theorem evalFilters_escaped (filters : List Filter) (event : ClientEvent) (data extra : Data) :
    (evalFilters filters event data extra).Surfaces Escaped := by
  induction filters generalizing data extra with
  | nil => trivial
  | cons filt filters ih =>
    refine Prog.surfaces_bind ?_ ?_
    · cases filt with
      | eventType => trivial
      | custom f => exact Prog.surfaces_request fun e => ⟨rfl, trivial⟩
    · rintro ⟨outcome, data⟩
      show Prog.Surfaces _ (if _ then _ else _)
      split
      · cases outcome with
        | dict d => exact ih ..
        | plain b => exact ih ..
      · trivial

private theorem tryHandlers_escaped (handlers : List HandlerObject) (event : ClientEvent) (data : Data) :
    (dispatcher.tryHandlers handlers event data).Surfaces Escaped := by
  induction handlers generalizing data with
  | nil => trivial
  | cons handler handlers ih =>
    refine Prog.surfaces_bind (evalFilters_escaped handler.filters event data ∅) ?_
    rintro ⟨extra, data⟩
    cases extra with
    | none => exact ih data
    | some extra =>
      refine Prog.surfaces_bind (runHandler_escaped hinner handler.callback event (data.update extra)) fun result => ?_
      cases result with
      | none => exact ih data
      | some result => trivial

private theorem walk_escaped (event : ClientEvent) (data : Data) :
    (dispatcher.walkAndHandle event data).Surfaces Escaped := by
  rw [walkAndHandle, tryRouters_eq]
  exact Prog.surfaces_bind (tryHandlers_escaped hinner _ event data) fun _ => trivial

/-! ### A feed -/

omit hinner in
private theorem parse_escaped (registry : PayloadRegistry) (eventType : String) (data : EventData) :
    (registry.parse eventType data).Surfaces Escaped := by
  unfold PayloadRegistry.parse
  split
  · trivial
  · next model _ =>
    refine Prog.surfaces_tryCatch (A := Req.IsModel) (R := fun _ e e' => e' = e) ?_ ?_ (fun r e e' hr he => ?_)
      fun r e _ hR => absurd rfl (hR e)
    · split <;> exact Prog.safe_request trivial
    · split <;> exact Prog.surfaces_request fun _ => rfl
    · have hr : r.Escapes e ↔ PayloadRegistry.isParseFailure e = false := by
        cases r <;> first | exact Iff.rfl | exact hr.elim
      obtain rfl := he
      cases hf : PayloadRegistry.isParseFailure e' with
      | true =>
        refine Or.inr ⟨fun e'' h => ?_, trivial⟩
        rw [hr.1 h.2] at hf
        cases hf
      | false => exact Or.inl ⟨e', ⟨rfl, hr.2 hf⟩, rfl⟩

private theorem outer_escaped {outer : List (Middleware DispatchResult)} (houter : ∀ m ∈ outer, LibraryOuter m)
    (event : ClientEvent) (data : Data) : (chain outer dispatcher.walkAndHandle event data).Surfaces Escaped := by
  induction outer generalizing event data with
  | nil => exact walk_escaped hinner event data
  | cons m outer ih =>
    have ih := ih fun m' h => houter m' (List.mem_cons_of_mem _ h)
    rcases houter m (List.mem_cons_self ..) with rfl | ⟨idempotency, rfl⟩
    · exact ih event data
    · refine Prog.surfaces_bind (Prog.surfaces_request fun e => ⟨rfl, trivial⟩) fun new => ?_
      cases new with
      | true => exact ih event data
      | false => trivial

private theorem feed_escaped (houter : ∀ m ∈ dispatcher.outer, LibraryOuter m) (event : ClientEvent)
    (ctx : AccountContext) : (dispatcher.feed event ctx).Surfaces Escaped :=
  Prog.surfaces_bind (parse_escaped dispatcher.registry event.eventType event.data) fun _ =>
    Prog.surfaces_bind (outer_escaped hinner houter event _) fun _ => trivial

end Dispatcher

/-- With the library's middleware, a feed raises `e` if and only if the last that it asks for is answered with `e`, and
`e` escapes:  it comes from a filter, the dedup store or a payload model, or it is no `Exception`.  The first failure
that escapes ends the feed. -/
theorem feed_raises_iff {dispatcher : Dispatcher} (houter : ∀ m ∈ dispatcher.outer, LibraryOuter m)
    (hinner : ∀ m ∈ dispatcher.inner, LibraryInner m) {event : ClientEvent} {ctx : AccountContext} {t : List Call}
    {res : Except Exn DispatchResult} (hrun : (dispatcher.feed event ctx).Runs t res) :
    (∀ e, res = .error e ↔ ∃ t' r, t = t' ++ [⟨r, .error e⟩] ∧ r.Escapes e) ∧
      ∀ t₁ r e t₂, t = t₁ ++ ⟨r, .error e⟩ :: t₂ → r.Escapes e → t₂ = [] := by
  obtain ⟨hraises, hends⟩ := (Dispatcher.feed_escaped hinner houter event ctx).raises hrun
  refine ⟨fun e => ⟨fun he => ?_, ?_⟩, fun t₁ r e t₂ ht hr => (hends t₁ r e e t₂ ht ⟨rfl, hr⟩).1⟩
  · obtain ⟨t', r, e', rfl, rfl, hr⟩ := hraises e he
    exact ⟨t', r, rfl, hr⟩
  · rintro ⟨t', r, rfl, hr⟩
    obtain ⟨-, e'', ⟨rfl, -⟩, hres⟩ := hends t' r e e [] rfl ⟨rfl, hr⟩
    exact hres

/-- The dedup store cannot be reached. -/
theorem feed_raises_store :
    ∃ t res, (greeter.feed newLot seller).Runs t res ∧ res = .error (.other "ConnectionError") := by
  have hrun : (greeter.feed newLot seller).Runs
      [⟨.markIfNew (dayLong.key newLot (some (.str "sub-1"))) 86400, .error (.other "ConnectionError")⟩]
      (.error (.other "ConnectionError")) := ⟨_, _, rfl, rfl, rfl⟩
  have houter : ∀ m ∈ greeter.outer, LibraryOuter m := fun m hm => Or.inr ⟨dayLong, List.mem_singleton.1 hm⟩
  have hinner : ∀ m ∈ greeter.inner, LibraryInner m := fun m hm => absurd hm List.not_mem_nil
  exact ⟨_, _, hrun, ((feed_raises_iff houter hinner hrun).1 _).2 ⟨[], _, rfl, trivial⟩⟩

end EventusSdk
