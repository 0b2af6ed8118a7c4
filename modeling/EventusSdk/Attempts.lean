import EventusSdk.Injection
import EventusSdk.Visits

/-!
# Handlers tried one after the other

A handler that raises `SkipHandler` leaves the event to the next one.  Nothing of its attempt is left behind: the dicts
of its filters and whatever the inner middleware puts into the `data` dict go into a dict made for this handler alone.
The inner middleware may do anything to the dict it is given; the outer middleware and the filters are assumed to leave
theirs alone.

Of the arguments a callback is called with, `event` is bound last, to the event its caller handed on.
-/

namespace EventusSdk

/-- Every filter of the visit sees what the feed provides, and the inner chain is entered with that, overlaid with the
dicts of the handler's own filters. -/
structure Visit.Clean (base : Data) (v : Visit) : Prop where
  seen : ∀ a ∈ v.asked, a.1 = base
  entered : ∀ data, v.ending = .entered data → v.asked.length = v.handler.filters.length ∧
    ∀ key, data.lookup key = (mergedOutcomes base v.outcomes).lookup key

/-- The `data` dict holds what a feed for the account provides, the payload if it was parsed, and nothing else. -/
structure Provided (ctx : AccountContext) (payload : Value) (data : Data) : Prop where
  lookup_ctx : data.lookup "ctx" = some (.ctx ctx)
  lookup_client : data.lookup "client" = some (.client ctx.client)
  lookup_subscriptionId : data.lookup "subscription_id" = some (.str ctx.subscriptionId)
  parsed : payload ≠ .none → data.lookup "payload" = some payload
  not_parsed : payload = .none → data.lookup "payload" = none
  rest : ∀ key ∉ ["ctx", "client", "subscription_id", "payload"], data.lookup key = none

private theorem provided_withPayload (ctx : AccountContext) (payload : Value) :
    Provided ctx payload (Dispatcher.withPayload (Dispatcher.baseData ctx) payload) := by
  obtain ⟨hctx, hclient, hsub⟩ := lookup_base ctx payload
  refine ⟨hctx, hclient, hsub, lookup_payload ctx, ?_, ?_⟩
  · rintro rfl
    rfl
  · intro key hkey
    simp only [List.mem_cons, List.not_mem_nil, or_false, not_or] at hkey
    obtain ⟨hctx, hclient, hsub, hpayload⟩ := hkey
    have hbase : (Dispatcher.baseData ctx).lookup key = none := by
      rw [Dispatcher.baseData, AList.lookup_insert_ne hsub, AList.lookup_insert_ne hclient, AList.lookup_insert_ne hctx,
        AList.lookup_empty]
    cases payload with
    | none => exact hbase
    | _ => exact (AList.lookup_insert_ne hpayload).trans hbase

/-- The event a callback is called with is that of the call, whatever `data` holds under the name. -/
private theorem lookup_bindKwargs_event {callback : HandlerCallback} (hdeclares : callback.Declares "event")
    (event : ClientEvent) (data : Data) : (bindKwargs callback event data).lookup "event" = some (.event event) := by
  have hfull : (data.insert "event" (.event event)).lookup "event" = some (.event event) := AList.lookup_insert data
  by_cases hkw : ∀ p ∈ callback.params, p.kind ≠ .varKeyword
  · rw [lookup_bindKwargs hkw, if_pos hdeclares, hfull]
  · have hany : (callback.params.any fun p => decide (p.kind = .varKeyword)) = true := by simpa using hkw
    simp only [bindKwargs, hany, ↓reduceIte, hfull]

/-- No attempt leaks into another: in every feed each visit starts from what the feed provides, which is the account's
data and the payload, and every callback is called with the event handed on to it. -/
theorem feed_attempts_clean {dispatcher : Dispatcher} {event : ClientEvent} {ctx : AccountContext} {t : List Call}
    {res : Except Exn DispatchResult} (houter : ∀ m ∈ dispatcher.outer, HandsDataOn m)
    (hrun : (dispatcher.feed event ctx).Runs t res) (hkeep : FiltersKeep t) :
    Routes dispatcher event ctx (fun base v => v.Clean base) t ∧
      (∀ payload, Provided ctx payload (Dispatcher.withPayload (Dispatcher.baseData ctx) payload)) ∧
      ∀ callback event' data t' res', (callCallback callback event' data).Runs t' res' →
        ∃ kwargs x, t' = [⟨.callback callback kwargs, x⟩] ∧
          (callback.Declares "event" → kwargs.lookup "event" = some (.event event')) := by
  refine ⟨?_, provided_withPayload ctx, ?_⟩
  · refine (feed_routes_keeping houter hrun hkeep).mono ?_
    intro base v ⟨hfaithful, hleft, hseen⟩
    refine ⟨hseen, ?_⟩
    intro data hend
    obtain ⟨hlen, -, hlookup⟩ := hfaithful.entered hend
    rw [hleft] at hlookup
    exact ⟨hlen, hlookup⟩
  · intro callback event' data t' res' hcall
    obtain ⟨x, rfl, -⟩ := callCallback_runs hcall
    exact ⟨_, x, rfl, fun hdeclares => lookup_bindKwargs_event hdeclares event' data⟩

/-! A handler whose filter returns a dict, and which skips; behind it one that asks for the event.  The inner middleware
writes into the dict it is given. -/

def stamp : Middleware Value := fun handler event data => handler event (data.insert "event" (.object 3))

def askForEvent : HandlerCallback := ⟨2, [{ name := "event" }]⟩

def twoHandlers : Dispatcher where
  root := ((Router.mk [] []).on [.filter (.custom ⟨0⟩)] ⟨1, []⟩).on [.str "new_lot"] askForEvent
  outer := [logging, errorBoundary, dayLong.call]
  inner := [stamp]

def twoAttempts : List Call :=
  [⟨.markIfNew "sub-1:1" 86400, .ok true⟩,
    ⟨.filter ⟨0⟩ newLot (Dispatcher.baseData seller),
      .ok (.dict (AList.singleton "subscription_id" (.object 5)), Dispatcher.baseData seller)⟩,
    ⟨.callback ⟨1, []⟩ ∅, .error .skipHandler⟩,
    ⟨.callback askForEvent (AList.singleton "event" (.event newLot)), .ok .none⟩]

theorem feed_attempts_clean_two :
    Routes twoHandlers newLot seller (fun base v => v.Clean base) twoAttempts ∧
      (∀ payload, Provided seller payload (Dispatcher.withPayload (Dispatcher.baseData seller) payload)) ∧
      ∀ callback event' data t' res', (callCallback callback event' data).Runs t' res' →
        ∃ kwargs x, t' = [⟨.callback callback kwargs, x⟩] ∧
          (callback.Declares "event" → kwargs.lookup "event" = some (.event event')) := by
  have hrun : (twoHandlers.feed newLot seller).Runs twoAttempts (.ok ⟨.handled, newLot, none⟩) :=
    ⟨_, _, rfl, _, _, rfl, _, _, rfl, _, _, rfl, rfl, rfl⟩
  have hkeep : FiltersKeep twoAttempts := by
    intro f event data outcome data' hmem
    simp only [twoAttempts, List.mem_cons, List.not_mem_nil, or_false, Sigma.mk.injEq, Req.filter.injEq,
      reduceCtorEq, false_and, false_or] at hmem
    obtain ⟨⟨rfl, rfl, rfl⟩, hx⟩ := hmem
    cases hx
    rfl
  have houter : ∀ m ∈ twoHandlers.outer, HandsDataOn m := by
    simpa [twoHandlers] using ⟨handsDataOn_logging, handsDataOn_errorBoundary, handsDataOn_idempotency dayLong⟩
  exact feed_attempts_clean houter hrun hkeep

end EventusSdk
