import EventusSdk.Management

/-!
# What an operation raises

`_request` raises a typed error for a response that is an error, and for none at all.  Behind it an operation takes the
body apart without any further check, so a body of another shape leaves it as one of five builtin exceptions.
-/

namespace EventusSdk

/-- What taking a body apart may raise: `KeyError`, `TypeError`, `ValueError`, `AttributeError` or `OverflowError`. -/
def BodyError (e : Exn) : Prop := e.isMalformed = true ∨ e = .attributeError ∨ e = .overflowError

/-- Every exception is one of those. -/
def BodyErrors {α : Type} (x : Except Exn α) : Prop := ∀ e, x = .error e → BodyError e

section
variable {α β : Type}

private theorem bodyErrors_ok (a : α) : BodyErrors (.ok a : Except Exn α) := fun _ h => by cases h

theorem BodyErrors.bind {x : Except Exn α} {f : α → Except Exn β} (hx : BodyErrors x) (hf : ∀ a, BodyErrors (f a)) :
    BodyErrors (x >>= f) := by
  intro e h
  rcases except_bind_error.1 h with h | ⟨a, -, h⟩
  · exact hx e h
  · exact hf a e h

private theorem BodyErrors.mapM {read : α → Except Exn β} (h : ∀ a, BodyErrors (read a)) (items : List α) :
    BodyErrors (items.mapM read) := by
  induction items with
  | nil => exact bodyErrors_ok _
  | cons i items ih =>
    rw [List.mapM_cons]
    exact (h i).bind fun _ => ih.bind fun _ => bodyErrors_ok _

private theorem getItem_bodyErrors (v : Json) (name : String) : BodyErrors (v.getItem name) :=
  fun _ h => Or.inl (Json.getItem_error h)

private theorem get_bodyErrors (v : Json) (name : String) (default : Json) : BodyErrors (v.get name default) := by
  intro e h
  cases v with
  | obj members => cases h
  | _ => cases h; exact Or.inr (Or.inl rfl)

private theorem toList_bodyErrors (v : Json) : BodyErrors v.toList := by
  intro e h
  cases v with
  | arr items => cases h
  | obj members => cases h
  | str s => cases h
  | _ => cases h; exact Or.inl rfl

private theorem toInt_bodyErrors (v : Json) : BodyErrors v.toInt := by
  intro e h
  rcases Json.toInt_error h with h | ⟨h, -⟩
  · exact Or.inl h
  · exact Or.inr (Or.inr h)

private theorem parseByKind_bodyErrors (byKind : List (String × RecordClass Json α)) (v : Json) :
    BodyErrors (parseByKind byKind v) := by
  intro e h
  unfold parseByKind at h
  split at h
  · split at h
    · split at h
      · split at h
        · cases h
        · cases h; exact Or.inl rfl
      · cases h; exact Or.inl rfl
    · cases h; exact Or.inl rfl
  · cases h; exact Or.inr (Or.inl rfl)

private theorem parse_bodyErrors (times : Timestamps) (v : Json) : BodyErrors (times.parse v) := by
  intro e h
  cases v with
  | str s =>
    rw [times.fromisoformat_error s e h]
    exact Or.inl rfl
  | _ => cases h; exact Or.inl rfl

/-! ### The bodies of the operations -/

private theorem subscriptionInfo_bodyErrors (times : Timestamps) (v : Json) :
    BodyErrors (subscriptionInfo times v) := by
  refine (getItem_bodyErrors v _).bind fun _ => (getItem_bodyErrors v _).bind fun _ => (getItem_bodyErrors v _).bind
    fun _ => (getItem_bodyErrors v _).bind fun eventTypes => (toList_bodyErrors eventTypes).bind fun _ => ?_
  refine (getItem_bodyErrors v _).bind fun scope => (parseByKind_bodyErrors scopeByKind scope).bind fun _ =>
    (getItem_bodyErrors v _).bind fun ctx => (parseByKind_bodyErrors ctxByKind ctx).bind fun _ => ?_
  exact (getItem_bodyErrors v _).bind fun _ => (getItem_bodyErrors v _).bind fun createdAt =>
    (parse_bodyErrors times createdAt).bind fun _ => bodyErrors_ok _

private theorem subscriptionCreated_bodyErrors (times : Timestamps) (v : Json) :
    BodyErrors (subscriptionCreated times v) :=
  (subscriptionInfo_bodyErrors times v).bind fun _ => (get_bodyErrors v _ _).bind fun _ => (get_bodyErrors v _ _).bind
    fun _ => bodyErrors_ok _

private theorem subscriptionPage_bodyErrors (times : Timestamps) (v : Json) : BodyErrors (subscriptionPage times v) :=
  (getItem_bodyErrors v _).bind fun items => (toList_bodyErrors items).bind fun _ =>
    (BodyErrors.mapM (subscriptionInfo_bodyErrors times) _).bind fun _ => (getItem_bodyErrors v _).bind fun _ =>
    (getItem_bodyErrors v _).bind fun _ => (getItem_bodyErrors v _).bind fun _ => bodyErrors_ok _

private theorem pendingEvent_bodyErrors (v : Json) : BodyErrors (pendingEvent v) :=
  (getItem_bodyErrors v _).bind fun _ => (getItem_bodyErrors v _).bind fun _ => (getItem_bodyErrors v _).bind fun _ =>
    bodyErrors_ok _

private theorem pendingBatch_bodyErrors (v : Json) : BodyErrors (pendingBatch v) := by
  refine (getItem_bodyErrors v _).bind fun _ => (getItem_bodyErrors v _).bind fun items =>
    (toList_bodyErrors items).bind fun _ => (BodyErrors.mapM pendingEvent_bodyErrors _).bind fun _ => ?_
  exact (getItem_bodyErrors v _).bind fun _ => (getItem_bodyErrors v _).bind fun _ => (getItem_bodyErrors v _).bind
    fun _ => (getItem_bodyErrors v _).bind fun _ => bodyErrors_ok _

private theorem emittedEvent_bodyErrors (v : Json) : BodyErrors (emittedEvent v) :=
  (getItem_bodyErrors v _).bind fun _ => (getItem_bodyErrors v _).bind fun _ => (getItem_bodyErrors v _).bind fun seq =>
    (toInt_bodyErrors seq).bind fun _ => bodyErrors_ok _

end

/-! ### What leaves an operation -/

section
variable {lib : ClientLib} {α : Type} {t : List (Prog.Event HttpRequest (fun _ => HttpAnswer) RequestFailure)}
  {answer : HttpAnswer} {r : HttpRequest}

private theorem toStr_bodyErrors (v : Json) :
    BodyErrors (v.toStr lib.toStdlib) := fun _ h => Or.inl (Json.toStr_error h)

private theorem errorOfBody_bodyErrors (lib : ClientLib) (status : ℕ) (v : Json) :
    BodyErrors (errorOfBody lib status v) := by
  refine (get_bodyErrors v _ _).bind fun code => (get_bodyErrors v _ _).bind fun detail => (get_bodyErrors v _ _).bind
    fun requestId => BodyErrors.bind ?_ fun _ => ?_
  · intro e h
    cases code with
    | str s => cases h
    | arr items => cases h; exact Or.inl rfl
    | obj members => cases h; exact Or.inl rfl
    | _ => cases h
  · exact (toStr_bodyErrors _).bind fun _ => (toStr_bodyErrors _).bind fun _ => bodyErrors_ok _

/-- An error that bears a status, `0` where there is no response, or an exception of the transport or the body. -/
def Raised (answer : HttpAnswer) : RequestFailure → Prop
  | .api e => e.status = answer.status ∧ (e.status = 0 ∨ 400 ≤ e.status)
  | .other e => answer = .raised e ∨ BodyError e

private theorem raiseBuilt_raised {x : Except Exn ManagementApiError} {failure : RequestFailure} (hx : BodyErrors x)
    (hstatus : ∀ e, x = .ok e → e.status = answer.status) (h0 : answer.status = 0 ∨ 400 ≤ answer.status)
    (h : raiseBuilt x = .error failure) : Raised answer failure := by
  rcases hxe : x with e | e <;> rw [hxe] at h <;> cases h
  · exact Or.inr (hx e hxe)
  · have he := hstatus e hxe
    exact ⟨he, he ▸ h0⟩

/-- What `_request` raises. -/
private theorem request_raised {failure : RequestFailure} (h : request lib answer = .error failure) :
    Raised answer failure := by
  cases answer with
  | raised e => cases h; exact Or.inl rfl
  | httpError reason =>
    refine raiseBuilt_raised ?_ (fun e he => build_status he) (Or.inl rfl) h
    exact (toStr_bodyErrors _).bind fun _ => (toStr_bodyErrors _).bind fun _ => bodyErrors_ok _
  | response r =>
    have hbody : 400 ≤ r.status → ∀ body, raiseBuilt (errorOfBody lib r.status body) = .error failure →
        Raised (.response r) failure := fun hr body =>
      raiseBuilt_raised (errorOfBody_bodyErrors lib r.status body) (fun e he => errorOfBody_status he) (Or.inr hr)
    by_cases hr : r.status ≥ 400
    · rw [request, if_pos hr] at h
      rcases hj : r.json with e | body <;> rw [hj] at h
      · simp only [r.json_error e hj, if_true] at h
        exact hbody hr _ h
      · exact hbody hr body h
    · rw [request, if_neg hr] at h
      rcases hj : r.json with e | body <;> rw [hj] at h <;> cases h
      have he := r.json_error e hj
      exact Or.inr (Or.inl (by simp [Exn.isMalformed, he]))

/-- A request is sent and answered, and its body read. -/
private theorem runs_exchange {read : Json → Except Exn α} {res : Except RequestFailure α}
    (h : ((ManagementClient.request lib r).bind fun body => reading (read body)).Runs t res)
    (ht : ∀ ev ∈ t, ∃ a, ev.2 = .ok a) :
    ∃ answer, t = [⟨r, .ok answer⟩] ∧ res = (request lib answer).bind fun body => (read body).mapError .other := by
  obtain ⟨x, t', rfl, h⟩ := h
  obtain ⟨answer, hx⟩ := ht _ (List.mem_cons_self ..)
  obtain rfl : x = .ok answer := hx
  refine ⟨answer, ?_⟩
  have h' : ((Prog.ofExcept (request lib answer)).bind fun body => reading (read body)).Runs t' res := h
  rcases hr : request lib answer with e | body <;> rw [hr] at h'
  · obtain ⟨rfl, rfl⟩ := h'
    exact ⟨rfl, rfl⟩
  · rw [Prog.ofExcept, Prog.ret_bind, reading] at h'
    rcases hb : read body with e | a <;> rw [hb] at h' <;> obtain ⟨rfl, rfl⟩ := h'
    · exact ⟨rfl, by simp [Except.bind, Except.mapError, hb]⟩
    · exact ⟨rfl, by simp [Except.bind, Except.mapError, hb]⟩

/-- What an exchange raises. -/
private theorem exchange_raised {read : Json → Except Exn α} (hread : ∀ body, BodyErrors (read body))
    {res : Except RequestFailure α} {failure : RequestFailure}
    (h : ((ManagementClient.request lib r).bind fun body => reading (read body)).Runs t res)
    (ht : ∀ ev ∈ t, ∃ a, ev.2 = .ok a) (hres : res = .error failure) :
    ∃ answer, t = [⟨r, .ok answer⟩] ∧ Raised answer failure := by
  obtain ⟨answer, rfl, rfl⟩ := runs_exchange h ht
  refine ⟨answer, rfl, ?_⟩
  rcases hr : request lib answer with e | body <;> rw [hr] at hres
  · cases hres
    exact request_raised hr
  · rcases hb : read body with e | a <;> rw [Except.bind, hb] at hres <;> cases hres
    exact Or.inr (hread body e hb)

end

/-- An operation sends one request, and what it raises is a typed error that bears the status of the response, what the
transport raised, or one of the builtin exceptions of taking a body apart; `health` raises no typed error. -/
theorem operation_raises (lib : ClientLib) (times : Timestamps) (op : Operation)
    {t : List (Prog.Event HttpRequest (fun _ => HttpAnswer) RequestFailure)} {failure : RequestFailure}
    (h : (op.perform lib times).Runs t (.error failure)) (ht : ∀ ev ∈ t, ∃ a, ev.2 = .ok a) :
    ∃ r answer, t = [⟨r, .ok answer⟩] ∧ Raised answer failure ∧ (op = .health → ∀ e, failure ≠ .api e) := by
  have exchanged : ∀ {α : Type} {r : HttpRequest} {read : Json → Except Exn α}, (∀ body, BodyErrors (read body)) →
      ((ManagementClient.request lib r).bind fun body => reading (read body)).Runs t (.error failure) → op ≠ .health →
      ∃ r answer, t = [⟨r, .ok answer⟩] ∧ Raised answer failure ∧ (op = .health → ∀ e, failure ≠ .api e) := by
    intro α r read hread h hop
    obtain ⟨answer, htrace, hraised⟩ := exchange_raised hread h ht rfl
    exact ⟨r, answer, htrace, hraised, fun heq => absurd heq hop⟩
  cases op with
  | createSubscription transport endpoint eventTypes scope ctx backfill =>
    exact exchanged (fun body => (getItem_bodyErrors body _).bind (subscriptionCreated_bodyErrors times)) h (by simp)
  | listSubscriptions limit offset activeOnly => exact exchanged (subscriptionPage_bodyErrors times) h (by simp)
  | getSubscription subscriptionId =>
    exact exchanged (fun body => (getItem_bodyErrors body _).bind (subscriptionInfo_bodyErrors times)) h (by simp)
  | updateSubscription subscriptionId eventTypes scope active =>
    exact exchanged (fun body => (getItem_bodyErrors body _).bind (subscriptionInfo_bodyErrors times)) h (by simp)
  | deactivateSubscription subscriptionId => exact exchanged (fun _ => bodyErrors_ok ()) h (by simp)
  | pollPending subscriptionId eventType limit readAll => exact exchanged pendingBatch_bodyErrors h (by simp)
  | confirmRead subscriptionId upToSeq =>
    exact exchanged (fun body => (getItem_bodyErrors body _).bind toInt_bodyErrors) h (by simp)
  | emitEvent eventType aggregateId payload fields => exact exchanged emittedEvent_bodyErrors h (by simp)
  | listEventTypes => exact exchanged (fun body => (getItem_bodyErrors body _).bind toList_bodyErrors) h (by simp)
  | health =>
    rcases Prog.runs_tryCatch.1 h with ⟨a, hok, -⟩ | ⟨e, t₁, t₂, rfl, hbody, hhandler⟩
    · cases hok
    · have ht₁ : ∀ ev ∈ t₁, ∃ a, ev.2 = .ok a := fun ev hev => ht ev (List.mem_append_left _ hev)
      obtain ⟨answer, rfl, hraised⟩ := exchange_raised (fun _ => bodyErrors_ok true) hbody ht₁ rfl
      cases e with
      | api e => cases hhandler.2
      | other e =>
        obtain ⟨rfl, hfailure⟩ := hhandler
        cases hfailure
        exact ⟨_, answer, rfl, hraised, fun _ e h => by cases h⟩

/-- One point in time. -/
def oneTime : Timestamps where
  DateTime := Unit
  fromisoformat := fun s => if s = "2026-07-02T13:58:11.685688Z" then .ok () else .error .valueError
  fromisoformat_error := fun s e h => by
    split at h <;> cases h
    rfl

/-- A subscription without an `endpoint`. -/
theorem operation_raises_keyError :
    ∃ r answer, [⟨⟨"GET", "/subscriptions/get", none, some [("subscription_id", .str "sub-1")]⟩,
        .ok (answerOf 200 (.obj [("data", .obj [("subscription_id", .str "sub-1"), ("transport", .str "sse")])]))⟩] =
          [(⟨r, .ok answer⟩ : Prog.Event HttpRequest (fun _ => HttpAnswer) RequestFailure)] ∧
      Raised answer (.other .keyError) ∧
      (Operation.getSubscription "sub-1" = .health → ∀ e, RequestFailure.other .keyError ≠ .api e) :=
  operation_raises clientLib oneTime (.getSubscription "sub-1") ⟨_, _, rfl, rfl, rfl⟩ (by simp)

end EventusSdk
