import EventusSdk.Coercion

/-!
# The management client

`ManagementClient._request`: send a request, and make of the answer either the decoded body or a
`ManagementApiError`.  `build_error` chooses the class of the error by the code in the body, else by the status.  All of
it works on a body whose shape only the server knows.
-/

namespace EventusSdk

/-! ### Typed errors -/

/-- `ManagementApiError` and its subclasses. -/
inductive ErrorClass where
  | managementApiError
  | badRequest
  | unauthorized
  | forbidden
  | notFound
  | conflict
  | serviceUnavailable
  | subscriptionNotFound
  | unknownEventType
  | invalidLimit
  | limitTooLarge
  | notAPollingSubscription
  | subscriptionCtxMismatch
  | subscriptionScopeMismatch
  | managementApiConnectionError
deriving DecidableEq

structure ManagementApiError where
  cls : ErrorClass
  status : ℕ
  code : Json
  detail : Json
  requestId : Json
  message : String

/-- `_CODE_MAP`. -/
def codeMap : List (String × ErrorClass) :=
  [("unauthorized", .unauthorized), ("forbidden", .forbidden), ("not_found", .notFound), ("conflict", .conflict),
    ("service_unavailable", .serviceUnavailable), ("subscription_not_found", .subscriptionNotFound),
    ("unknown_event_type", .unknownEventType), ("invalid_limit", .invalidLimit),
    ("limit_too_large", .limitTooLarge), ("not_a_polling_subscription", .notAPollingSubscription),
    ("subscription_ctx_mismatch", .subscriptionCtxMismatch),
    ("subscription_scope_mismatch", .subscriptionScopeMismatch)]

/-- `_STATUS_FALLBACK`. -/
def statusFallback : List (ℕ × ErrorClass) :=
  [(400, .badRequest), (401, .unauthorized), (403, .forbidden), (404, .notFound), (409, .conflict),
    (503, .serviceUnavailable)]

/-- `_CODE_MAP.get(code)`, where the code may be any JSON value; a list or a dict has no hash. -/
def classOfCode : Json → Except Exn (Option ErrorClass)
  | .str code => .ok (codeMap.lookup code)
  | code => if code.hashable then .ok none else .error .typeError

/-- The client also prints a dict of strings of its own, and `str()` of one returns. -/
structure ClientLib extends Stdlib where
  repr_strings : ∀ members : List (String × String), ∃ s, repr (.obj (members.map fun (k, v) => (k, .str v))) = .ok s

namespace ManagementApiError

/-- The constructor of the class, with the text for the log. -/
def build (lib : ClientLib) (cls : ErrorClass) (status : ℕ) (code detail requestId : Json) :
    Except Exn ManagementApiError := do
  let codeText ← code.toStr lib.toStdlib
  let detailText ← detail.toStr lib.toStdlib
  let message := codeText ++ " (" ++ toString status ++ "): " ++ detailText
  return { cls, status, code, detail, requestId, message }

end ManagementApiError

def buildError (lib : ClientLib) (status : ℕ) (code detail requestId : Json) : Except Exn ManagementApiError := do
  let byCode ← classOfCode code
  let cls := byCode.getD ((statusFallback.lookup status).getD .managementApiError)
  ManagementApiError.build lib cls status code detail requestId

/-- `ManagementApiConnectionError(reason=reason)`. -/
def connectionError (lib : ClientLib) (reason : String) : Except Exn ManagementApiError :=
  ManagementApiError.build lib .managementApiConnectionError 0 (.str "connection_error")
    (.obj [("reason", .str reason)]) .null

/-! ### Requests -/

/-- A response, with what `response.json()` returns or raises. -/
structure HttpResponse where
  status : ℕ
  json : Except Exn Json
  json_error : ∀ e, json = .error e → e.isValueError = true

/-- What comes of a request: a response, an `httpx.HTTPError` with its text, or any other exception. -/
inductive HttpAnswer where
  | response (r : HttpResponse)
  | httpError (reason : String)
  | raised (e : Exn)

/-- What `_request` raises. -/
inductive RequestFailure where
  | api (e : ManagementApiError)
  | other (e : Exn)

/-- `raise` of an error that is built first. -/
def raiseBuilt (x : Except Exn ManagementApiError) : Except RequestFailure Json :=
  match x with
  | .ok e => .error (.api e)
  | .error e => .error (.other e)

/-- The error for a body: its code, its detail, and the id of the request. -/
def errorOfBody (lib : ClientLib) (status : ℕ) (body : Json) : Except Exn ManagementApiError := do
  let code ← body.get "error" (.str "unknown_error")
  let detail ← body.get "detail" .null
  let requestId ← body.get "request_id" .null
  buildError lib status code (if detail.truthy then detail else .obj []) requestId

/-- `_request`, from the answer on. -/
def request (lib : ClientLib) (answer : HttpAnswer) : Except RequestFailure Json :=
  match answer with
  | .httpError reason => raiseBuilt (connectionError lib reason)
  | .raised e => .error (.other e)
  | .response r =>
    if r.status ≥ 400 then
      -- a body that is no JSON counts as an empty object
      match r.json with
      | .ok body => raiseBuilt (errorOfBody lib r.status body)
      | .error e => if e.isValueError then raiseBuilt (errorOfBody lib r.status (.obj [])) else .error (.other e)
    else
      match r.json with
      | .ok result => .ok result
      | .error e => .error (.other e)

/-- `health`, from the answer on. -/
def health (lib : ClientLib) (answer : HttpAnswer) : Except RequestFailure Bool :=
  match request lib answer with
  | .ok _ => .ok true
  | .error (.api _) => .ok false
  | .error (.other e) => .error (.other e)

/-! ### What an answer should become -/

/-- The status an error bears: `0` where there is no response. -/
def HttpAnswer.status : HttpAnswer → ℕ
  | .response r => r.status
  | _ => 0

/-- The decoded object of a successful response is returned, or a typed error is raised that bears the status. -/
def Sound (answer : HttpAnswer) : Except RequestFailure Json → Prop
  | .ok v => (∃ members, v = .obj members) ∧
      ∃ r, answer = .response r ∧ 200 ≤ r.status ∧ r.status < 300 ∧ r.json = .ok v
  | .error (.api e) => e.status = answer.status
  | .error (.other _) => False

def Prints (lib : ClientLib) (v : Json) : Prop := ∃ s, v.toStr lib.toStdlib = .ok s

/-- An object whose `error` is neither a list nor an object, and whose `error` and `detail` have a text. -/
def ErrorBody (lib : ClientLib) (body : Json) : Prop :=
  ∃ members, body = .obj members ∧
    ((members.lookup "error").getD (.str "unknown_error")).hashable = true ∧
    Prints lib ((members.lookup "error").getD (.str "unknown_error")) ∧
    Prints lib (if ((members.lookup "detail").getD .null).truthy then (members.lookup "detail").getD .null else .obj [])

/-- The answers the client is made for: no response, an object with a status of success, and, with a status from 400 on,
no JSON at all or an object that describes the error. -/
def Understood (lib : ClientLib) : HttpAnswer → Prop
  | .httpError _ => True
  | .raised _ => False
  | .response r =>
    (200 ≤ r.status ∧ r.status < 300 ∧ ∃ members, r.json = .ok (.obj members)) ∨
      (400 ≤ r.status ∧ ∀ body, r.json = .ok body → ErrorBody lib body)

/-! ### Errors that are built -/

section
variable {lib : ClientLib} {cls : ErrorClass} {status : ℕ} {code detail requestId body : Json}
  {answer : HttpAnswer} {e : ManagementApiError}

private theorem build_ok :
    (∃ e, ManagementApiError.build lib cls status code detail requestId = .ok e) ↔
      Prints lib code ∧ Prints lib detail := by
  constructor
  · rintro ⟨e, h⟩
    obtain ⟨codeText, hc, h⟩ := except_bind_ok.1 h
    obtain ⟨detailText, hd, -⟩ := except_bind_ok.1 h
    exact ⟨⟨codeText, hc⟩, detailText, hd⟩
  · rintro ⟨⟨codeText, hc⟩, detailText, hd⟩
    exact ⟨_, except_bind_ok.2 ⟨codeText, hc, except_bind_ok.2 ⟨detailText, hd, rfl⟩⟩⟩

theorem build_status (h : ManagementApiError.build lib cls status code detail requestId = .ok e) :
    e.status = status := by
  obtain ⟨codeText, -, h⟩ := except_bind_ok.1 h
  obtain ⟨detailText, -, h⟩ := except_bind_ok.1 h
  cases h
  rfl

private theorem classOfCode_ok : (∃ c, classOfCode code = .ok c) ↔ code.hashable = true := by
  cases code <;> simp [classOfCode, Json.hashable]

private theorem buildError_ok :
    (∃ e, buildError lib status code detail requestId = .ok e) ↔
      code.hashable = true ∧ Prints lib code ∧ Prints lib detail := by
  constructor
  · rintro ⟨e, h⟩
    obtain ⟨c, hc, h⟩ := except_bind_ok.1 h
    exact ⟨classOfCode_ok.1 ⟨c, hc⟩, build_ok.1 ⟨e, h⟩⟩
  · rintro ⟨hh, hp⟩
    obtain ⟨c, hc⟩ := classOfCode_ok.2 hh
    obtain ⟨e, he⟩ := build_ok.2 hp
    exact ⟨e, except_bind_ok.2 ⟨c, hc, he⟩⟩

private theorem buildError_status (h : buildError lib status code detail requestId = .ok e) : e.status = status := by
  obtain ⟨c, -, h⟩ := except_bind_ok.1 h
  exact build_status h

private theorem errorOfBody_ok : (∃ e, errorOfBody lib status body = .ok e) ↔ ErrorBody lib body := by
  cases body with
  | obj members =>
    have h : errorOfBody lib status (.obj members) = buildError lib status _ _ _ := rfl
    rw [h, buildError_ok]
    constructor
    · exact fun h => ⟨members, rfl, h⟩
    · rintro ⟨members', heq, h⟩
      obtain rfl := Json.obj.inj heq
      exact h
  | _ =>
    refine iff_of_false ?_ ?_
    · rintro ⟨e, h⟩
      cases h
    · rintro ⟨members, h, -⟩
      cases h

theorem errorOfBody_status (h : errorOfBody lib status body = .ok e) : e.status = status := by
  cases body with
  | obj members => exact buildError_status h
  | _ => cases h

/-- An empty object describes an error. -/
private theorem errorBody_empty : ErrorBody lib (.obj []) :=
  ⟨[], rfl, rfl, ⟨_, rfl⟩, lib.repr_strings []⟩

/-- Raising what was built is sound if something was built and bears the status. -/
private theorem sound_raiseBuilt {x : Except Exn ManagementApiError} (hst : ∀ e, x = .ok e → e.status = answer.status) :
    Sound answer (raiseBuilt x) ↔ ∃ e, x = .ok e := by
  cases x with
  | error e => exact iff_of_false id (by simp)
  | ok e => exact iff_of_true (hst e rfl) ⟨e, rfl⟩

/-! ### Every answer -/

/-- Below 400 the body is returned, or what `json()` raises. -/
private theorem sound_success {r : HttpResponse} (h : r.status < 400) :
    Sound (.response r) (request lib (.response r)) ↔
      200 ≤ r.status ∧ r.status < 300 ∧ ∃ members, r.json = .ok (.obj members) := by
  simp only [request, if_neg (not_le.2 h)]
  cases hj : r.json with
  | error e => exact iff_of_false id (by simp)
  | ok v =>
    constructor
    · rintro ⟨⟨members, rfl⟩, r', hr, hlow, hhigh, -⟩
      obtain rfl := HttpAnswer.response.inj hr
      exact ⟨hlow, hhigh, members, rfl⟩
    · rintro ⟨hlow, hhigh, members, hv⟩
      obtain rfl := Except.ok.inj hv
      exact ⟨⟨members, rfl⟩, r, rfl, hlow, hhigh, hj⟩

/-- From 400 on an error is built from the body. -/
private theorem sound_failure {r : HttpResponse} (h : 400 ≤ r.status) :
    Sound (.response r) (request lib (.response r)) ↔ ∀ body, r.json = .ok body → ErrorBody lib body := by
  have hbuilt : ∀ body, Sound (.response r) (raiseBuilt (errorOfBody lib r.status body)) ↔ ErrorBody lib body :=
    fun body => (sound_raiseBuilt fun e he => errorOfBody_status he).trans errorOfBody_ok
  simp only [request, if_pos h]
  cases hj : r.json with
  | error e =>
    simp only [r.json_error e hj, if_true, hbuilt]
    exact iff_of_true errorBody_empty (by simp)
  | ok body =>
    rw [hbuilt]
    exact ⟨fun h body' hb => Except.ok.inj hb ▸ h, fun h => h body rfl⟩

private theorem sound_iff (hraised : ∀ e, answer ≠ .raised e) : Sound answer (request lib answer) ↔
    Understood lib answer := by
  cases answer with
  | raised e => exact absurd rfl (hraised e)
  | httpError reason =>
    refine iff_of_true ?_ trivial
    refine (sound_raiseBuilt fun e he => build_status he).2 (build_ok.2 ⟨⟨_, rfl⟩, ?_⟩)
    exact lib.repr_strings [("reason", reason)]
  | response r =>
    by_cases h : r.status < 400
    · have hnot : ¬ 400 ≤ r.status := by omega
      rw [sound_success h, Understood]
      exact ⟨Or.inl, fun h => h.resolve_right fun h => hnot h.1⟩
    · have hge : 400 ≤ r.status := by omega
      rw [sound_failure hge, Understood]
      exact ⟨fun h => Or.inr ⟨hge, h⟩, fun h => (h.resolve_left fun h => by omega).2⟩

private theorem Sound.health (h : Sound answer (request lib answer)) : ∃ b, health lib answer = .ok b := by
  rw [EventusSdk.health]
  rcases hr : request lib answer with (e | e) | v
  · exact ⟨false, rfl⟩
  · rw [hr] at h
    exact h.elim
  · exact ⟨true, rfl⟩

/-- An answer becomes data or a typed error, and `health` a bool, if and only if the client is made for it. -/
theorem request_sound_iff (lib : ClientLib) (answer : HttpAnswer) (hraised : ∀ e, answer ≠ .raised e) :
    (Sound answer (request lib answer) ∧ ∃ b, health lib answer = .ok b) ↔ Understood lib answer := by
  rw [← sound_iff hraised]
  exact ⟨fun h => h.1, fun h => ⟨h, h.health⟩⟩

end

/-! ### A subscription that is not there, and a redirect -/

def clientLib : ClientLib where
  hexdigest := fun _ _ => ""
  hexdigest_ascii := fun _ _ => rfl
  loads := fun _ => .error .jsonDecodeError
  repr := fun _ => .ok "\x7b\x7d"
  repr_error := fun _ _ h => by cases h
  repr_strings := fun _ => ⟨_, rfl⟩

def answerOf (status : ℕ) (body : Json) : HttpAnswer := .response ⟨status, .ok body, by simp⟩

/-- A 404 with the envelope of the server. -/
theorem request_sound_notFound :
    Sound (answerOf 404 (.obj [("error", .str "subscription_not_found")]))
      (request clientLib (answerOf 404 (.obj [("error", .str "subscription_not_found")]))) := by
  have hbody : Understood clientLib (answerOf 404 (.obj [("error", .str "subscription_not_found")])) := by
    refine Or.inr ⟨by decide, fun body h => ?_⟩
    obtain rfl := Except.ok.inj h
    exact ⟨_, rfl, rfl, ⟨_, rfl⟩, _, rfl⟩
  exact ((request_sound_iff clientLib _ (by simp [answerOf])).2 hbody).1

/-- A redirect counts as success, and an error that is a list raises `AttributeError`, from `health` as well. -/
theorem request_not_sound :
    ¬ Sound (answerOf 302 (.obj [])) (request clientLib (answerOf 302 (.obj []))) ∧
      request clientLib (answerOf 502 (.arr [])) = .error (.other .attributeError) ∧
      health clientLib (answerOf 502 (.arr [])) = .error (.other .attributeError) := by
  refine ⟨fun h => ?_, rfl, rfl⟩
  obtain ⟨-, r, hr, -, hlt, -⟩ := h
  obtain rfl := HttpAnswer.response.inj hr
  exact absurd hlt (by decide)

end EventusSdk
