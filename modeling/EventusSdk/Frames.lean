import EventusSdk.StreamSource
import EventusSdk.Webhook

/-!
# The frames of the streams

`_decode_sse_frame` and `_decode_ws_frame` make a `ClientEvent` of the JSON text of a frame.  They convert `seq`,
`event_type` and `data` by `int()`, `str()` and `dict()`, as the webhook receiver does, and turn the exceptions they
expect into the protocol error after which the source connects again.

Two statements about them.  A frame escapes, and ends the stream with another exception, if `json.loads` raises
something else or `seq` is an infinite float.  And what is accepted is what the three conversions accept, which is more
than the envelope the server sends; a member that is of the type of the envelope comes out unchanged.
-/

namespace EventusSdk

/-- A `str`. -/
abbrev Text := List Char

/-- `json.loads` on a `str` besides. -/
structure StreamLib extends Stdlib where
  loadsText : Text → Except Exn Json

/-! ### The decoders -/

/-- A WebSocket frame. -/
inductive WSFrame where
  | text (raw : Text)
  | binary (raw : Bytes)

def WSFrame.loads (lib : StreamLib) : WSFrame → Except Exn Json
  | .text raw => lib.loadsText raw
  | .binary raw => lib.loads raw

/-- The `ClientEvent` of a decoded frame. -/
def decodePayload (lib : StreamLib) (transport : TransportKind) (payload : Json) : Except Exn ClientEvent := do
  let seq ← (← payload.getItem "seq").toInt
  let eventType ← (← payload.getItem "event_type").toStr lib.toStdlib
  let data ← (← payload.getItem "data").toDict
  return { seq, eventType, data, transport }

/-- `except (json.JSONDecodeError, KeyError, TypeError, ValueError)`. -/
def guarded {α : Type} (protocolError : Exn) (x : Except Exn α) : Except Exn α :=
  match x with
  | .ok a => .ok a
  | .error exc => if exc.isMalformed then .error protocolError else .error exc

def decodeSseFrame (lib : StreamLib) (raw : Text) : Except Exn ClientEvent :=
  guarded .sseProtocolError (lib.loadsText raw >>= decodePayload lib .sse)

def decodeWsFrame (lib : StreamLib) (frame : WSFrame) : Except Exn ClientEvent :=
  guarded .wsProtocolError (frame.loads lib >>= decodePayload lib .ws)

/-! ### Frames that escape -/

/-- What `json.loads` makes of a frame that its decoder does not turn into the protocol error: an exception of another
class, or an infinite `seq`. -/
def Escapes (protocolError : Exn) (loaded : Except Exn Json) : Prop :=
  (∃ e, loaded = .error e ∧ e.isMalformed = false ∧ e ≠ protocolError) ∨
    ∃ payload, loaded = .ok payload ∧ InfiniteSeq payload

/-- Whatever the decoder raises while the source reads, the source pauses and connects again. -/
def StreamSource.Reconnects (src : StreamSource) (decoded : Except Exn ClientEvent) : Prop :=
  ∀ e, decoded = .error e → ∀ (s t : StreamState) (jitter : ℚ), s.pc = .reading →
    src.Step s (.disconnected (some e) jitter) t → t = s.pause jitter

section
variable {lib : StreamLib} {transport : TransportKind} {payload : Json} {protocolError e : Exn}

theorem guarded_ok {α : Type} {x : Except Exn α} {a : α} : guarded protocolError x = .ok a ↔ x = .ok a := by
  cases x with
  | ok b => simp [guarded]
  | error e => cases h : e.isMalformed <;> simp [guarded, h]

private theorem guarded_error {α : Type} {x : Except Exn α} :
    (∀ e, guarded protocolError x = .error e → e = protocolError) ↔
      ∀ e, x = .error e → e.isMalformed = true ∨ e = protocolError := by
  cases x with
  | ok a => simp [guarded]
  | error e => cases h : e.isMalformed <;> simp [guarded, h]

private theorem decodePayload_error (h : decodePayload lib transport payload = .error e) :
    e.isMalformed = true ∨ (e = .overflowError ∧ InfiniteSeq payload) := by
  rcases except_bind_error.1 h with h | ⟨v, hv, h⟩
  · exact Or.inl (Json.getItem_error h)
  rcases except_bind_error.1 h with h | ⟨seq, -, h⟩
  · rcases Json.toInt_error h with h | ⟨rfl, rfl | rfl⟩
    · exact Or.inl h
    · exact Or.inr ⟨rfl, Or.inl hv⟩
    · exact Or.inr ⟨rfl, Or.inr hv⟩
  rcases except_bind_error.1 h with h | ⟨v, -, h⟩
  · exact Or.inl (Json.getItem_error h)
  rcases except_bind_error.1 h with h | ⟨eventType, -, h⟩
  · exact Or.inl (Json.toStr_error h)
  rcases except_bind_error.1 h with h | ⟨v, -, h⟩
  · exact Or.inl (Json.getItem_error h)
  rcases except_bind_error.1 h with h | ⟨data, -, h⟩
  · exact Or.inl (Json.toDict_error h)
  · cases h

private theorem decodePayload_infinite (h : InfiniteSeq payload) :
    decodePayload lib transport payload = .error .overflowError := by
  rcases h with h | h <;> simp only [decodePayload, h] <;> rfl

/-- A decoder raises nothing but its protocol error if and only if the frame does not escape. -/
private theorem decode_error_iff {loaded : Except Exn Json} (ho : protocolError ≠ .overflowError) :
    (∀ e, guarded protocolError (loaded >>= decodePayload lib transport) = .error e → e = protocolError) ↔
      ¬ Escapes protocolError loaded := by
  rw [guarded_error]
  constructor
  · rintro hall (⟨e, rfl, hm, hne⟩ | ⟨payload, rfl, hinf⟩)
    · rcases hall e rfl with h | h
      · rw [hm] at h
        cases h
      · exact hne h
    · rcases hall .overflowError (decodePayload_infinite hinf) with h | h
      · cases h
      · exact ho h.symm
  · intro hesc e h
    rcases except_bind_error.1 h with h | ⟨payload, hl, h⟩
    · by_contra hne
      rw [not_or, Bool.not_eq_true] at hne
      exact hesc (Or.inl ⟨e, h, hne⟩)
    · rcases decodePayload_error h with h | ⟨-, hinf⟩
      · exact Or.inl h
      · exact absurd (Or.inr ⟨payload, hl, hinf⟩) hesc

/-- After an exception behind which it connects again, a source pauses. -/
private theorem reconnects_of_error {src : StreamSource} {decoded : Except Exn ClientEvent}
    (hr : src.reconnects protocolError = true) (h : ∀ e, decoded = .error e → e = protocolError) :
    src.Reconnects decoded := by
  intro e he s t jitter hpc hstep
  obtain rfl := h e he
  cases hstep with
  | lost => rfl
  | failed _ hnot =>
    rw [hr] at hnot
    cases hnot

end

/-- A frame is turned into an event or into the protocol error, after which the source connects again, if and only if
it does not escape. -/
theorem frame_error_iff (lib : StreamLib) (sse : SSESource) (ws : WSSource) (raw : Text) (frame : WSFrame) :
    (((∀ e, decodeSseFrame lib raw = .error e → e = .sseProtocolError) ∧
        sse.source.Reconnects (decodeSseFrame lib raw)) ↔ ¬ Escapes .sseProtocolError (lib.loadsText raw)) ∧
    (((∀ e, decodeWsFrame lib frame = .error e → e = .wsProtocolError) ∧
        ws.source.Reconnects (decodeWsFrame lib frame)) ↔ ¬ Escapes .wsProtocolError (frame.loads lib)) := by
  constructor
  · have hiff : (∀ e, decodeSseFrame lib raw = .error e → e = .sseProtocolError) ↔ _ := decode_error_iff (by decide)
    rw [← hiff]
    exact ⟨fun h => h.1, fun h => ⟨h, reconnects_of_error rfl h⟩⟩
  · have hiff : (∀ e, decodeWsFrame lib frame = .error e → e = .wsProtocolError) ↔ _ := decode_error_iff (by decide)
    rw [← hiff]
    exact ⟨fun h => h.1, fun h => ⟨h, reconnects_of_error rfl h⟩⟩

/-! ### What is accepted -/

/-- The envelope the server sends. -/
def Envelope (v : Json) : Prop :=
  ∃ members n s data, v = .obj members ∧ members.lookup "seq" = some (.int n) ∧
    members.lookup "event_type" = some (.str s) ∧ members.lookup "data" = some (.obj data)

/-- An object with the three members of the envelope, each of which can be converted. -/
def AcceptedFrame (lib : Stdlib) (v : Json) : Prop :=
  ∃ members seq eventType data, v = .obj members ∧ members.lookup "seq" = some seq ∧
    members.lookup "event_type" = some eventType ∧ members.lookup "data" = some data ∧
    seq.IntLike ∧ eventType.StrLike lib ∧ data.DictLike

/-- An object with a `seq` that can be converted, and `data`, if there, as well. -/
def AcceptedBody (v : Json) : Prop :=
  ∃ members seq, v = .obj members ∧ members.lookup "seq" = some seq ∧ seq.IntLike ∧
    ((members.lookup "data").getD (.obj [])).DictLike

/-- The members of `v` that are of the type of the envelope are those of the event. -/
structure Unchanged (event : ClientEvent) (v : Json) : Prop where
  seq : ∀ n, v.getItem "seq" = .ok (.int n) → event.seq = n
  data : ∀ members, v.getItem "data" = .ok (.obj members) → event.data = members.map fun (k, w) => (.str k, w)

/-- The event has the members of the frame, converted. -/
def ClientEvent.FromFrame (lib : Stdlib) (event : ClientEvent) (v : Json) : Prop :=
  event.FromBody v ∧ ∃ w, v.getItem "event_type" = .ok w ∧ w.toStr lib = .ok event.eventType

section
variable {lib : StreamLib} {transport : TransportKind} {event : ClientEvent} {v : Json}

theorem getItem_eq_ok {name : String} {w : Json} :
    v.getItem name = .ok w ↔ ∃ members, v = .obj members ∧ members.lookup name = some w := by
  cases v with
  | obj members => cases h : members.lookup name <;> simp [Json.getItem, h]
  | _ => simp [Json.getItem]

private theorem Envelope.accepted {lib : Stdlib} (h : Envelope v) : AcceptedFrame lib v := by
  obtain ⟨members, n, s, data, rfl, hseq, htype, hdata⟩ := h
  exact ⟨members, _, _, _, rfl, hseq, htype, hdata, trivial, trivial, trivial⟩

/-- The payload is decoded exactly when its members can be converted. -/
private theorem decodePayload_ok :
    (∃ event, decodePayload lib transport v = .ok event) ↔ AcceptedFrame lib.toStdlib v := by
  constructor
  · rintro ⟨event, h⟩
    obtain ⟨seq, hseq, h⟩ := except_bind_ok.1 h
    obtain ⟨n, hn, h⟩ := except_bind_ok.1 h
    obtain ⟨eventType, htype, h⟩ := except_bind_ok.1 h
    obtain ⟨s, hs, h⟩ := except_bind_ok.1 h
    obtain ⟨data, hdata, h⟩ := except_bind_ok.1 h
    obtain ⟨d, hd, -⟩ := except_bind_ok.1 h
    obtain ⟨members, rfl, hseq'⟩ := getItem_eq_ok.1 hseq
    obtain ⟨_, hm, htype⟩ := getItem_eq_ok.1 htype
    obtain rfl := Json.obj.inj hm
    obtain ⟨_, hm, hdata⟩ := getItem_eq_ok.1 hdata
    obtain rfl := Json.obj.inj hm
    exact ⟨members, seq, eventType, data, rfl, hseq', htype, hdata, Json.toInt_ok.1 ⟨n, hn⟩, Json.toStr_ok.1 ⟨s, hs⟩,
      Json.toDict_ok.1 ⟨d, hd⟩⟩
  · rintro ⟨members, seq, eventType, data, rfl, hseq, htype, hdata, hint, hstr, hdict⟩
    obtain ⟨n, hn⟩ := Json.toInt_ok.2 hint
    obtain ⟨s, hs⟩ := Json.toStr_ok.2 hstr
    obtain ⟨d, hd⟩ := Json.toDict_ok.2 hdict
    refine ⟨⟨n, s, d, transport, none, none⟩, ?_⟩
    refine except_bind_ok.2 ⟨seq, getItem_eq_ok.2 ⟨_, rfl, hseq⟩, except_bind_ok.2 ⟨n, hn, ?_⟩⟩
    refine except_bind_ok.2 ⟨eventType, getItem_eq_ok.2 ⟨_, rfl, htype⟩, except_bind_ok.2 ⟨s, hs, ?_⟩⟩
    exact except_bind_ok.2 ⟨data, getItem_eq_ok.2 ⟨_, rfl, hdata⟩, except_bind_ok.2 ⟨d, hd, rfl⟩⟩

private theorem decodePayload_fromFrame (h : decodePayload lib transport v = .ok event) :
    event.FromFrame lib.toStdlib v := by
  obtain ⟨seq, hseq, h⟩ := except_bind_ok.1 h
  obtain ⟨n, hn, h⟩ := except_bind_ok.1 h
  obtain ⟨eventType, htype, h⟩ := except_bind_ok.1 h
  obtain ⟨s, hs, h⟩ := except_bind_ok.1 h
  obtain ⟨data, hdata, h⟩ := except_bind_ok.1 h
  obtain ⟨d, hd, h⟩ := except_bind_ok.1 h
  cases h
  obtain ⟨members, rfl, hmem⟩ := getItem_eq_ok.1 hdata
  exact ⟨⟨⟨seq, hseq, hn⟩, data, by rw [Json.get, hmem]; rfl, hd⟩, eventType, htype, hs⟩

/-- An event with converted members has those of the envelope's types unchanged. -/
private theorem ClientEvent.FromBody.unchanged (h : event.FromBody v) : Unchanged event v := by
  obtain ⟨⟨seq, hseq, hn⟩, data, hdata, hd⟩ := h
  constructor
  · intro n h
    rw [hseq] at h
    obtain rfl := Except.ok.inj h
    exact (Except.ok.inj hn).symm
  · intro members h
    obtain ⟨all, rfl, hmem⟩ := getItem_eq_ok.1 h
    rw [Json.get, hmem] at hdata
    obtain rfl := Except.ok.inj hdata
    exact (Except.ok.inj hd).symm

section
variable (receiver : WebhookReceiver) {scope : Scope} {eventType : String}
  (hheader : scope.header eventTypeHeader = some eventType) (hne : eventType ≠ "")

include hheader hne

private theorem eventType_of_header : receiver.eventType scope v = .ok eventType := by
  simp [WebhookReceiver.eventType, hheader, Option.filter, hne]

private theorem makeEvent_eventType (hmade : receiver.makeEvent scope v = .ok event) : event.eventType = eventType := by
  obtain ⟨seq, -, h⟩ := except_bind_ok.1 hmade
  obtain ⟨n, -, h⟩ := except_bind_ok.1 h
  obtain ⟨s, hs, h⟩ := except_bind_ok.1 h
  obtain ⟨data, -, h⟩ := except_bind_ok.1 h
  obtain ⟨d, -, h⟩ := except_bind_ok.1 h
  rw [eventType_of_header receiver hheader hne] at hs
  cases h
  exact (Except.ok.inj hs).symm

private theorem makeEvent_ok : (∃ event, receiver.makeEvent scope v = .ok event) ↔ AcceptedBody v := by
  have htype := eventType_of_header (v := v) receiver hheader hne
  constructor
  · rintro ⟨event, h⟩
    obtain ⟨seq, hseq, h⟩ := except_bind_ok.1 h
    obtain ⟨n, hn, h⟩ := except_bind_ok.1 h
    obtain ⟨s, hs, h⟩ := except_bind_ok.1 h
    obtain ⟨data, hdata, h⟩ := except_bind_ok.1 h
    obtain ⟨d, hd, -⟩ := except_bind_ok.1 h
    obtain ⟨members, rfl, hseq'⟩ := getItem_eq_ok.1 hseq
    obtain rfl := Except.ok.inj hdata
    exact ⟨members, seq, rfl, hseq', Json.toInt_ok.1 ⟨n, hn⟩, Json.toDict_ok.1 ⟨d, hd⟩⟩
  · rintro ⟨members, seq, rfl, hseq, hint, hdict⟩
    obtain ⟨n, hn⟩ := Json.toInt_ok.2 hint
    obtain ⟨d, hd⟩ := Json.toDict_ok.2 hdict
    refine ⟨⟨n, eventType, d, .webhook, scope.header eventIdHeader, scope.header idempotencyHeader⟩, ?_⟩
    refine except_bind_ok.2 ⟨seq, getItem_eq_ok.2 ⟨_, rfl, hseq⟩, except_bind_ok.2 ⟨n, hn, ?_⟩⟩
    refine except_bind_ok.2 ⟨eventType, htype, except_bind_ok.2 ⟨_, rfl, ?_⟩⟩
    exact except_bind_ok.2 ⟨d, hd, rfl⟩

end

/-- What a stream decoder says of a frame that is the JSON value `v`. -/
structure DecodesEnvelope (lib : Stdlib) (v : Json) (decoded : Except Exn ClientEvent) : Prop where
  accepts : (∃ event, decoded = .ok event) ↔ AcceptedFrame lib v
  envelope : Envelope v → ∃ event, decoded = .ok event
  converted : ∀ event, decoded = .ok event → event.FromFrame lib v ∧ Unchanged event v ∧
    ∀ s, v.getItem "event_type" = .ok (.str s) → event.eventType = s

private theorem decodesEnvelope (protocolError : Exn) :
    DecodesEnvelope lib.toStdlib v (guarded protocolError (.ok v >>= decodePayload lib transport)) where
  accepts := by
    simp only [guarded_ok]
    exact decodePayload_ok
  envelope := by
    intro h
    obtain ⟨event, he⟩ := decodePayload_ok.2 h.accepted
    exact ⟨event, guarded_ok.2 he⟩
  converted := by
    intro event h
    have hfrom : event.FromFrame lib.toStdlib v := decodePayload_fromFrame (guarded_ok.1 h)
    refine ⟨hfrom, hfrom.1.unchanged, fun s hs => ?_⟩
    obtain ⟨w, hw, htype⟩ := hfrom.2
    rw [hs] at hw
    obtain rfl := Except.ok.inj hw
    exact (Except.ok.inj htype).symm

end

/-- Which JSON values become events: an object whose `seq`, `event_type` and `data` can be converted, for the streams;
one whose `seq` can be converted, and `data` if it is there, for an authentic webhook with an event type in its header.
The members of the event are the converted ones, and those of the envelope's types are unchanged. -/
theorem envelope_accepted (lib : StreamLib) (v : Json) :
    (∀ raw, lib.loadsText raw = .ok v → DecodesEnvelope lib.toStdlib v (decodeSseFrame lib raw)) ∧
    (∀ frame : WSFrame, frame.loads lib = .ok v → DecodesEnvelope lib.toStdlib v (decodeWsFrame lib frame)) ∧
    ∀ (receiver : WebhookReceiver) (scope : Scope) (incoming : Incoming) (t : List HookCall) (res : Except Exn Unit)
      (secrets : String → Option String) (accounts : String → Option AccountContext) (id secret eventType : String)
      (account : AccountContext), scope.type = "http" → (receiver.call scope incoming).Runs t res →
      Resolved secrets accounts t → Authentic receiver scope incoming id secret → secrets id = some secret →
      accounts id = some account → scope.header eventTypeHeader = some eventType → eventType ≠ "" →
      receiver.lib.loads incoming.bytes = .ok v →
      (feeds t ≠ [] ↔ AcceptedBody v) ∧
        ∀ fed ∈ feeds t, fed.1.FromBody v ∧ Unchanged fed.1 v ∧ fed.1.eventType = eventType := by
  refine ⟨fun raw h => ?_, fun frame h => ?_, ?_⟩
  · rw [decodeSseFrame, h]
    exact decodesEnvelope _
  · rw [decodeWsFrame, h]
    exact decodesEnvelope _
  · intro receiver scope incoming t res secrets accounts id secret eventType account htype hrun hres ha hsecret haccount
      hheader hne hl
    rw [← makeEvent_ok receiver hheader hne]
    have hfed : ∀ fed ∈ feeds t, receiver.makeEvent scope v = .ok fed.1 := by
      intro fed hm
      obtain ⟨_, _, body, -, -, -, hl', hmade⟩ := call_fed_event hrun hm
      rwa [Except.ok.inj (hl.symm.trans hl')]
    refine ⟨⟨fun hne => ?_, ?_⟩, fun fed hm => ?_⟩
    · obtain ⟨fed, hm⟩ := List.exists_mem_of_ne_nil _ hne
      exact ⟨fed.1, hfed fed hm⟩
    · rintro ⟨event, hmade⟩
      obtain ⟨x, hm⟩ := call_feeds_made htype hrun hres ha hsecret haccount hl hmade
      exact List.ne_nil_of_mem hm
    · have hbody := makeEvent_fromBody (hfed fed hm)
      exact ⟨hbody, hbody.unchanged, makeEvent_eventType receiver hheader hne (hfed fed hm)⟩

/-! ### Frames that are no envelope -/

/-- A `json.loads` that knows one text. -/
def loadsOnly (text : Text) (v : Json) : StreamLib :=
  { lotLib with loadsText := fun raw => if raw = text then .ok v else .error .jsonDecodeError }

theorem loadsOnly_text (text : Text) (v : Json) : (loadsOnly text v).loadsText text = .ok v := if_pos rfl

/-- A boolean `seq`, a null `event_type` and a list as `data`. -/
def oddText : Text := "\x7b\"seq\":true,\"event_type\":null,\"data\":[]\x7d".toList

def oddValue : Json := .obj [("seq", .bool true), ("event_type", .null), ("data", .arr [])]

def hugeText : Text := "\x7b\"seq\":1e999,\"event_type\":\"new_lot\",\"data\":\x7b\x7d\x7d".toList

def hugeValue : Json := .obj [("seq", .float .infinity), ("event_type", .str "new_lot"), ("data", .obj [])]

/-- It is no envelope, and becomes an event. -/
theorem not_envelope_accepted :
    (loadsOnly oddText oddValue).loadsText oddText = .ok oddValue ∧ ¬ Envelope oddValue ∧
      decodeSseFrame (loadsOnly oddText oddValue) oddText = .ok ⟨1, "None", [], .sse, none, none⟩ := by
  refine ⟨loadsOnly_text .., ?_, rfl⟩
  rintro ⟨members, n, s, data, hm, hseq, -, -⟩
  obtain rfl := Json.obj.inj hm
  cases hseq

/-- A `seq` beyond the floats raises `OverflowError`, which ends the stream. -/
theorem frame_escapes :
    decodeSseFrame (loadsOnly hugeText hugeValue) hugeText = .error .overflowError ∧
      decodeWsFrame (loadsOnly hugeText hugeValue) (.text hugeText) = .error .overflowError ∧
      ∃ t, (SSESource.source { account := seller }).Step { pc := .reading } (.disconnected (some .overflowError) 0) t ∧
        t.pc = .ended (.error .overflowError) :=
  ⟨rfl, rfl, _, .failed trivial rfl, rfl⟩

/-- The scope of the lot, with its event type in the header. -/
def typedScope : Scope :=
  ⟨"http", some "/hook/sub-1",
    some [(encode "x-lzt-signature", lotSignature), (encode "x-lzt-event-type", encode "new_lot")]⟩

private theorem runs_typedScope : (lotReceiver.call typedScope lotIncoming).Runs lotCalls (.ok ()) :=
  ⟨_, _, rfl, _, _, rfl, _, _, rfl, _, _, rfl, _, _, rfl, rfl, rfl⟩

theorem envelope_accepted_lot :
    (∃ event, decodeSseFrame (loadsOnly oddText oddValue) oddText = .ok event) ∧
      AcceptedBody (.obj [("seq", .int 7), ("event_type", .str "new_lot")]) := by
  obtain ⟨hsse, -, -⟩ := envelope_accepted (loadsOnly oddText oddValue) oddValue
  obtain ⟨-, -, hhook⟩ := envelope_accepted (loadsOnly oddText oddValue)
    (.obj [("seq", .int 7), ("event_type", .str "new_lot")])
  constructor
  · refine (hsse oddText (loadsOnly_text ..)).accepts.2 ?_
    exact ⟨_, _, _, _, rfl, rfl, rfl, rfl, trivial, trivial, by simp [Json.DictLike]⟩
  · refine (hhook lotReceiver typedScope lotIncoming lotCalls _ _ _ "sub-1" "whsec" "new_lot" seller rfl runs_typedScope
      resolved_lotCalls ⟨rfl, by decide, rfl⟩ rfl rfl rfl (by decide) rfl).1.1 ?_
    exact List.cons_ne_nil _ _

end EventusSdk
