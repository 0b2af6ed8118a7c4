import EventusSdk.Frames
import EventusSdk.Wire

/-!
# The WebSocket source, frame by frame

The chunks of `WSSource` are the frames of its socket, and `_decode_ws_frame` makes an event of each, or the exception
that ends the connection.  The server writes an event as a JSON object with the members of the envelope, in a text or a
binary frame, in whatever order and with whatever further members.
-/

namespace EventusSdk

open Transition

/-! ### One frame -/

/-- Every frame is an event, so that there is nothing to keep between two of them. -/
def wsDecoder (lib : StreamLib) : Decoder Unit WSFrame Exn ClientEvent where
  start := ()
  read := fun _ frame => (decodeWsFrame lib frame).map fun event => (some event, ())

/-- What the server has to say of an event. -/
structure WSEnvelope where
  seq : Int
  eventType : String
  data : List (String × Json)

namespace WSEnvelope

def event (env : WSEnvelope) : ClientEvent :=
  { seq := env.seq, eventType := env.eventType, data := env.data.map fun (k, v) => (.str k, v), transport := .ws }

/-- The frame is a JSON object with these members, and maybe others. -/
def Encodes (lib : StreamLib) (env : WSEnvelope) (frame : WSFrame) : Prop :=
  ∃ members, frame.loads lib = .ok (.obj members) ∧ members.lookup "seq" = some (.int env.seq) ∧
    members.lookup "event_type" = some (.str env.eventType) ∧ members.lookup "data" = some (.obj env.data)

private theorem Encodes.decoded {lib : StreamLib} {env : WSEnvelope} {frame : WSFrame} (h : env.Encodes lib frame) :
    decodeWsFrame lib frame = .ok env.event := by
  obtain ⟨members, hl, hseq, htype, hdata⟩ := h
  have hpayload : decodePayload lib .ws (.obj members) = .ok env.event := by
    refine except_bind_ok.2 ⟨_, getItem_eq_ok.2 ⟨members, rfl, hseq⟩, except_bind_ok.2 ⟨env.seq, rfl, ?_⟩⟩
    refine except_bind_ok.2 ⟨_, getItem_eq_ok.2 ⟨members, rfl, htype⟩, except_bind_ok.2 ⟨env.eventType, rfl, ?_⟩⟩
    exact except_bind_ok.2 ⟨_, getItem_eq_ok.2 ⟨members, rfl, hdata⟩, except_bind_ok.2 ⟨_, rfl, rfl⟩⟩
  rw [decodeWsFrame, hl]
  exact guarded_ok.2 hpayload

private theorem Encodes.read {lib : StreamLib} {env : WSEnvelope} {frame : WSFrame} (h : env.Encodes lib frame) :
    (wsDecoder lib).read () frame = .ok (some env.event, ()) := by
  show (decodeWsFrame lib frame).map _ = _
  rw [h.decoded]
  rfl

end WSEnvelope

/-- One frame for each event. -/
def wsFraming (lib : StreamLib) : (wsDecoder lib).Framing WSEnvelope where
  value := fun env => some env.event
  Writes := fun env frames => ∃ frame, frames = [frame] ∧ env.Encodes lib frame
  decoded := by
    rintro env _ ⟨frame, rfl, henc⟩
    exact Decoder.decode_read henc.read

/-- However the server spells the events of its log, and after whichever frame a connection ends:  every frame is
decoded, the events of a connection are those of the log behind its resume position, none left out, and nothing else is
fed;  and the cursor stays below the failed events if and only if no event succeeds behind a failed one that has not
succeeded since. -/
theorem ws_frames (lib : StreamLib) (src : WSSource) {log : List ClientEvent} {clock : ℚ}
    {path : List (WireLabel WSEnvelope × WireState Unit WSFrame)} (hlog : Log.Increasing ClientEvent.seq log)
    (hrun : Run (src.source.WireStep (wsFraming lib)) (.start log clock) path) :
    Always (WireState.Faithful (wsDecoder lib)) (.start log clock) path ∧
    (Always (fun s => src.source.CursorBelowFailed (s.events (wsDecoder lib))) (.start log clock) path ↔
      Meets ((wireSimulation src.source (wsFraming lib)).Cond NotOverFailed) (.start log clock) path) :=
  ⟨wire_faithful (wsFraming lib) src.source hlog hrun, wire_below_iff (wsFraming lib) src.source hlog hrun⟩

/-! ### A lot in a text frame -/

def lotFrameText : Text := "\x7b\"event_type\":\"new_lot\",\"seq\":7,\"data\":\x7b\x7d\x7d".toList

def lotFrameLib : StreamLib :=
  loadsOnly lotFrameText (.obj [("event_type", .str "new_lot"), ("seq", .int 7), ("data", .obj [])])

def lotEnvelope : WSEnvelope := ⟨7, "new_lot", []⟩

private theorem lotEnvelope_encodes : lotEnvelope.Encodes lotFrameLib (.text lotFrameText) :=
  ⟨_, loadsOnly_text .., rfl, rfl, rfl⟩

def sellerSocket : WSSource := { account := seller, baseUrl := "wss://engine" }

private theorem lot_frames :
    ∃ path, Run (sellerSocket.source.WireStep (wsFraming lotFrameLib)) (.start [lotEnvelope.event] 0) path ∧
      (last (WireState.start [lotEnvelope.event] 0) path).source.pc = .feeding lotEnvelope.event :=
  ⟨[(.event (.source .run), _), (.event (.source (.resumed _)), _), (.event (.source .connected), _),
    (.write lotEnvelope, _), (.event (.source (.yielded _)), _)],
    ⟨.aside trivial (.run (.run trivial)), .aside trivial (.resumed (le_refl 0) (.resumed _ rfl rfl)),
      .connected rfl (.connected rfl), .write rfl ⟨_, rfl, lotEnvelope_encodes⟩ ⟨[], rfl⟩,
      .yielded rfl rfl lotEnvelope_encodes.read (.yielded _ rfl), trivial⟩, rfl⟩

theorem ws_frames_lot :
    ∃ path, Run (sellerSocket.source.WireStep (wsFraming lotFrameLib)) (.start [lotEnvelope.event] 0) path ∧
      (last (WireState.start [lotEnvelope.event] 0) path).source.pc = .feeding lotEnvelope.event ∧
      Always (WireState.Faithful (wsDecoder lotFrameLib)) (.start [lotEnvelope.event] 0) path := by
  obtain ⟨path, hrun, hpc⟩ := lot_frames
  exact ⟨path, hrun, hpc, (ws_frames lotFrameLib sellerSocket (List.pairwise_singleton ..) hrun).1⟩

end EventusSdk
