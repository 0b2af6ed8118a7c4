import EventusSdk.Lib.Transition
import EventusSdk.Receiver

/-!
# Reading the body of a request

`_read_body` message by message: a step of the loop takes one message, and either goes on or returns.  The runs of the
loop on the messages of a request are what `readBody` computes, the chunks it retains never exceed the cap, and it
takes no message beyond the first that exceeds it.
-/

namespace EventusSdk

open Transition

/-- The messages of the request, as the server hands them over. -/
def Incoming.messages : Incoming → List Message
  | .last m _ => [m]
  | .more m _ rest => m :: rest.messages

/-- The bytes that the messages carry. -/
def bytesOf (messages : List Message) : Bytes := (messages.map Message.chunk).flatten

private theorem bytesOf_cons (m : Message) (messages : List Message) :
    bytesOf (m :: messages) = m.chunk ++ bytesOf messages :=
  List.flatten_cons

private theorem Incoming.bytesOf_messages (incoming : Incoming) : bytesOf incoming.messages = incoming.bytes := by
  induction incoming with
  | last m h => exact List.append_nil _
  | more m h rest ih => rw [messages, bytesOf_cons, ih, bytes]

/-! ### The loop -/

/-- The variables of the loop, and what it has returned. -/
structure BodyState where
  chunks : List Bytes := []
  total : ℕ := 0
  res : Option (Bytes × Bool) := none

def BodyState.start : BodyState := {}

/-- The body of the loop, once `receive` has come back. -/
def BodyState.receive (maxBytes : ℕ) (s : BodyState) (m : Message) : BodyState :=
  let total := s.total + m.chunk.length
  if total > maxBytes then { s with total, res := some ([], true) }
  else
    let chunks := s.chunks ++ [m.chunk]
    { chunks, total, res := if m.hasMore then none else some (chunks.flatten, false) }

inductive BodyStep (maxBytes : ℕ) : BodyState → Message → BodyState → Prop where
  | received {s : BodyState} {m : Message} (h : s.res = none) : BodyStep maxBytes s m (s.receive maxBytes m)

/-- The bytes that the loop holds on to. -/
def BodyState.retained (s : BodyState) : ℕ := s.chunks.flatten.length

/-- The messages that a run has taken. -/
def taken (path : List (Message × BodyState)) : List Message := path.map Prod.fst

variable {maxBytes : ℕ} {s t : BodyState} {m : Message}

private theorem BodyState.receive_over (h : maxBytes < s.total + m.chunk.length) :
    s.receive maxBytes m = { s with total := s.total + m.chunk.length, res := some ([], true) } := by
  rw [receive, if_pos h]

private theorem BodyState.receive_fits (h : s.total + m.chunk.length ≤ maxBytes) :
    s.receive maxBytes m = ⟨s.chunks ++ [m.chunk], s.total + m.chunk.length,
      if m.hasMore then none else some ((s.chunks ++ [m.chunk]).flatten, false)⟩ := by
  rw [receive, if_neg (by omega)]

private theorem BodyState.retained_append (chunks : List Bytes) (chunk : Bytes) (total : ℕ)
    (res : Option (Bytes × Bool)) :
    (⟨chunks ++ [chunk], total, res⟩ : BodyState).retained = chunks.flatten.length + chunk.length := by
  rw [retained, List.flatten_append, List.flatten_singleton, List.length_append]

/-- The counter is in step with the chunks as long as the loop goes on. -/
def BodyState.InStep (maxBytes : ℕ) (s : BodyState) : Prop :=
  s.retained ≤ maxBytes ∧ (s.res = none → s.retained = s.total)

private theorem BodyStep.inStep (hs : s.InStep maxBytes) (h : BodyStep maxBytes s m t) : t.InStep maxBytes := by
  obtain ⟨hle, htotal⟩ := hs
  cases h with
  | received hres =>
    by_cases hover : maxBytes < s.total + m.chunk.length
    · rw [BodyState.receive_over hover]
      exact ⟨hle, fun hnone => absurd hnone (by simp)⟩
    · have hfits : s.total + m.chunk.length ≤ maxBytes := by omega
      have hlength : s.chunks.flatten.length = s.total := htotal hres
      rw [BodyState.receive_fits hfits]
      refine ⟨?_, fun _ => ?_⟩
      · rw [BodyState.retained_append, hlength]
        exact hfits
      · rw [BodyState.retained_append, hlength]

private theorem bytesOf_singleton (m : Message) : bytesOf [m] = m.chunk := by
  rw [bytesOf_cons, bytesOf, List.map_nil, List.flatten_nil, List.append_nil]

/-- The loop goes on after a message only if what it has taken is within the cap. -/
private theorem BodyStep.goes_on (h : BodyStep maxBytes s m t) (ht : t.res = none) :
    t.total = s.total + m.chunk.length ∧ t.total ≤ maxBytes := by
  cases h with
  | received hres =>
    by_cases hover : maxBytes < s.total + m.chunk.length
    · rw [BodyState.receive_over hover] at ht
      cases ht
    · have hfits : s.total + m.chunk.length ≤ maxBytes := by omega
      rw [BodyState.receive_fits hfits]
      exact ⟨rfl, hfits⟩

private theorem Run.taken_fits {path : List (Message × BodyState)} (hs : s.total ≤ maxBytes)
    (h : Run (BodyStep maxBytes) s path) :
    ∀ k, k < path.length → s.total + (bytesOf ((taken path).take k)).length ≤ maxBytes := by
  induction path generalizing s with
  | nil =>
    intro k hk
    cases hk
  | cons x path ih =>
    intro k hk
    obtain ⟨m, t⟩ := x
    cases k with
    | zero => exact hs
    | succ k =>
      have hk' : k < path.length := Nat.lt_of_succ_lt_succ hk
      have hgoes : t.res = none := by
        rcases path with _ | ⟨⟨m', u⟩, path⟩
        · cases hk'
        · rcases h.2.1 with ⟨hres⟩
          exact hres
      obtain ⟨htotal, hfits⟩ := h.1.goes_on hgoes
      show s.total + (bytesOf (m :: (taken path).take k)).length ≤ maxBytes
      rw [bytesOf_cons, List.length_append, ← Nat.add_assoc, ← htotal]
      exact ih hfits h.2 k hk'

/-- The loop on the messages of a request comes to its end, with the answer of `readBody`; if they exceed the cap, so
do those that it has taken. -/
private theorem read_run (maxBytes : ℕ) (incoming : Incoming) (s : BodyState) (hres : s.res = none) :
    ∃ path, Run (BodyStep maxBytes) s path ∧ taken path <+: incoming.messages ∧
      (last s path).res = some (readBody maxBytes incoming s.chunks s.total) ∧
      (maxBytes < s.total + incoming.bytes.length → maxBytes < s.total + (bytesOf (taken path)).length) := by
  induction incoming generalizing s with
  | last m h =>
    refine ⟨[(m, s.receive maxBytes m)], ⟨.received hres, trivial⟩, List.prefix_refl _, ?_, fun hover => ?_⟩
    · show (s.receive maxBytes m).res = _
      by_cases hover : maxBytes < s.total + m.chunk.length
      · rw [BodyState.receive_over hover, readBody, if_pos hover]
      · rw [BodyState.receive_fits (by omega), readBody, if_neg hover, h]
        rfl
    · show maxBytes < s.total + (bytesOf [m]).length
      rw [bytesOf_singleton]
      exact hover
  | more m h rest ih =>
    by_cases hover : maxBytes < s.total + m.chunk.length
    · refine ⟨[(m, s.receive maxBytes m)], ⟨.received hres, trivial⟩, ⟨rest.messages, rfl⟩, ?_, fun _ => ?_⟩
      · show (s.receive maxBytes m).res = _
        rw [BodyState.receive_over hover, readBody, if_pos hover]
      · show maxBytes < s.total + (bytesOf [m]).length
        rw [bytesOf_singleton]
        exact hover
    · have ht := BodyState.receive_fits (Nat.le_of_not_lt hover)
      have hgoes : (s.receive maxBytes m).res = none := by rw [ht, h]; rfl
      have htotal : (s.receive maxBytes m).total = s.total + m.chunk.length := by rw [ht]
      have hchunks : (s.receive maxBytes m).chunks = s.chunks ++ [m.chunk] := by rw [ht]
      obtain ⟨path, hrun, hprefix, hlast, hafter⟩ := ih _ hgoes
      refine ⟨(m, s.receive maxBytes m) :: path, ⟨.received hres, hrun⟩, ?_, ?_, fun hlong => ?_⟩
      · exact (List.prefix_cons_inj m).2 hprefix
      · rw [readBody, if_neg hover, ← hchunks, ← htotal]
        exact hlast
      · rw [Incoming.bytes, List.length_append, ← Nat.add_assoc, ← htotal] at hlong
        show maxBytes < s.total + (bytesOf (m :: taken path)).length
        rw [bytesOf_cons, List.length_append, ← Nat.add_assoc, ← htotal]
        exact hafter hlong

/-! ### Chunkings -/

/-- What is read depends on the bytes alone: it is all of them unless they exceed the cap.  No run of the loop retains
more than the cap or takes a message beyond the first that exceeds it, and the loop ends with what is read. -/
theorem readBody_bounded (maxBytes : ℕ) (incoming : Incoming) :
    (readBody maxBytes incoming [] 0 = (bytesOf incoming.messages, false) ↔
        (bytesOf incoming.messages).length ≤ maxBytes) ∧
      (readBody maxBytes incoming [] 0 = ([], true) ↔ maxBytes < (bytesOf incoming.messages).length) ∧
      (∀ incoming' : Incoming, bytesOf incoming'.messages = bytesOf incoming.messages →
        readBody maxBytes incoming' [] 0 = readBody maxBytes incoming [] 0) ∧
      (∀ path, Run (BodyStep maxBytes) .start path → Always (fun s => s.retained ≤ maxBytes) .start path ∧
        ∀ k, k < path.length → (bytesOf ((taken path).take k)).length ≤ maxBytes) ∧
      ∃ path, Run (BodyStep maxBytes) .start path ∧ taken path <+: incoming.messages ∧
        (last .start path).res = some (readBody maxBytes incoming [] 0) ∧
        (maxBytes < (bytesOf incoming.messages).length → maxBytes < (bytesOf (taken path)).length) := by
  have hread : ∀ incoming : Incoming, readBody maxBytes incoming [] 0 =
      if (bytesOf incoming.messages).length ≤ maxBytes then (bytesOf incoming.messages, false) else ([], true) := by
    intro incoming
    rw [readBody_eq, Incoming.bytesOf_messages, Nat.zero_add, List.flatten_nil, List.nil_append]
  have hzero : ∀ n, BodyState.start.total + n = n := Nat.zero_add
  refine ⟨?_, ?_, fun incoming' heq => ?_, fun path hrun => ⟨?_, fun k hk => ?_⟩, ?_⟩
  · rw [hread]
    split <;> simp_all
  · rw [hread]
    split <;> simp_all
  · rw [hread, hread, heq]
  · have hstart : BodyState.InStep maxBytes .start := ⟨Nat.zero_le _, fun _ => rfl⟩
    have hall : Always (BodyState.InStep maxBytes) .start path :=
      hrun.always (fun _ _ _ hs hstep => hstep.inStep hs) hstart
    exact hall.mono fun _ hs => hs.1
  · have hfits := Run.taken_fits (Nat.zero_le _) hrun k hk
    rwa [hzero] at hfits
  · obtain ⟨path, hrun, hprefix, hlast, hafter⟩ := read_run maxBytes incoming .start rfl
    refine ⟨path, hrun, hprefix, hlast, fun hlong => ?_⟩
    rw [Incoming.bytesOf_messages] at hlong
    have hlong' := hafter (by rwa [hzero])
    rwa [hzero] at hlong'

/-- Two chunkings of one body are handled alike. -/
theorem WebhookReceiver.handle_chunking (receiver : WebhookReceiver) (scope : Scope) {incoming incoming' : Incoming}
    (h : incoming.bytes = incoming'.bytes) : receiver.handle scope incoming = receiver.handle scope incoming' := by
  rw [handle, handle, readBody_eq, readBody_eq, h]

end EventusSdk
