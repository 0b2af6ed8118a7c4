/-!
# Channels read chunk by chunk

A decoder reads one chunk after another and yields a value now and then.  A framing says how items are written: as
chunks from which the decoder, at rest between two items, makes the value of the item and is at rest again.

Over a channel the chunks of items that were written and not read are under way, and may be read at any time.  Whatever
is cut off at its end, the values written are those that were received and those under way, in order (`Channel.Intact`).
-/

/-- How a chunk is read: the value it yields, if it does, and the state of the decoder then. -/
structure Decoder (δ κ ε α : Type) where
  start : δ
  read : δ → κ → Except ε (Option α × δ)

namespace Decoder

variable {δ κ ε α : Type} (d : Decoder δ κ ε α)

/-- The values that chunks yield, up to the first error, and the state they leave. -/
def decode : δ → List κ → List α × Except ε δ
  | s, [] => ([], .ok s)
  | s, x :: xs =>
    match d.read s x with
    | .ok r => (r.1.toList ++ (decode r.2 xs).1, (decode r.2 xs).2)
    | .error e => ([], .error e)

/-- A framing of items for the decoder. -/
structure Framing (ι : Type) where
  value : ι → Option α
  Writes : ι → List κ → Prop
  decoded : ∀ item xs, Writes item xs → d.decode d.start xs = ((value item).toList, .ok d.start)

section
variable {d} {s s' : δ} {x : κ} {xs ys : List κ} {as : List α}

theorem decode_read {r : Option α × δ} (h : d.read s x = .ok r) :
    d.decode s (x :: xs) = (r.1.toList ++ (d.decode r.2 xs).1, (d.decode r.2 xs).2) := by
  rw [decode, h]

theorem decode_read_error {e : ε} (h : d.read s x = .error e) : d.decode s (x :: xs) = ([], .error e) := by
  rw [decode, h]

private theorem decode_append (h : d.decode s xs = (as, .ok s')) :
    d.decode s (xs ++ ys) = (as ++ (d.decode s' ys).1, (d.decode s' ys).2) := by
  induction xs generalizing s as with
  | nil =>
    cases h
    rfl
  | cons x xs ih =>
    rw [List.cons_append]
    cases hread : d.read s x with
    | error e =>
      rw [decode_read_error hread] at h
      cases (Prod.mk.inj h).2
    | ok r =>
      rw [decode_read hread] at h ⊢
      obtain ⟨rfl, hend⟩ := Prod.mk.inj h
      rw [ih (Prod.ext rfl hend), List.append_assoc]

end

end Decoder

/-- The values written to a channel and those received from it, the state of the decoder, and the chunks under way. -/
structure Channel (δ κ α : Type) where
  written : List α
  received : List α
  state : δ
  ahead : List κ

namespace Channel

variable {δ κ ε α ι : Type} (d : Decoder δ κ ε α)

def start : Channel δ κ α := ⟨[], [], d.start, []⟩

/-- The values of the chunks under way. -/
def underway (c : Channel δ κ α) : List α := (d.decode c.state c.ahead).1

/-- An item is written, as these chunks. -/
def write {d : Decoder δ κ ε α} (framing : d.Framing ι) (c : Channel δ κ α) (item : ι) (xs : List κ) :
    Channel δ κ α :=
  { c with written := c.written ++ (framing.value item).toList, ahead := c.ahead ++ xs }

/-- A chunk has been read, and these are left. -/
def read (c : Channel δ κ α) (r : Option α × δ) (xs : List κ) : Channel δ κ α :=
  { c with received := c.received ++ r.1.toList, state := r.2, ahead := xs }

/-- The chunks under way are read without an error, and nothing is lost or made up. -/
def Intact (c : Channel δ κ α) : Prop :=
  (d.decode c.state c.ahead).2 = .ok d.start ∧ c.received ++ c.underway d = c.written

section
variable {d} {c : Channel δ κ α} {x : κ} {xs : List κ}

@[simp] theorem received_write (framing : d.Framing ι) (item : ι) :
    (c.write framing item xs).received = c.received := rfl

@[simp] theorem received_read (r : Option α × δ) : (c.read r xs).received = c.received ++ r.1.toList := rfl

theorem intact_start : (start d).Intact d := ⟨rfl, rfl⟩

private theorem Intact.decode (h : c.Intact d) :
    d.decode c.state c.ahead = (c.underway d, .ok d.start) := Prod.ext rfl h.1

private theorem Intact.write_decode {framing : d.Framing ι} {item : ι} (h : c.Intact d) (hxs : framing.Writes item xs) :
    d.decode c.state (c.ahead ++ xs) = (c.underway d ++ (framing.value item).toList, .ok d.start) := by
  rw [Decoder.decode_append h.decode, framing.decoded item xs hxs]

theorem Intact.underway_write {framing : d.Framing ι} {item : ι} (h : c.Intact d) (hxs : framing.Writes item xs) :
    (c.write framing item xs).underway d = c.underway d ++ (framing.value item).toList :=
  congrArg Prod.fst (h.write_decode hxs)

theorem Intact.write {framing : d.Framing ι} {item : ι} (h : c.Intact d) (hxs : framing.Writes item xs) :
    (c.write framing item xs).Intact d := by
  refine ⟨congrArg Prod.snd (h.write_decode hxs), ?_⟩
  show c.received ++ (c.write framing item xs).underway d = c.written ++ _
  rw [h.underway_write hxs, ← List.append_assoc, h.2]

variable (hahead : c.ahead = x :: xs)

include hahead

theorem underway_read {r : Option α × δ} (hread : d.read c.state x = .ok r) :
    c.underway d = r.1.toList ++ (c.read r xs).underway d := by
  rw [underway, hahead, Decoder.decode_read hread]
  rfl

theorem Intact.read {r : Option α × δ} (h : c.Intact d) (hread : d.read c.state x = .ok r) :
    (c.read r xs).Intact d := by
  refine ⟨?_, ?_⟩
  · have hend := h.1
    rwa [hahead, Decoder.decode_read hread] at hend
  · show c.received ++ r.1.toList ++ (c.read r xs).underway d = c.written
    rw [List.append_assoc, ← underway_read hahead hread, h.2]

/-- The next chunk is read without an error. -/
theorem Intact.reads (h : c.Intact d) : ∃ r, d.read c.state x = .ok r := by
  cases hread : d.read c.state x with
  | ok r => exact ⟨r, rfl⟩
  | error e =>
    have hend := h.1
    rw [hahead, Decoder.decode_read_error hread] at hend
    cases hend

end

end Channel
