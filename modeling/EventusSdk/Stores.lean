import EventusSdk.Events
import EventusSdk.MemoryStorage

/-!
# The dedup store and the cursor store

Two facades over a `BaseStorage`, here the in-memory one: `IdempotencyStore` keeps the dedup keys that were seen,
`CursorStore` the last `seq` for each subscription and transport.
-/

namespace EventusSdk

/-! ### Dedup keys -/

/-- `IdempotencyStore` over an in-memory storage. -/
abbrev IdempotencyStore := MemoryStorage String Bool

namespace IdempotencyStore

def seen (store : IdempotencyStore) (key : String) (now : ℚ) : Bool × IdempotencyStore :=
  let (value, store) := MemoryStorage.get store key now
  (value.isSome, store)

def mark (store : IdempotencyStore) (key : String) (ttl : Option ℚ) (r : Readings) : IdempotencyStore :=
  MemoryStorage.set store key true ttl r

def markIfNew (store : IdempotencyStore) (key : String) (ttl : Option ℚ) (r : Readings) : Bool × IdempotencyStore :=
  MemoryStorage.setIfNotExists store key true ttl r

end IdempotencyStore

/-! ### Cursors -/

/-- `CursorStore` over an in-memory storage. -/
abbrev CursorStore := MemoryStorage String Int

namespace CursorStore

def key (subscriptionId : String) (transport : TransportKind) : String := subscriptionId ++ ":" ++ transport.value

def get (store : CursorStore) (subscriptionId : String) (transport : TransportKind) (now : ℚ) : Int × CursorStore :=
  let (value, store) := MemoryStorage.get store (key subscriptionId transport) now
  (value.getD 0, store)

def advance (store : CursorStore) (subscriptionId : String) (transport : TransportKind) (seq : Int) (r : Readings) :
    CursorStore :=
  let (current, store) := store.get subscriptionId transport r.check
  if seq > current then MemoryStorage.set store (key subscriptionId transport) seq none r else store

/-! ### The cursor that stands under a key -/

/-- From the reading `t` on, `c` is the cursor under the key. -/
def Stands (store : CursorStore) (t : ℚ) (key : String) (c : Int) : Prop :=
  ∃ m : TtlMap.Map String Int ℚ, Represents t store m ∧ ((m key = none ∧ c = 0) ∨ m key = some ⟨c, none⟩)

theorem stands_empty (t : ℚ) (key : String) : Stands MemoryStorage.empty t key 0 :=
  ⟨_, represents_empty t, Or.inl ⟨rfl, rfl⟩⟩

section
variable {store : CursorStore} {t : ℚ} {c : Int} {subscriptionId : String} {transport : TransportKind}

theorem Stands.get (h : Stands store t (key subscriptionId transport) c) {now : ℚ} (ht : t ≤ now) :
    (store.get subscriptionId transport now).1 = c ∧
      Stands (store.get subscriptionId transport now).2 now (key subscriptionId transport) c := by
  obtain ⟨m, hm, hc⟩ := h
  obtain ⟨hget, hrep⟩ := (hm.mono ht).get (key subscriptionId transport)
  refine ⟨?_, m, hrep, hc⟩
  show (MemoryStorage.get store (key subscriptionId transport) now).1.getD 0 = c
  rw [hget, TtlMap.get]
  rcases hc with ⟨hnone, rfl⟩ | hsome
  · rw [TtlMap.live_of_none hnone]
    rfl
  · rw [TtlMap.live_of_unexpired hsome rfl]
    rfl

theorem Stands.advance (h : Stands store t (key subscriptionId transport) c) {r : Readings} (ht : t ≤ r.check)
    (seq : Int) :
    Stands (store.advance subscriptionId transport seq r) r.sweep (key subscriptionId transport) (max c seq) := by
  obtain ⟨hget, m, hm, hc⟩ := h.get ht
  unfold CursorStore.advance
  simp only [hget]
  split
  · next hseq =>
    rw [max_eq_right (le_of_lt hseq)]
    exact ⟨_, hm.store le_rfl _ seq none, Or.inr (Function.update_self ..)⟩
  · next hseq =>
    rw [max_eq_left (not_lt.1 hseq)]
    exact ⟨m, hm.mono r.check_le_sweep, hc⟩

/-- A call that does not write under the key leaves its cursor. -/
theorem Stands.exec {key : String} (h : Stands store t key c) {r : Readings} (ht : t ≤ r.check)
    {op : StorageOp String Int} (hop : ¬ op.Writes key) :
    Stands (MemoryStorage.exec store r op).2 r.sweep key c := by
  obtain ⟨m, hm, hc⟩ := h
  refine ⟨_, (exec_represents hm ht op).2, ?_⟩
  rwa [refExec_of_not_writes hop]

end

end CursorStore

end EventusSdk
