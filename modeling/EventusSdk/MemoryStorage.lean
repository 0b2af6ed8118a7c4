import Mathlib.Algebra.Order.Ring.Rat
import EventusSdk.Lib.Dict
import EventusSdk.Lib.TtlMap

/-!
# The in-memory storage

`MemoryStorage` is the dict-backed default of the storage seam: entries with a time to live are dropped lazily by
`get` and by a sweep every `sweepInterval` writes.  Every operation reads the monotonic clock itself, up to three
times and at different moments; `Readings` are the readings one call may take, in order.

The storage refines a map that never drops anything (`TtlMap`): `Represents` relates the two, `exec_represents` is
the simulation step for one call, and `memoryStorage_refines` compares the answers over whole histories.
-/

namespace EventusSdk

/-- `_Entry`: a stored value and `expires_at`. -/
abbrev Entry (V : Type) := TtlMap.Entry V ℚ

/-- `_SWEEP_INTERVAL`. -/
def sweepInterval : ℕ := 500

/-- The readings of `time.monotonic()` one call of a storage operation may take: judging an entry, dating a write,
sweeping.  A call that skips one of them simply ignores it. -/
structure Readings where
  check : ℚ
  write : ℚ
  sweep : ℚ
  check_le_write : check ≤ write
  write_le_sweep : write ≤ sweep
deriving DecidableEq

theorem Readings.check_le_sweep (r : Readings) : r.check ≤ r.sweep :=
  le_trans r.check_le_write r.write_le_sweep

/-- All three readings at one instant. -/
def Readings.at (t : ℚ) : Readings := ⟨t, t, t, le_refl t, le_refl t⟩

structure MemoryStorage (K V : Type) where
  data : Dict K (Entry V)
  writes : ℕ

/-- `entry.expires_at is None or entry.expires_at >= now`, the test of `set_if_not_exists`. -/
def Entry.unexpired {V : Type} (now : ℚ) (entry : Entry V) : Bool :=
  match entry.expiresAt with
  | none => true
  | some x => decide (x ≥ now)

private theorem Entry.unexpired_eq {V : Type} (now : ℚ) (entry : Entry V) :
    Entry.unexpired now entry = !entry.expired now := by
  unfold Entry.unexpired TtlMap.Entry.expired
  cases entry.expiresAt with
  | none => rfl
  | some x => simp [← not_lt]

/-- `time.monotonic() + ttl if ttl is not None else None`. -/
def expiresAt (ttl : Option ℚ) (now : ℚ) : Option ℚ := ttl.map (now + ·)

namespace MemoryStorage

variable {K V : Type} [DecidableEq K]

def empty : MemoryStorage K V := ⟨∅, 0⟩

def get (s : MemoryStorage K V) (key : K) (now : ℚ) : Option V × MemoryStorage K V :=
  match s.data.lookup key with
  | none => (none, s)
  | some entry =>
    if entry.expired now then (none, { s with data := s.data.erase key })
    else (some entry.value, s)

/-- `_maybe_sweep`: count the write, and at every `sweepInterval`-th drop what has expired. -/
def maybeSweep (s : MemoryStorage K V) (now : ℚ) : MemoryStorage K V :=
  let writes := s.writes + 1
  if writes % sweepInterval ≠ 0 then { s with writes := writes }
  else ⟨s.data.keep fun entry => !entry.expired now, writes⟩

/-- The write both `set` and `set_if_not_exists` end in. -/
def store (s : MemoryStorage K V) (key : K) (value : V) (ttl : Option ℚ) (r : Readings) : MemoryStorage K V :=
  maybeSweep { s with data := s.data.insert key ⟨value, expiresAt ttl r.write⟩ } r.sweep

def set (s : MemoryStorage K V) (key : K) (value : V) (ttl : Option ℚ) (r : Readings) : MemoryStorage K V :=
  s.store key value ttl r

def setIfNotExists (s : MemoryStorage K V) (key : K) (value : V) (ttl : Option ℚ) (r : Readings) :
    Bool × MemoryStorage K V :=
  match s.data.lookup key with
  | none => (true, s.store key value ttl r)
  | some entry =>
    if Entry.unexpired r.check entry then (false, s)
    else (true, s.store key value ttl r)

def delete (s : MemoryStorage K V) (key : K) : MemoryStorage K V := { s with data := s.data.erase key }

end MemoryStorage

/-! ### Histories of calls -/

/-- A call of one of the `BaseStorage` operations. -/
inductive StorageOp (K V : Type) where
  | get (key : K)
  | set (key : K) (value : V) (ttl : Option ℚ)
  | setIfNotExists (key : K) (value : V) (ttl : Option ℚ)
  | delete (key : K)

/-- The call may write under the key. -/
def StorageOp.Writes {K V : Type} (key : K) : StorageOp K V → Prop
  | .get _ => False
  | .set k _ _ | .setIfNotExists k _ _ | .delete k => k = key

inductive StorageAnswer (V : Type) where
  | value (v : Option V)
  | flag (b : Bool)
  | none
deriving DecidableEq

section
variable {K V : Type} [DecidableEq K]

def MemoryStorage.exec (s : MemoryStorage K V) (r : Readings) :
    StorageOp K V → StorageAnswer V × MemoryStorage K V
  | .get key => let (v, s') := s.get key r.check; (.value v, s')
  | .set key value ttl => (.none, s.set key value ttl r)
  | .setIfNotExists key value ttl => let (b, s') := s.setIfNotExists key value ttl r; (.flag b, s')
  | .delete key => (.none, s.delete key)

/-- The answers to a history of calls. -/
def MemoryStorage.answers (s : MemoryStorage K V) : List (StorageOp K V × Readings) → List (StorageAnswer V)
  | [] => []
  | (op, r) :: history => (s.exec r op).1 :: (s.exec r op).2.answers history

/-- The clock does not go back between the calls of the history. -/
def Chronological (history : List (StorageOp K V × Readings)) : Prop :=
  history.Pairwise fun x y => x.2.sweep ≤ y.2.check

/-- The same call on the reference map. -/
def refExec (m : TtlMap.Map K V ℚ) (r : Readings) : StorageOp K V → StorageAnswer V × TtlMap.Map K V ℚ
  | .get key => (.value (TtlMap.get m r.check key), m)
  | .set key value ttl => (.none, TtlMap.put m key ⟨value, expiresAt ttl r.write⟩)
  | .setIfNotExists key value ttl =>
    let (b, m') := TtlMap.putIfAbsent m r.check key ⟨value, expiresAt ttl r.write⟩
    (.flag b, m')
  | .delete key => (.none, TtlMap.remove m key)

def refAnswers (m : TtlMap.Map K V ℚ) : List (StorageOp K V × Readings) → List (StorageAnswer V)
  | [] => []
  | (op, r) :: history => (refExec m r op).1 :: refAnswers (refExec m r op).2 history

/-- Under the keys a call does not write, the reference map stays. -/
theorem refExec_of_not_writes {m : TtlMap.Map K V ℚ} {r : Readings} {op : StorageOp K V} {key : K}
    (h : ¬ op.Writes key) : (refExec m r op).2 key = m key := by
  cases op with
  | get k => rfl
  | set k value ttl => exact TtlMap.put_other (Ne.symm h)
  | setIfNotExists k value ttl => exact TtlMap.putIfAbsent_other (Ne.symm h)
  | delete k => exact TtlMap.remove_other (Ne.symm h)

/-! ### The simulation -/

/-- What the storage holds under each key, expired or not. -/
def MemoryStorage.entries (s : MemoryStorage K V) : TtlMap.Map K V ℚ := fun k => s.data.lookup k

private theorem lookup_data (s : MemoryStorage K V) (k : K) : s.data.lookup k = s.entries k := rfl

private theorem entries_insert (data : Dict K (Entry V)) (writes : ℕ) (key : K) (e : Entry V) :
    MemoryStorage.entries ⟨data.insert key e, writes⟩ = TtlMap.put (MemoryStorage.entries ⟨data, writes⟩) key e :=
  funext fun k => Dict.lookup_insert_eq data key k e

private theorem entries_erase (data : Dict K (Entry V)) (writes : ℕ) (key : K) :
    MemoryStorage.entries ⟨data.erase key, writes⟩ = TtlMap.remove (MemoryStorage.entries ⟨data, writes⟩) key :=
  funext fun k => Dict.lookup_erase_eq data key k

/-- At the reading `t` the storage holds what the map `m` holds, apart from entries that have expired. -/
def Represents (t : ℚ) (s : MemoryStorage K V) (m : TtlMap.Map K V ℚ) : Prop :=
  TtlMap.Prunes t s.entries m

variable {t : ℚ} {s : MemoryStorage K V} {m : TtlMap.Map K V ℚ}

theorem represents_empty (t : ℚ) : Represents t (MemoryStorage.empty : MemoryStorage K V) fun _ => none :=
  fun _ => Or.inl rfl

theorem Represents.mono {t' : ℚ} (h : Represents t s m) (htt' : t ≤ t') : Represents t' s m :=
  TtlMap.Prunes.mono h htt'

/-- The sweep leaves an entry alone or drops one that has expired. -/
private theorem entries_maybeSweep (s : MemoryStorage K V) (now : ℚ) (k : K) :
    (s.maybeSweep now).entries k = s.entries k ∨
      ((s.maybeSweep now).entries k = none ∧ ∃ e, s.entries k = some e ∧ e.expired now = true) := by
  unfold MemoryStorage.maybeSweep MemoryStorage.entries
  simp only
  split
  · exact Or.inl rfl
  · rw [Dict.lookup_keep]
    cases he : s.data.lookup k with
    | none => exact Or.inl rfl
    | some e =>
      cases hx : e.expired now with
      | true => exact Or.inr ⟨by simp [hx], e, rfl, hx⟩
      | false => exact Or.inl (by simp [hx])

private theorem Represents.maybeSweep (h : Represents t s m) : Represents t (s.maybeSweep t) m :=
  TtlMap.Prunes.drop h (entries_maybeSweep s t)

theorem Represents.store {r : Readings} (h : Represents t s m) (ht : t ≤ r.check) (key : K) (value : V)
    (ttl : Option ℚ) :
    Represents r.sweep (s.store key value ttl r) (TtlMap.put m key ⟨value, expiresAt ttl r.write⟩) := by
  refine Represents.maybeSweep ?_
  rw [Represents, entries_insert]
  exact (h.mono (le_trans ht r.check_le_sweep)).put key _

private theorem Represents.erase (h : Represents t s m) (key : K) :
    Represents t (s.delete key) (TtlMap.remove m key) := by
  rw [Represents, MemoryStorage.delete, entries_erase]
  exact TtlMap.Prunes.remove h key

/-- Erasing an entry that has expired is not noticed. -/
private theorem Represents.erase_expired {key : K} {e : Entry V} (h : Represents t s m) (he : s.entries key = some e)
    (hx : e.expired t = true) : Represents t { s with data := s.data.erase key } m := by
  refine TtlMap.Prunes.drop h fun k => ?_
  rw [entries_erase]
  by_cases hk : k = key
  · subst hk; exact Or.inr ⟨TtlMap.remove_same, e, he, hx⟩
  · exact Or.inl (TtlMap.remove_other hk)

private theorem get_fst (s : MemoryStorage K V) (key : K) (now : ℚ) :
    (s.get key now).1 = TtlMap.get s.entries now key := by
  rw [MemoryStorage.get, TtlMap.get, lookup_data]
  cases he : s.entries key with
  | none => rw [TtlMap.live_of_none he]; rfl
  | some e =>
    cases hx : e.expired now with
    | true => rw [TtlMap.live_of_expired he hx]; simp [hx]
    | false => rw [TtlMap.live_of_unexpired he hx]; simp [hx]

theorem Represents.get (h : Represents t s m) (key : K) :
    (s.get key t).1 = TtlMap.get m t key ∧ Represents t (s.get key t).2 m := by
  refine ⟨by rw [get_fst, TtlMap.get, h.live_eq, TtlMap.get], ?_⟩
  rw [MemoryStorage.get, lookup_data]
  cases he : s.entries key with
  | none => exact h
  | some e =>
    cases hx : e.expired t with
    -- the entry is dropped, and the map goes on holding it
    | true => simpa [hx] using h.erase_expired he hx
    | false => simpa [hx] using h

/-- `set_if_not_exists` refuses exactly when an entry is alive under the key. -/
theorem setIfNotExists_eq (s : MemoryStorage K V) (key : K) (value : V) (ttl : Option ℚ) (r : Readings) :
    s.setIfNotExists key value ttl r =
      if (TtlMap.live s.entries r.check key).isSome then (false, s) else (true, s.store key value ttl r) := by
  rw [MemoryStorage.setIfNotExists, lookup_data]
  cases he : s.entries key with
  | none => rw [TtlMap.live_of_none he]; rfl
  | some e =>
    simp only [Entry.unexpired_eq]
    cases hx : e.expired r.check with
    | true => rw [TtlMap.live_of_expired he hx]; rfl
    | false => rw [TtlMap.live_of_unexpired he hx]; rfl

theorem Represents.setIfNotExists {r : Readings} (h : Represents t s m) (ht : t ≤ r.check) (key : K) (value : V)
    (ttl : Option ℚ) :
    let e : Entry V := ⟨value, expiresAt ttl r.write⟩
    (s.setIfNotExists key value ttl r).1 = (TtlMap.putIfAbsent m r.check key e).1 ∧
      Represents r.sweep (s.setIfNotExists key value ttl r).2 (TtlMap.putIfAbsent m r.check key e).2 := by
  have h' := h.mono ht
  simp only [setIfNotExists_eq, TtlMap.putIfAbsent, h'.live_eq key]
  split
  · exact ⟨rfl, h'.mono r.check_le_sweep⟩
  · exact ⟨rfl, h.store ht key value ttl⟩

/-- One call: the storage answers as the map does, and goes on representing it. -/
theorem exec_represents {r : Readings} (h : Represents t s m) (ht : t ≤ r.check) (op : StorageOp K V) :
    (s.exec r op).1 = (refExec m r op).1 ∧ Represents r.sweep (s.exec r op).2 (refExec m r op).2 := by
  cases op with
  | get key =>
    obtain ⟨h₁, h₂⟩ := (h.mono ht).get key
    exact ⟨congrArg StorageAnswer.value h₁, h₂.mono r.check_le_sweep⟩
  | set key value ttl => exact ⟨rfl, h.store ht key value ttl⟩
  | setIfNotExists key value ttl =>
    obtain ⟨h₁, h₂⟩ := h.setIfNotExists ht key value ttl
    exact ⟨congrArg StorageAnswer.flag h₁, h₂⟩
  | delete key => exact ⟨rfl, ((h.mono ht).erase key).mono r.check_le_sweep⟩

private theorem answers_eq {history : List (StorageOp K V × Readings)} (h : Represents t s m)
    (ht : ∀ x ∈ history, t ≤ x.2.check) (hc : Chronological history) :
    s.answers history = refAnswers m history := by
  induction history generalizing t s m with
  | nil => rfl
  | cons x history ih =>
    obtain ⟨op, r⟩ := x
    obtain ⟨h₁, h₂⟩ := exec_represents h (ht _ (List.mem_cons_self ..)) op
    obtain ⟨hnext, hc⟩ := List.pairwise_cons.1 hc
    show (s.exec r op).1 :: _ = (refExec m r op).1 :: _
    rw [h₁, ih h₂ hnext hc]

/-- Over every history of calls on a monotonic clock the storage answers as the map that drops nothing. -/
theorem memoryStorage_refines (history : List (StorageOp K V × Readings)) (hc : Chronological history) :
    (MemoryStorage.empty : MemoryStorage K V).answers history = refAnswers (fun _ => none) history := by
  cases history with
  | nil => rfl
  | cons x history =>
    refine answers_eq (represents_empty x.2.check) (fun y hy => ?_) hc
    rcases List.mem_cons.1 hy with rfl | hy
    · exact le_refl _
    · exact le_trans x.2.check_le_sweep ((List.pairwise_cons.1 hc).1 y hy)

end

/-- An entry is read at its expiry, replaced after it, and then stays. -/
theorem memoryStorage_refines_expiry :
    (MemoryStorage.empty : MemoryStorage String ℕ).answers
      [(.set "k" 1 (some 5), .at 0), (.get "k", .at 5), (.setIfNotExists "k" 2 none, .at 6), (.get "k", .at 9)] =
      [.none, .value (some 1), .flag true, .value (some 2)] := by
  refine (memoryStorage_refines _ ?_).trans (by decide +kernel)
  simp only [Chronological, List.pairwise_cons, List.forall_mem_cons, List.not_mem_nil, false_implies, implies_true,
    List.Pairwise.nil, and_true, Readings.at]
  decide +kernel

end EventusSdk
