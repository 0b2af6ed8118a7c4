import Mathlib.Data.List.Perm.Subperm
import EventusSdk.MemoryStorage

/-!
# The garbage of the in-memory storage

An entry that has expired stays until its key is asked for or a sweep drops it.  A ledger goes along with a history of
calls and records what bounds the number of such entries: the effective writes since the last sweep, and the entries
that were alive at that sweep.
-/

namespace EventusSdk

section
variable {K V : Type} [DecidableEq K]

/-! ### The ledger of a history -/

/-- The entry that a call writes, with its key; a `set_if_not_exists` that is refused writes none. -/
def MemoryStorage.written (s : MemoryStorage K V) (r : Readings) : StorageOp K V → Option ((_ : K) × Entry V)
  | .set key value ttl => some ⟨key, value, expiresAt ttl r.write⟩
  | .setIfNotExists key value ttl =>
    if (s.setIfNotExists key value ttl r).1 then some ⟨key, value, expiresAt ttl r.write⟩ else none
  | .get _ | .delete _ => none

/-- How many effective writes there were, which of them since the last sweep, and what was alive at that sweep. -/
structure Ledger (K V : Type) where
  total : ℕ := 0
  recent : List ((_ : K) × Entry V) := []
  live : List ((_ : K) × Entry V) := []

/-- An effective write is entered, and every `sweepInterval`-th of them is followed by a sweep. -/
def Ledger.record (ledger : Ledger K V) (s : MemoryStorage K V) (r : Readings) (op : StorageOp K V) : Ledger K V :=
  match s.written r op with
  | none => ledger
  | some x =>
    if (ledger.total + 1) % sweepInterval = 0 then
      { total := ledger.total + 1
        live := (s.data.insert x.1 x.2).entries.filter fun y => !y.2.expired r.sweep }
    else { ledger with total := ledger.total + 1, recent := x :: ledger.recent }

/-- The storage and the ledger after a history of calls. -/
def MemoryStorage.after (s : MemoryStorage K V) (ledger : Ledger K V) :
    List (StorageOp K V × Readings) → MemoryStorage K V × Ledger K V
  | [] => (s, ledger)
  | (op, r) :: history => (s.exec r op).2.after (ledger.record s r op) history

/-- What is stored was written since the last sweep, or was alive at it. -/
structure Ledger.Covers (ledger : Ledger K V) (s : MemoryStorage K V) : Prop where
  total : ledger.total = s.writes
  recent : ledger.recent.length = ledger.total % sweepInterval
  stored : ∀ x ∈ s.data.entries, x ∈ ledger.recent ∨ x ∈ ledger.live

variable {s : MemoryStorage K V} {r : Readings} {op : StorageOp K V} {ledger : Ledger K V} {x : (_ : K) × Entry V}

/-! ### One call -/

private theorem get_shrinks (s : MemoryStorage K V) (key : K) (now : ℚ) :
    (s.get key now).2.writes = s.writes ∧ ∀ y ∈ (s.get key now).2.data.entries, y ∈ s.data.entries := by
  unfold MemoryStorage.get
  split
  · exact ⟨rfl, fun y hy => hy⟩
  · split
    · exact ⟨rfl, fun y hy => Dict.mem_entries_erase hy⟩
    · exact ⟨rfl, fun y hy => hy⟩

/-- A `set_if_not_exists` that is refused changes nothing. -/
private theorem setIfNotExists_refused {key : K} {value : V} {ttl : Option ℚ}
    (h : (s.setIfNotExists key value ttl r).1 = false) : (s.setIfNotExists key value ttl r).2 = s := by
  rw [setIfNotExists_eq] at h ⊢
  split at h
  · next hlive => rw [if_pos hlive]
  · cases h

/-- One that is not refused ends like `set`. -/
private theorem setIfNotExists_stored {key : K} {value : V} {ttl : Option ℚ}
    (h : (s.setIfNotExists key value ttl r).1 = true) :
    (s.setIfNotExists key value ttl r).2 = s.store key value ttl r := by
  rw [setIfNotExists_eq] at h ⊢
  split at h
  · cases h
  · next hlive => rw [if_neg hlive]

/-- A call that writes nothing leaves the counter alone and adds no entry. -/
private theorem exec_of_written_none (h : s.written r op = none) :
    (s.exec r op).2.writes = s.writes ∧ ∀ y ∈ (s.exec r op).2.data.entries, y ∈ s.data.entries := by
  cases op with
  | get key => exact get_shrinks s key r.check
  | set key value ttl => cases h
  | setIfNotExists key value ttl =>
    have hrefused : (s.setIfNotExists key value ttl r).1 = false := by
      by_contra hne
      simp [MemoryStorage.written, hne] at h
    show (s.setIfNotExists key value ttl r).2.writes = _ ∧ ∀ y ∈ (s.setIfNotExists key value ttl r).2.data.entries, _
    rw [setIfNotExists_refused hrefused]
    exact ⟨rfl, fun y hy => hy⟩
  | delete key => exact ⟨rfl, fun y hy => Dict.mem_entries_erase hy⟩

/-- A call that writes enters its entry and then counts the write. -/
private theorem exec_of_written (h : s.written r op = some x) :
    (s.exec r op).2 = MemoryStorage.maybeSweep { s with data := s.data.insert x.1 x.2 } r.sweep := by
  cases op with
  | get key => cases h
  | set key value ttl =>
    cases h
    rfl
  | setIfNotExists key value ttl =>
    by_cases hw : (s.setIfNotExists key value ttl r).1 = true
    · simp only [MemoryStorage.written, hw, ↓reduceIte] at h
      cases h
      exact setIfNotExists_stored hw
    · simp [MemoryStorage.written, hw] at h
  | delete key => cases h

omit [DecidableEq K] in
/-- After a sweep nothing is stored that has expired at its reading. -/
private theorem maybeSweep_swept {data : Dict K (Entry V)} {writes : ℕ} {now : ℚ} {y : (_ : K) × Entry V}
    (h : (writes + 1) % sweepInterval = 0) :
    y ∈ (MemoryStorage.maybeSweep ⟨data, writes⟩ now).data.entries ↔ y ∈ data.entries ∧ y.2.expired now = false := by
  rw [MemoryStorage.maybeSweep, if_neg (not_not.2 h), Dict.mem_entries_keep, Bool.not_eq_true']

omit [DecidableEq K] in
private theorem maybeSweep_counted {data : Dict K (Entry V)} {writes : ℕ} {now : ℚ}
    (h : (writes + 1) % sweepInterval ≠ 0) : MemoryStorage.maybeSweep ⟨data, writes⟩ now = ⟨data, writes + 1⟩ := by
  rw [MemoryStorage.maybeSweep, if_pos h]

omit [DecidableEq K] in
private theorem maybeSweep_writes (s : MemoryStorage K V) (now : ℚ) : (s.maybeSweep now).writes = s.writes + 1 := by
  by_cases h : (s.writes + 1) % sweepInterval = 0
  · rw [MemoryStorage.maybeSweep, if_neg (not_not.2 h)]
  · rw [maybeSweep_counted h]

/-! ### The invariant -/

omit [DecidableEq K] in
private theorem Ledger.covers_empty : Ledger.Covers {} (MemoryStorage.empty : MemoryStorage K V) :=
  ⟨rfl, rfl, fun _ hy => absurd hy List.not_mem_nil⟩

/-- One call keeps the ledger in step with the storage. -/
private theorem Ledger.Covers.exec (h : ledger.Covers s) : (ledger.record s r op).Covers (s.exec r op).2 := by
  cases hw : s.written r op with
  | none =>
    obtain ⟨hwrites, hstored⟩ := exec_of_written_none hw
    rw [Ledger.record, hw]
    exact ⟨by rw [h.total, hwrites], h.recent, fun y hy => h.stored y (hstored y hy)⟩
  | some x =>
    rw [exec_of_written hw, Ledger.record, hw]
    simp only
    by_cases hsweep : (ledger.total + 1) % sweepInterval = 0
    · rw [if_pos hsweep]
      rw [h.total] at hsweep
      refine ⟨by rw [maybeSweep_writes, h.total], ?_, fun y hy => Or.inr ?_⟩
      · rw [h.total, hsweep]
        rfl
      · rw [maybeSweep_swept hsweep] at hy
        exact List.mem_filter.2 ⟨hy.1, by simp [hy.2]⟩
    · rw [if_neg hsweep]
      have hcounted := hsweep
      rw [h.total] at hcounted
      rw [maybeSweep_counted hcounted]
      refine ⟨by rw [h.total], ?_, fun y hy => ?_⟩
      · have hrecent := h.recent
        rw [List.length_cons]
        simp only [sweepInterval] at hsweep hrecent ⊢
        omega
      · rcases Dict.mem_entries_insert hy with rfl | hy
        · exact Or.inl (List.mem_cons_self ..)
        · exact (h.stored y hy).imp_left (List.mem_cons_of_mem _)

private theorem Ledger.Covers.after (h : ledger.Covers s) (history : List (StorageOp K V × Readings)) :
    (s.after ledger history).2.Covers (s.after ledger history).1 := by
  induction history generalizing s ledger with
  | nil => exact h
  | cons x history ih => exact ih h.exec

omit [DecidableEq K] in
private theorem Ledger.Covers.recent_lt (h : ledger.Covers s) : ledger.recent.length < sweepInterval := by
  rw [h.recent]
  exact Nat.mod_lt _ (by decide)

omit [DecidableEq K] in
/-- Each stored entry has a place of its own in the ledger. -/
private theorem Ledger.Covers.length_le (h : ledger.Covers s) :
    s.data.entries.length ≤ ledger.live.length + ledger.recent.length := by
  have hsub : s.data.entries ⊆ ledger.live ++ ledger.recent := by
    intro y hy
    rw [List.mem_append]
    exact (h.stored y hy).symm
  rw [← List.length_append]
  exact (List.Nodup.subperm s.data.nodupKeys.nodup hsub).length_le

/-- The number of stored entries is bounded: whatever the history of calls, each of them was written by one of the at
most 499 effective writes since the last sweep or was alive at it, and right after a sweep none has expired. -/
theorem memoryStorage_garbage_bounded (history : List (StorageOp K V × Readings)) :
    let x := (MemoryStorage.empty : MemoryStorage K V).after {} history
    (∀ y ∈ x.1.data.entries, y ∈ x.2.recent ∨ y ∈ x.2.live) ∧ x.2.recent.length ≤ 499 ∧
      x.1.data.entries.length ≤ x.2.live.length + 499 ∧
      ∀ op r, x.1.written r op ≠ none → (x.2.total + 1) % 500 = 0 →
        ∀ y ∈ (x.1.exec r op).2.data.entries, y.2.expired r.sweep = false := by
  have h := Ledger.Covers.after (Ledger.covers_empty (K := K) (V := V)) history
  have hrecent := Nat.le_of_lt_succ h.recent_lt
  refine ⟨h.stored, hrecent, le_trans h.length_le (Nat.add_le_add_left hrecent _), fun op r hw hsweep y hy => ?_⟩
  obtain ⟨x, hx⟩ := Option.ne_none_iff_exists'.1 hw
  rw [exec_of_written hx, maybeSweep_swept (by rwa [h.total] at hsweep)] at hy
  exact hy.2

end

end EventusSdk
