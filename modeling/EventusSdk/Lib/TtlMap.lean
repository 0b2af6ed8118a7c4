import Mathlib.Order.Lattice
import Mathlib.Logic.Function.Basic

/-!
# Maps with expiring entries

The reference for a key-value store with times to live: a map that remembers the last write under each key together
with its expiry, and judges the expiry only when it is asked.  Nothing is ever removed from it because of its age.

A store that drops expired entries whenever it likes is a *pruning* of such a map (`Prunes`): under each key it holds
what the map holds, or nothing where the map's entry has expired.  As long as the clock does not go back, a pruning
and its map answer alike, and the operations keep them related.
-/

namespace TtlMap

/-- A value with the last instant at which it is alive, if there is one. -/
structure Entry (V T : Type) where
  value : V
  expiresAt : Option T
deriving DecidableEq

variable {K V T : Type} [LinearOrder T]

/-- At the reading `t` the entry is past its expiry. -/
def Entry.expired (t : T) (e : Entry V T) : Bool :=
  match e.expiresAt with
  | none => false
  | some x => decide (x < t)

theorem Entry.expired_mono {t t' : T} {e : Entry V T} (h : e.expired t = true) (htt' : t ≤ t') :
    e.expired t' = true := by
  unfold Entry.expired at *
  split at h
  · cases h
  · exact decide_eq_true (lt_of_lt_of_le (of_decide_eq_true h) htt')

/-- The last write under each key. -/
abbrev Map (K V T : Type) := K → Option (Entry V T)

/-- The entry under `k` that is alive at the reading `t`. -/
def live (m : Map K V T) (t : T) (k : K) : Option (Entry V T) := (m k).filter fun e => !e.expired t

def get (m : Map K V T) (t : T) (k : K) : Option V := (live m t k).map Entry.value

section
variable [DecidableEq K]

def put (m : Map K V T) (k : K) (e : Entry V T) : Map K V T := Function.update m k (some e)

/-- Write under `k` unless an entry is alive there at the reading `t`; the answer says whether it was written. -/
def putIfAbsent (m : Map K V T) (t : T) (k : K) (e : Entry V T) : Bool × Map K V T :=
  if (live m t k).isSome then (false, m) else (true, put m k e)

def remove (m : Map K V T) (k : K) : Map K V T := Function.update m k none

end

theorem live_eq_some {m : Map K V T} {t : T} {k : K} {e : Entry V T} :
    live m t k = some e ↔ m k = some e ∧ e.expired t = false := by
  simp [live, Option.filter_eq_some_iff]

theorem live_eq_none {m : Map K V T} {t : T} {k : K} :
    live m t k = none ↔ ∀ e, m k = some e → e.expired t = true := by
  simp [live, Option.filter_eq_none_iff]

theorem live_of_none {m : Map K V T} {t : T} {k : K} (h : m k = none) : live m t k = none :=
  live_eq_none.2 fun e he => by rw [h] at he; cases he

theorem live_of_expired {m : Map K V T} {t : T} {k : K} {e : Entry V T} (h : m k = some e)
    (hx : e.expired t = true) : live m t k = none :=
  live_eq_none.2 fun e' he' => by rw [h] at he'; cases he'; exact hx

theorem live_of_unexpired {m : Map K V T} {t : T} {k : K} {e : Entry V T} (h : m k = some e)
    (hx : e.expired t = false) : live m t k = some e := live_eq_some.2 ⟨h, hx⟩

theorem live_congr {m m' : Map K V T} {t : T} {k : K} (h : m k = m' k) : live m t k = live m' t k := by
  rw [live, live, h]

private theorem live_none_mono {m : Map K V T} {t t' : T} {k : K} (h : live m t k = none) (htt' : t ≤ t') :
    live m t' k = none :=
  live_eq_none.2 fun e he => Entry.expired_mono (live_eq_none.1 h e he) htt'

/-! ### What a write leaves -/

section
variable [DecidableEq K] {m : Map K V T} {t : T} {k k' : K} {e e' : Entry V T}

omit [LinearOrder T] in
theorem put_same : put m k e k = some e := Function.update_self ..

omit [LinearOrder T] in
theorem put_other (hk : k' ≠ k) : put m k e k' = m k' := Function.update_of_ne hk ..

omit [LinearOrder T] in
theorem remove_same : remove m k k = none := Function.update_self ..

omit [LinearOrder T] in
theorem remove_other (hk : k' ≠ k) : remove m k k' = m k' := Function.update_of_ne hk ..

theorem putIfAbsent_free (h : live m t k = none) : putIfAbsent m t k e = (true, put m k e) := by
  rw [putIfAbsent, h]
  rfl

theorem putIfAbsent_taken (h : live m t k = some e') : putIfAbsent m t k e = (false, m) := by
  rw [putIfAbsent, h]
  rfl

theorem putIfAbsent_other (hk : k' ≠ k) : (putIfAbsent m t k e).2 k' = m k' := by
  unfold putIfAbsent
  split
  · rfl
  · exact put_other hk

end

/-! ### What later readings find -/

section
variable [DecidableEq K] {m m' : Map K V T} {t t' : T} {k k' : K} {e : Entry V T}

/-- A write under a key that is free is not noticed at another key, nor once it has expired. -/
theorem live_putIfAbsent (htt' : t ≤ t') (h : k' = k → e.expired t' = true) :
    live (putIfAbsent m t k e).2 t' k' = live m t' k' := by
  unfold putIfAbsent
  split
  · rfl
  · next hfree =>
    have hnone : live m t k = none := by simpa using hfree
    by_cases hk : k' = k
    · subst hk
      rw [live_none_mono hnone htt']
      exact live_of_expired put_same (h rfl)
    · exact live_congr (put_other hk)

/-- Maps in which nobody sees a difference under a key, from the reading `t` on, show none after a write at `t`. -/
theorem live_putIfAbsent_congr (htt' : t ≤ t') (h : ∀ t', t ≤ t' → live m t' k' = live m' t' k') :
    live (putIfAbsent m t k e).2 t' k' = live (putIfAbsent m' t k e).2 t' k' := by
  by_cases hk : k' = k
  · subst hk
    unfold putIfAbsent
    rw [h t le_rfl]
    split
    · exact h t' htt'
    · exact live_congr (put_same.trans put_same.symm)
  · rw [live_putIfAbsent htt' fun hk' => absurd hk' hk, live_putIfAbsent htt' fun hk' => absurd hk' hk]
    exact h t' htt'

end

/-! ### Prunings -/

/-- At the reading `t`, `d` holds under each key what `m` holds, or nothing where the entry of `m` has expired. -/
def Prunes (t : T) (d m : Map K V T) : Prop :=
  ∀ k, d k = m k ∨ (d k = none ∧ ∃ e, m k = some e ∧ e.expired t = true)

variable {t t' : T} {d d' m : Map K V T}

theorem Prunes.refl (t : T) (m : Map K V T) : Prunes t m m := fun _ => Or.inl rfl

theorem Prunes.mono (h : Prunes t d m) (htt' : t ≤ t') : Prunes t' d m := by
  intro k
  rcases h k with hk | ⟨hd, e, he, hx⟩
  · exact Or.inl hk
  · exact Or.inr ⟨hd, e, he, Entry.expired_mono hx htt'⟩

/-- A pruning and its map hold the same live entries. -/
theorem Prunes.live_eq (h : Prunes t d m) (k : K) : live d t k = live m t k := by
  rcases h k with hk | ⟨hd, e, he, hx⟩
  · exact live_congr hk
  · rw [live_of_none hd, live_of_expired he hx]

/-- Dropping entries that have expired keeps a pruning a pruning. -/
theorem Prunes.drop (h : Prunes t d m)
    (hd : ∀ k, d' k = d k ∨ (d' k = none ∧ ∃ e, d k = some e ∧ e.expired t = true)) : Prunes t d' m := by
  intro k
  rcases hd k with hk | ⟨hn, e, he, hx⟩
  · rw [hk]; exact h k
  · rcases h k with hk | ⟨hk, _⟩
    · exact Or.inr ⟨hn, e, hk ▸ he, hx⟩
    · rw [he] at hk; cases hk

section
variable [DecidableEq K]

theorem Prunes.put (h : Prunes t d m) (k : K) (e : Entry V T) : Prunes t (put d k e) (put m k e) := by
  intro k'
  by_cases hk : k' = k
  · subst hk
    left
    rw [put_same, put_same]
  · rw [put_other hk, put_other hk]
    exact h k'

theorem Prunes.remove (h : Prunes t d m) (k : K) : Prunes t (remove d k) (remove m k) := by
  intro k'
  by_cases hk : k' = k
  · subst hk
    left
    rw [remove_same, remove_same]
  · rw [remove_other hk, remove_other hk]
    exact h k'

end

end TtlMap
