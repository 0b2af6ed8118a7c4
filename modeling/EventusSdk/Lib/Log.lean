import Mathlib.Data.List.Basic
import Mathlib.Order.Lattice

/-!
# Logs read from a position

A log is a list of entries whose keys increase; it grows at its end.  A reader at a position is shown the entries
`behind` it.  What it has been shown is a prefix of them, and stays one while the log grows; and such a prefix has no
gaps: it holds every entry up to each of its entries (`Increasing.mem_shown`).
-/

namespace Log

variable {α β : Type} [LinearOrder β] {key : α → β} {log : List α}

def Increasing (key : α → β) (log : List α) : Prop := log.Pairwise fun x y => key x < key y

/-- The entries behind a position. -/
def behind (key : α → β) (position : β) (log : List α) : List α := log.filter fun x => position < key x

theorem mem_behind {position : β} {x : α} : x ∈ behind key position log ↔ x ∈ log ∧ position < key x := by
  rw [behind, List.mem_filter, decide_eq_true_iff]

theorem behind_prefix_append (position : β) (log new : List α) :
    behind key position log <+: behind key position (log ++ new) := by
  rw [behind, behind, List.filter_append]
  exact List.prefix_append ..

/-- No two entries have the same key. -/
theorem Increasing.inj {x y : α} (h : Increasing key log) (hx : x ∈ log) (hy : y ∈ log) (heq : key x = key y) :
    x = y := by
  induction log with
  | nil => cases hx
  | cons z log ih =>
    obtain ⟨hz, hlog⟩ := List.pairwise_cons.1 h
    rcases List.mem_cons.1 hx with rfl | hx' <;> rcases List.mem_cons.1 hy with rfl | hy'
    · rfl
    · exact absurd heq (hz y hy').ne
    · exact absurd heq (hz x hx').ne'
    · exact ih hlog hx' hy'

theorem Increasing.behind (h : Increasing key log) (position : β) : Increasing key (behind key position log) :=
  h.filter _

theorem Increasing.append {x : α} (h : Increasing key log) (hx : ∀ y ∈ log, key y < key x) :
    Increasing key (log ++ [x]) :=
  List.pairwise_append.2 ⟨h, List.pairwise_singleton .., by simpa using hx⟩

theorem Increasing.le_getLast {x y : α} (h : Increasing key log) (hy : log.getLast? = some y) (hx : x ∈ log) :
    key x ≤ key y := by
  obtain ⟨front, rfl⟩ := List.getLast?_eq_some_iff.1 hy
  rcases List.mem_append.1 hx with hx | hx
  · exact le_of_lt ((List.pairwise_append.1 h).2.2 x hx y (List.mem_singleton_self _))
  · rw [List.mem_singleton.1 hx]

/-- A prefix of a log holds every entry of it up to each of its own. -/
theorem Increasing.mem_shown {shown : List α} {x y : α} (h : Increasing key log) (hshown : shown <+: log)
    (hy : y ∈ shown) (hx : x ∈ log) (hle : key x ≤ key y) : x ∈ shown := by
  obtain ⟨rest, rfl⟩ := hshown
  rcases List.mem_append.1 hx with hx | hx
  · exact hx
  · exact absurd ((List.pairwise_append.1 h).2.2 y hy x hx) (not_lt.2 hle)

end Log
