/-!
# Noninterference by purging

A machine takes actions one after the other and puts something out at each.  Hidden actions do not interfere with
visible ones if purging a history of the hidden actions leaves what is put out at the visible ones as it was.  That is
a statement about two runs; an `Unwinding` reduces it to single steps, by a relation between the states of the two.
The relation may look at the actions still to come.
-/

namespace Noninterference

variable {S Act Out : Type}

structure Machine (S Act Out : Type) where
  step : S → Act → S
  output : S → Act → Out

/-- The actions of a history, each with what is put out at it. -/
def Machine.outputs (M : Machine S Act Out) : S → List Act → List (Act × Out)
  | _, [] => []
  | s, a :: history => (a, M.output s a) :: M.outputs (M.step s a) history

/-- What is put out at the actions of interest. -/
def seen (visible : Act → Bool) (outputs : List (Act × Out)) : List (Act × Out) := outputs.filter fun o => visible o.1

/-- The history without the hidden actions. -/
def purge (hidden : Act → Bool) (history : List Act) : List Act := history.filter fun a => !hidden a

section
variable {visible hidden : Act → Bool} {a : Act} {o : Out} {outputs : List (Act × Out)} {history : List Act}

theorem seen_visible (h : visible a = true) : seen visible ((a, o) :: outputs) = (a, o) :: seen visible outputs :=
  List.filter_cons_of_pos h

theorem seen_other (h : ¬ visible a = true) : seen visible ((a, o) :: outputs) = seen visible outputs :=
  List.filter_cons_of_neg h

theorem purge_hidden (h : hidden a = true) : purge hidden (a :: history) = purge hidden history :=
  List.filter_cons_of_neg (by simp [h])

theorem purge_other (h : hidden a = false) : purge hidden (a :: history) = a :: purge hidden history :=
  List.filter_cons_of_pos (by simp [h])

end

/-- A relation between the run with the hidden actions and the one without, in front of the actions to come: a hidden
action keeps it, any other one keeps it when both take it, and a visible one finds both putting out the same. -/
structure Unwinding (M : Machine S Act Out) (visible hidden : Act → Bool) (R : List Act → S → S → Prop) : Prop where
  skip : ∀ {a history s s'}, R (a :: history) s s' → hidden a = true → R history (M.step s a) s'
  step : ∀ {a history s s'}, R (a :: history) s s' → hidden a = false → R history (M.step s a) (M.step s' a)
  output : ∀ {a history s s'}, R (a :: history) s s' → visible a = true →
    hidden a = false ∧ M.output s a = M.output s' a

/-- Actions that an unwinding hides do not interfere. -/
theorem Unwinding.seen_eq {M : Machine S Act Out} {visible hidden : Act → Bool} {R : List Act → S → S → Prop}
    (h : Unwinding M visible hidden R) {history : List Act} {s s' : S} (hR : R history s s') :
    seen visible (M.outputs s history) = seen visible (M.outputs s' (purge hidden history)) := by
  induction history generalizing s s' with
  | nil => rfl
  | cons a history ih =>
    by_cases hhidden : hidden a = true
    · have hother : ¬ visible a = true := by
        intro hvisible
        have hnot := (h.output hR hvisible).1
        rw [hhidden] at hnot
        cases hnot
      rw [purge_hidden hhidden, Machine.outputs, seen_other hother]
      exact ih (h.skip hR hhidden)
    · rw [Bool.not_eq_true] at hhidden
      have hrest := ih (h.step hR hhidden)
      rw [purge_other hhidden, Machine.outputs, Machine.outputs]
      by_cases hvisible : visible a = true
      · rw [seen_visible hvisible, seen_visible hvisible, (h.output hR hvisible).2, hrest]
      · rw [seen_other hvisible, seen_other hvisible, hrest]

end Noninterference
