/-!
# Gaps in a history

A history lists what has happened, the last first.  Some of it are marks, and one asks something of the gap between two
consecutive marks: `Gaps mark Good` says that every gap is good, given what lies behind the earlier mark.  A history
grows by one entry at a time; the rules below say what an entry adds to the gaps.
-/

namespace History

variable {α : Type} {mark : α} {Good : List α → List α → Prop} {history : List α}

/-- Between two consecutive marks there is a good gap; `Good between before` may look at what came before. -/
def Gaps (mark : α) (Good : List α → List α → Prop) (history : List α) : Prop :=
  ∀ after between before, history = after ++ mark :: (between ++ mark :: before) → mark ∉ between →
    Good between before

/-- A list is split in one way only at the first occurrence of an element. -/
theorem first_split {x : α} {before before' after after' : List α}
    (h : before ++ x :: after = before' ++ x :: after') (hb : x ∉ before) (hb' : x ∉ before') :
    before = before' ∧ after = after' := by
  induction before generalizing before' with
  | nil =>
    cases before' with
    | nil => exact ⟨rfl, (List.cons.inj h).2⟩
    | cons y before' => exact absurd ((List.cons.inj h).1 ▸ List.mem_cons_self ..) hb'
  | cons y before ih =>
    cases before' with
    | nil => exact absurd ((List.cons.inj h).1 ▸ List.mem_cons_self ..) hb
    | cons z before' =>
      obtain ⟨rfl, h'⟩ := List.cons.inj h
      have hb0 : x ∉ before := fun hm => hb (List.mem_cons_of_mem _ hm)
      have hb0' : x ∉ before' := fun hm => hb' (List.mem_cons_of_mem _ hm)
      obtain ⟨rfl, rfl⟩ := ih h' hb0 hb0'
      exact ⟨rfl, rfl⟩

/-- An entry that is no mark leaves the gaps as they are. -/
theorem gaps_cons {x : α} (hx : x ≠ mark) : Gaps mark Good (x :: history) ↔ Gaps mark Good history := by
  constructor
  · intro h after between before heq
    exact h (x :: after) between before (by rw [heq]; rfl)
  · intro h after between before heq
    rcases after with _ | ⟨y, after⟩
    · exact absurd (List.cons.inj heq).1 hx
    · exact h after between before (List.cons.inj heq).2

/-- Without a mark there is no gap, and the first one makes none. -/
theorem gaps_of_notMem (h : mark ∉ history) : Gaps mark Good history := by
  intro after between before heq
  refine absurd ?_ h
  rw [heq]
  exact List.mem_append_right _ (List.mem_cons_self ..)

theorem gaps_first (h : mark ∉ history) : Gaps mark Good (mark :: history) := by
  intro after between before heq
  refine absurd ?_ h
  rcases after with _ | ⟨y, after⟩
  · rw [(List.cons.inj heq).2]
    exact List.mem_append_right _ (List.mem_cons_self ..)
  · rw [(List.cons.inj heq).2]
    exact List.mem_append_right _ (List.mem_cons_self ..)

/-- A further mark adds the gap between itself and the mark before it. -/
theorem gaps_mark (between : List α) {before : List α} (hb : mark ∉ between) :
    Gaps mark Good (mark :: (between ++ mark :: before)) ↔
      Good between before ∧ Gaps mark Good (between ++ mark :: before) := by
  constructor
  · intro h
    refine ⟨h [] between before rfl hb, fun after between' before' heq => ?_⟩
    exact h (mark :: after) between' before' (by rw [heq]; rfl)
  · rintro ⟨hgap, h⟩ after between' before' heq hb'
    rcases after with _ | ⟨x, after⟩
    · obtain ⟨rfl, rfl⟩ := first_split (List.cons.inj heq).2 hb hb'
      exact hgap
    · exact h after between' before' (List.cons.inj heq).2 hb'

end History
