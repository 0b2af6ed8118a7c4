import EventusSdk.Lib.Transition

/-!
# Simulations with silent steps

Two transition systems, the states of the first of which stand for states of the second.  A step of the first is a step
of the second, or it is silent and changes nothing of what its state stands for.  A run of the first is then a run of
the second (`path`), and what is known of the runs of the second is known of those of the first.

Where steps are matched by whole runs, and only some labels are seen, a run is matched by one of the same trace
(`Run.traced`).
-/

namespace Transition

variable {σ σ' ℓ ℓ' : Type}

/-- `Inv` is what the argument for one step needs. -/
structure Simulation (step : σ → ℓ → σ → Prop) (step' : σ' → ℓ' → σ' → Prop) where
  Inv : σ → Prop
  state : σ → σ'
  label : σ → ℓ → Option ℓ'
  keeps : ∀ s l t, Inv s → step s l t → Inv t
  silent : ∀ s l t, Inv s → step s l t → label s l = none → state t = state s
  simulates : ∀ s l t l', Inv s → step s l t → label s l = some l' → step' (state s) l' (state t)

namespace Simulation

variable {step : σ → ℓ → σ → Prop} {step' : σ' → ℓ' → σ' → Prop} (S : Simulation step step')

/-- What the run is in the second system. -/
def path : σ → List (ℓ × σ) → List (ℓ' × σ')
  | _, [] => []
  | s, (l, t) :: run =>
    match S.label s l with
    | some l' => (l', S.state t) :: path t run
    | none => path t run

/-- A condition of the second system, on the steps of the first. -/
def Cond (cond : σ' → ℓ' → Prop) (s : σ) (l : ℓ) : Prop := ∀ l', S.label s l = some l' → cond (S.state s) l'

section
variable {S} {s t : σ} {l : ℓ} {l' : ℓ'} {run : List (ℓ × σ)}

private theorem path_silent (h : S.label s l = none) : S.path s ((l, t) :: run) = S.path t run := by
  rw [path, h]

private theorem path_step (h : S.label s l = some l') :
    S.path s ((l, t) :: run) = (l', S.state t) :: S.path t run := by
  rw [path, h]

theorem run_path (hs : S.Inv s) (hrun : Run step s run) :
    Run step' (S.state s) (S.path s run) ∧ last (S.state s) (S.path s run) = S.state (last s run) := by
  induction run generalizing s with
  | nil => exact ⟨trivial, rfl⟩
  | cons x run ih =>
    obtain ⟨l, t⟩ := x
    obtain ⟨hrun', hlast⟩ := ih (S.keeps _ _ _ hs hrun.1) hrun.2
    cases hl : S.label s l with
    | none =>
      rw [path_silent hl, ← S.silent _ _ _ hs hrun.1 hl]
      exact ⟨hrun', hlast⟩
    | some l' =>
      rw [path_step hl]
      exact ⟨⟨S.simulates _ _ _ _ hs hrun.1 hl, hrun'⟩, hlast⟩

theorem always_path {P : σ' → Prop} (hs : S.Inv s) (hrun : Run step s run) :
    Always (fun s => P (S.state s)) s run ↔ Always P (S.state s) (S.path s run) := by
  induction run generalizing s with
  | nil => exact Iff.rfl
  | cons x run ih =>
    obtain ⟨l, t⟩ := x
    have htail := ih (S.keeps _ _ _ hs hrun.1) hrun.2
    cases hl : S.label s l with
    | none =>
      -- the state in which nothing happens is the next one
      have hstate := S.silent _ _ _ hs hrun.1 hl
      rw [path_silent hl, ← hstate, ← htail]
      refine ⟨fun h => h.2, fun h => ⟨?_, h⟩⟩
      show P (S.state s)
      exact hstate ▸ h.head
    | some l' =>
      rw [path_step hl]
      exact and_congr Iff.rfl htail

theorem meets_path {cond : σ' → ℓ' → Prop} (hs : S.Inv s) (hrun : Run step s run) :
    Meets (S.Cond cond) s run ↔ Meets cond (S.state s) (S.path s run) := by
  induction run generalizing s with
  | nil => exact Iff.rfl
  | cons x run ih =>
    obtain ⟨l, t⟩ := x
    have htail := ih (S.keeps _ _ _ hs hrun.1) hrun.2
    cases hl : S.label s l with
    | none =>
      rw [path_silent hl, ← S.silent _ _ _ hs hrun.1 hl, ← htail]
      refine ⟨fun h => h.2, fun h => ⟨fun l' hl' => ?_, h⟩⟩
      cases hl.symm.trans hl'
    | some l' =>
      rw [path_step hl]
      refine and_congr ⟨fun h => h l' hl, fun h l'' hl'' => ?_⟩ htail
      rwa [← Option.some.inj (hl.symm.trans hl'')]

end

end Simulation

/-! ### Traces -/

section
variable {ω : Type} {seen : ℓ → Option ω} {seen' : ℓ' → Option ω} {step : σ → ℓ → σ → Prop}
  {step' : σ' → ℓ' → σ' → Prop} {s : σ} {s' : σ'} {run run' : List (ℓ × σ)}

/-- What is seen of a run. -/
def trace (seen : ℓ → Option ω) (run : List (ℓ × σ)) : List ω := run.filterMap fun x => seen x.1

private theorem trace_append : trace seen (run ++ run') = trace seen run ++ trace seen run' := List.filterMap_append ..

theorem trace_some : trace some run = run.map Prod.fst := by
  induction run with
  | nil => rfl
  | cons x run ih => exact congrArg (x.1 :: ·) ih

theorem trace_cons {x : ℓ × σ} : trace seen (x :: run) = (seen x.1).toList ++ trace seen run := by
  cases hx : seen x.1 <;> simp [trace, hx]

/-- Where every step is matched by a run of another system of which the same is seen, so is every run. -/
theorem Run.traced (Rel : σ → σ' → Prop)
    (hstep : ∀ s l t s', Rel s s' → step s l t →
      ∃ run', Run step' s' run' ∧ trace seen' run' = (seen l).toList ∧ Rel t (last s' run'))
    (h0 : Rel s s') (h : Run step s run) :
    ∃ run', Run step' s' run' ∧ trace seen' run' = trace seen run ∧ Rel (last s run) (last s' run') := by
  induction run generalizing s s' with
  | nil => exact ⟨[], trivial, rfl, h0⟩
  | cons x run ih =>
    obtain ⟨run₁, hrun₁, htrace₁, h1⟩ := hstep _ _ _ _ h0 h.1
    obtain ⟨run₂, hrun₂, htrace₂, h2⟩ := ih h1 h.2
    refine ⟨run₁ ++ run₂, hrun₁.append hrun₂, ?_, by rwa [last_append]⟩
    rw [trace_append, trace_cons, htrace₁, htrace₂]

end

end Transition
