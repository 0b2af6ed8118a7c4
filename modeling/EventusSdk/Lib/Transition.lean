/-!
# Runs of labelled transition systems

A step `step s l t` leads from `s` to `t` under the label `l`.  A run from `s` is the list of its labels, each with
the state it leads to, so that a property of every state of a run, and a condition on every step of it, are
predicates on that list.  The rules below carry an invariant along a run and, where a step keeps a property exactly
when it meets a condition, say that a run keeps it exactly when all its steps meet the condition.
-/

namespace Transition

variable {σ ℓ : Type} {step : σ → ℓ → σ → Prop} {s : σ} {path : List (ℓ × σ)}

/-- `path` is a run of `step` from `s`. -/
def Run (step : σ → ℓ → σ → Prop) : σ → List (ℓ × σ) → Prop
  | _, [] => True
  | s, (l, t) :: path => step s l t ∧ Run step t path

/-- Every step of the run meets `cond`, a condition on the state before the step and on its label. -/
def Meets (cond : σ → ℓ → Prop) : σ → List (ℓ × σ) → Prop
  | _, [] => True
  | s, (l, t) :: path => cond s l ∧ Meets cond t path

/-- Every state of the run, the first one included, has the property `P`. -/
def Always (P : σ → Prop) : σ → List (ℓ × σ) → Prop
  | s, [] => P s
  | s, (_, t) :: path => P s ∧ Always P t path

/-- The state in which the run ends. -/
def last : σ → List (ℓ × σ) → σ
  | s, [] => s
  | _, (_, t) :: path => last t path

/-- The steps of the run, each with the state before it, its label and the state after it. -/
def steps : σ → List (ℓ × σ) → List (σ × ℓ × σ)
  | _, [] => []
  | s, (l, t) :: path => (s, l, t) :: steps t path

theorem Always.head {P : σ → Prop} (h : Always P s path) : P s := by
  cases path with
  | nil => exact h
  | cons x path => exact h.1

theorem Always.last {P : σ → Prop} (h : Always P s path) : P (last s path) := by
  induction path generalizing s with
  | nil => exact h
  | cons x path ih => exact ih h.2

theorem Always.mono {P Q : σ → Prop} (hPQ : ∀ s, P s → Q s) (h : Always P s path) : Always Q s path := by
  induction path generalizing s with
  | nil => exact hPQ s h
  | cons x path ih => exact ⟨hPQ s h.1, ih h.2⟩

/-- A property that holds at the start and is kept by every step holds in every state of a run. -/
theorem Run.always {Inv : σ → Prop} (hstep : ∀ s l t, Inv s → step s l t → Inv t) (h0 : Inv s)
    (h : Run step s path) : Always Inv s path := by
  induction path generalizing s with
  | nil => exact h0
  | cons x path ih => exact ⟨h0, ih (hstep _ _ _ h0 h.1) h.2⟩

theorem Run.of_mem_steps {x : σ × ℓ × σ} (h : Run step s path) (hx : x ∈ steps s path) : step x.1 x.2.1 x.2.2 := by
  induction path generalizing s with
  | nil => cases hx
  | cons y path ih =>
    rcases List.mem_cons.1 hx with rfl | hx
    · exact h.1
    · exact ih h.2 hx

theorem Always.of_mem_steps {P : σ → Prop} {x : σ × ℓ × σ} (h : Always P s path) (hx : x ∈ steps s path) : P x.1 := by
  induction path generalizing s with
  | nil => cases hx
  | cons y path ih =>
    rcases List.mem_cons.1 hx with rfl | hx
    · exact h.1
    · exact ih h.2 hx

section
variable {R : σ → σ → Prop} (hrefl : ∀ s, R s s) (hstep : ∀ s l t u, step s l t → R t u → R s u)
include hrefl hstep

/-- What the steps relate, the run relates: its first state to every later one. -/
private theorem Run.head_rel (h : Run step s path) : ∀ x ∈ steps s path, R s x.1 := by
  induction path generalizing s with
  | nil => simp [steps]
  | cons y path ih =>
    intro x hx
    rcases List.mem_cons.1 hx with rfl | hx
    · exact hrefl _
    · exact hstep _ _ _ _ h.1 (ih h.2 x hx)

/-- Of two steps of a run, the state after the earlier one is related to the state before the later one. -/
theorem Run.steps_rel (h : Run step s path) : (steps s path).Pairwise fun x y => R x.2.2 y.1 := by
  induction path generalizing s with
  | nil => exact List.Pairwise.nil
  | cons y path ih => exact List.pairwise_cons.2 ⟨h.2.head_rel hrefl hstep, ih h.2⟩

end

/-- Where a step from a good state leads to a good state exactly when it meets the condition, the good runs are
those whose steps all meet it.  `Inv` is what the argument for one step needs besides. -/
theorem Run.always_iff_meets (Inv : σ → Prop) {P : σ → Prop} {cond : σ → ℓ → Prop}
    (hinv : ∀ s l t, Inv s → P s → step s l t → P t → Inv t)
    (hexact : ∀ s l t, Inv s → P s → step s l t → (P t ↔ cond s l)) (h0 : Inv s) (hP : P s)
    (h : Run step s path) : Always P s path ↔ Meets cond s path := by
  induction path generalizing s with
  | nil => exact ⟨fun _ => trivial, fun _ => hP⟩
  | cons x path ih =>
    have hx := hexact _ _ _ h0 hP h.1
    constructor
    · intro ha
      have hPt := ha.2.head
      exact ⟨hx.1 hPt, (ih (hinv _ _ _ h0 hP h.1 hPt) hPt h.2).1 ha.2⟩
    · intro hc
      have hPt := hx.2 hc.1
      exact ⟨hP, (ih (hinv _ _ _ h0 hP h.1 hPt) hPt h.2).2 hc.2⟩

/-- Every step of the run meets `cond`, a condition on the labels before it, `before` included, and on its own. -/
def MeetsAfter (cond : List ℓ → ℓ → Prop) : List ℓ → List (ℓ × σ) → Prop
  | _, [] => True
  | before, (l, _) :: path => cond before l ∧ MeetsAfter cond (before ++ [l]) path

/-- Where a step of a run that has done something all along does it again exactly when it meets the condition, the runs
all whose steps do it are those whose steps all meet the condition. -/
theorem Run.iff_meetsAfter {Inv : List ℓ → σ → Prop} {does : σ → ℓ → σ → Prop} {cond : List ℓ → ℓ → Prop}
    {before : List ℓ} (hinv : ∀ before s l t, Inv before s → does s l t → step s l t → Inv (before ++ [l]) t)
    (hexact : ∀ before s l t, Inv before s → step s l t → (does s l t ↔ cond before l)) (h0 : Inv before s)
    (h : Run step s path) : Run does s path ↔ MeetsAfter cond before path := by
  induction path generalizing s before with
  | nil => exact Iff.rfl
  | cons x path ih =>
    have hx := hexact _ _ _ _ h0 h.1
    constructor
    · exact fun hd => ⟨hx.1 hd.1, (ih (hinv _ _ _ _ h0 hd.1 h.1) h.2).1 hd.2⟩
    · exact fun hc => ⟨hx.2 hc.1, (ih (hinv _ _ _ _ h0 (hx.2 hc.1) h.1) h.2).2 hc.2⟩

/-- A property that holds at the start and is kept by every step that does something holds in every state of a run whose
steps all do it. -/
theorem Run.always_of_does {Inv : σ → Prop} {does : σ → ℓ → σ → Prop}
    (hstep : ∀ s l t, Inv s → does s l t → step s l t → Inv t) (h0 : Inv s) (h : Run step s path)
    (hd : Run does s path) : Always Inv s path := by
  induction path generalizing s with
  | nil => exact h0
  | cons x path ih => exact ⟨h0, ih (hstep _ _ _ h0 hd.1 h.1) h.2 hd.2⟩

/-- A property that holds at the start and is kept by every step that meets the condition holds in every state of a
run whose steps all meet it. -/
theorem Run.always_of_meets {Inv : σ → Prop} {cond : σ → ℓ → Prop}
    (hstep : ∀ s l t, Inv s → cond s l → step s l t → Inv t) (h0 : Inv s) (h : Run step s path)
    (hm : Meets cond s path) : Always Inv s path := by
  induction path generalizing s with
  | nil => exact h0
  | cons x path ih => exact ⟨h0, ih (hstep _ _ _ h0 hm.1 h.1) h.2 hm.2⟩

/-- A run whose steps all meet the condition does at every step what a step does that meets it. -/
theorem Run.does_of_meets {Inv : σ → Prop} {cond : σ → ℓ → Prop} {does : σ → ℓ → σ → Prop}
    (hstep : ∀ s l t, Inv s → cond s l → step s l t → Inv t)
    (hdoes : ∀ s l t, Inv s → cond s l → step s l t → does s l t)
    (h0 : Inv s) (h : Run step s path) (hm : Meets cond s path) : Run does s path := by
  induction path generalizing s with
  | nil => trivial
  | cons x path ih => exact ⟨hdoes _ _ _ h0 hm.1 h.1, ih (hstep _ _ _ h0 hm.1 h.1) h.2 hm.2⟩

theorem Run.append {path' : List (ℓ × σ)} (h : Run step s path) (h' : Run step (last s path) path') :
    Run step s (path ++ path') := by
  induction path generalizing s with
  | nil => exact h'
  | cons x path ih => exact ⟨h.1, ih h.2 h'⟩

theorem last_append {path' : List (ℓ × σ)} : last s (path ++ path') = last (last s path) path' := by
  induction path generalizing s with
  | nil => rfl
  | cons x path ih => exact ih

/-- Where every step is matched by a run of another system, so is every run. -/
theorem Run.matched {σ' ℓ' : Type} {step' : σ' → ℓ' → σ' → Prop} {s' : σ'} (Rel : σ → σ' → Prop)
    (hstep : ∀ s l t s', Rel s s' → step s l t → ∃ path', Run step' s' path' ∧ Rel t (last s' path'))
    (h0 : Rel s s') (h : Run step s path) : ∃ path', Run step' s' path' ∧ Rel (last s path) (last s' path') := by
  induction path generalizing s s' with
  | nil => exact ⟨[], trivial, h0⟩
  | cons x path ih =>
    obtain ⟨path₁, hrun₁, h1⟩ := hstep _ _ _ _ h0 h.1
    obtain ⟨path₂, hrun₂, h2⟩ := ih h1 h.2
    exact ⟨path₁ ++ path₂, hrun₁.append hrun₂, by rwa [last_append]⟩

end Transition
