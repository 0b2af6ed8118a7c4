import EventusSdk.Lib.Pool

/-!
# Pools that keep a history

A pool system with a history: every request that was answered, with the number of the program that made it.  Step by
step each program of the pool is where its part of the history leads it, so that what is known of complete runs of one
program can be applied to the programs of a pool, however far they have come.
-/

namespace Prog

variable {Req : Type} {Resp : Req → Type} {E α σ : Type} {p q : Prog Req Resp E α} {t t' : List (Event Req Resp E)}

/-- With the answers of the trace, the first program has become the second. -/
inductive After : Prog Req Resp E α → List (Event Req Resp E) → Prog Req Resp E α → Prop where
  | nil (p : Prog Req Resp E α) : After p [] p
  | cons {r : Req} {k : Except E (Resp r) → Prog Req Resp E α} {x : Except E (Resp r)}
      {t : List (Event Req Resp E)} {q : Prog Req Resp E α} (h : After (k x) t q) : After (call r k) (⟨r, x⟩ :: t) q

private theorem After.snoc {r : Req} {k : Except E (Resp r) → Prog Req Resp E α} (h : After p t (call r k))
    (x : Except E (Resp r)) : After p (t ++ [⟨r, x⟩]) (k x) := by
  generalize hq : call r k = q at h
  induction h with
  | nil p =>
    subst hq
    exact .cons (.nil _)
  | cons _ ih => exact .cons (ih hq)

private theorem After.runs {res : Except E α} (h : After p t q) (hq : q.Runs t' res) : p.Runs (t ++ t') res := by
  induction h with
  | nil p => exact hq
  | cons _ ih => exact ⟨_, _, rfl, ih hq⟩

/-- The program can be run to its end, with the answers of any environment. -/
theorem After.completed (h : After p t q) (env : Env Req Resp E σ) (s : σ) :
    p.Runs (t ++ (q.run env s).trace) (q.run env s).result :=
  h.runs (runs_run env q s)

/-- In an environment that answers alike in every state, the answers in a trace are those. -/
theorem mem_trace_run {env : Env Req Resp E σ} {s : σ} {ev : Event Req Resp E} (h : ev ∈ (p.run env s).trace) :
    ∃ s, ev.2 = (env ev.1 s).1 := by
  induction p generalizing s with
  | ret a => cases h
  | raise e => cases h
  | call r k ih =>
    rw [run_call] at h
    rcases List.mem_cons.1 h with rfl | h
    · exact ⟨s, rfl⟩
    · exact ih _ h

end Prog

namespace Pool

variable {τ W A O Req : Type} {Resp : Req → Type} {E α : Type}

/-- Answered requests, each with the number of its program. -/
abbrev History (Req : Type) (Resp : Req → Type) (E : Type) := List (Nat × Prog.Event Req Resp E)

/-- What the program with this number has been answered. -/
def traceOf (i : Nat) (history : History Req Resp E) : List (Prog.Event Req Resp E) :=
  (history.filter fun x => x.1 == i).map Prod.snd

def System.recorded (S : System τ W A O Req Resp E α) : System τ (W × History Req Resp E) A O Req Resp E α where
  program := S.program
  serve w i ev a w' := S.serve w.1 i ev a w'.1 ∧ w'.2 = w.2 ++ [(i, ev)]
  outside w o w' := S.outside w.1 o w'.1 ∧ w'.2 = w.2

variable {S : System τ W A O Req Resp E α} {history : History Req Resp E} {i j : Nat} {ev : Prog.Event Req Resp E}

theorem Step.record {P : Pool τ (W × History Req Resp E) Req Resp E α} {t : τ} {r : Req}
    {k : Except E (Resp r) → Prog Req Resp E α} {x : Except E (Resp r)} {a : A} {w : W}
    (hi : P.tasks[i]? = some (t, .call r k)) (hw : S.serve P.world.1 i ⟨r, x⟩ a w) :
    Step S.recorded P (.serve i ⟨r, x⟩ a) ⟨(w, P.world.2 ++ [(i, ⟨r, x⟩)]), P.tasks.set i (t, k x)⟩ :=
  .serve hi ⟨hw, rfl⟩

theorem mem_traceOf : ev ∈ traceOf i history ↔ (i, ev) ∈ history := by
  simp [traceOf]

private theorem traceOf_append_same : traceOf i (history ++ [(i, ev)]) = traceOf i history ++ [ev] := by
  simp [traceOf]

private theorem traceOf_append_other (h : j ≠ i) : traceOf i (history ++ [(j, ev)]) = traceOf i history := by
  simp [traceOf, h]

/-- Every program of the pool is where the history leads it. -/
def Recorded (S : System τ W A O Req Resp E α) : Pool τ (W × History Req Resp E) Req Resp E α → Prop :=
  Holds (fun w n => ∀ x ∈ w.2, x.1 < n) fun w i t p => (S.program t).After (traceOf i w.2) p

theorem step_recorded {P Q : Pool τ (W × History Req Resp E) Req Resp E α} {l : Label τ Req Resp E A O}
    (hP : Recorded S P) (h : Step S.recorded P l Q) : Recorded S Q := by
  refine h.holds ?_ ?_ ?_ hP
  · intro w n t hlt
    have hnew : traceOf n w.2 = [] := by
      simp only [traceOf, List.map_eq_nil_iff, List.filter_eq_nil_iff, beq_iff_eq]
      exact fun x hx => Nat.ne_of_lt (hlt x hx)
    exact ⟨fun x hx => Nat.lt_succ_of_lt (hlt x hx), hnew ▸ .nil _⟩
  · rintro w n i t r k x a w' hlt hi hJ ⟨-, hw⟩
    rw [hw]
    refine ⟨fun y hy => ?_, traceOf_append_same ▸ hJ.snoc x, fun j u p hji hu => ?_⟩
    · rcases List.mem_append.1 hy with hy | hy
      · exact hlt y hy
      · rw [List.mem_singleton.1 hy]
        exact hi
    · rwa [traceOf_append_other (Ne.symm hji)]
  · rintro w n o w' hlt ⟨-, hw⟩
    rw [hw]
    exact ⟨hlt, fun _ _ _ h => h⟩

end Pool
