import EventusSdk.Lib.Prog

/-!
# Programs that do the same

`Follows T Rα Re p q`: on every trace in `T`, the program `q` makes the requests `p` makes, and its result is related
to that of `p`: values by `Rα`, exceptions by `Re`.  The set `T` is what the comparison assumes of the answers, and of
how the requests follow each other; it has to be closed under taking parts (`Closed`), since the parts of a program see
parts of its trace.  The relation is compatible with `bind` and `tryCatch`, and in every environment it makes the two
programs leave the same trace and the same state.
-/

namespace Prog

variable {Req : Type} {Resp : Req → Type} {E α α' β β' σ : Type}

/-- Two results of the same kind, with related values or related exceptions. -/
inductive Lift (Rα : α → α' → Prop) (Re : E → E → Prop) : Except E α → Except E α' → Prop where
  | ok {a : α} {a' : α'} (h : Rα a a') : Lift Rα Re (.ok a) (.ok a')
  | error {e e' : E} (h : Re e e') : Lift Rα Re (.error e) (.error e')

theorem Lift.eq {x x' : Except E α} (h : Lift Eq Eq x x') : x = x' := by
  cases h with
  | ok h => rw [h]
  | error h => rw [h]

/-- A set of traces that holds the parts of each of its traces. -/
def Closed (T : List (Event Req Resp E) → Prop) : Prop := ∀ t₁ t₂, T (t₁ ++ t₂) → T t₁ ∧ T t₂

def Follows (T : List (Event Req Resp E) → Prop) (Rα : α → α' → Prop) (Re : E → E → Prop)
    (p : Prog Req Resp E α) (q : Prog Req Resp E α') : Prop :=
  ∀ t res, T t → p.Runs t res → ∃ res', q.Runs t res' ∧ Lift Rα Re res res'

variable {T : List (Event Req Resp E) → Prop} {Rα : α → α' → Prop} {Rβ : β → β' → Prop} {Re Re' : E → E → Prop}
  {p : Prog Req Resp E α} {q : Prog Req Resp E α'}

theorem Follows.ret {a : α} {a' : α'} (h : Rα a a') : Follows T Rα Re (ret a) (ret a') := by
  rintro t res - ⟨rfl, rfl⟩
  exact ⟨_, ⟨rfl, rfl⟩, .ok h⟩

theorem Follows.raise {e e' : E} (h : Re e e') : Follows T Rα Re (raise e) (raise e') := by
  rintro t res - ⟨rfl, rfl⟩
  exact ⟨_, ⟨rfl, rfl⟩, .error h⟩

theorem Follows.refl {R : α → α → Prop} (hα : ∀ a, R a a) (he : ∀ e, Re e e) (p : Prog Req Resp E α) :
    Follows T R Re p p := by
  intro t res _ h
  refine ⟨res, h, ?_⟩
  cases res with
  | ok a => exact .ok (hα a)
  | error e => exact .error (he e)

theorem Follows.self {p : Prog Req Resp E α} : Follows T Eq Eq p p :=
  Follows.refl (fun _ => Eq.refl _) (fun _ => Eq.refl _) p

theorem Follows.mono {Rα' : α → α' → Prop} (hα : ∀ a a', Rα a a' → Rα' a a') (he : ∀ e e', Re e e' → Re' e e')
    (h : Follows T Rα Re p q) : Follows T Rα' Re' p q := by
  intro t res hT hrun
  obtain ⟨res', hrun', hres⟩ := h t res hT hrun
  refine ⟨res', hrun', ?_⟩
  cases hres with
  | ok h => exact .ok (hα _ _ h)
  | error h => exact .error (he _ _ h)

theorem Follows.bind (hT : Closed T) {f : α → Prog Req Resp E β} {g : α' → Prog Req Resp E β'}
    (hp : Follows T Rα Re p q) (hf : ∀ a a', Rα a a' → Follows T Rβ Re (f a) (g a')) :
    Follows T Rβ Re (p.bind f) (q.bind g) := by
  intro t res ht hrun
  rcases runs_bind.1 hrun with ⟨a, t₁, t₂, rfl, h₁, h₂⟩ | ⟨e, rfl, h⟩
  · obtain ⟨ht₁, ht₂⟩ := hT _ _ ht
    obtain ⟨_, hq, ha⟩ := hp _ _ ht₁ h₁
    cases ha with
    | ok ha =>
      obtain ⟨res', hg, hres⟩ := hf _ _ ha _ _ ht₂ h₂
      exact ⟨res', runs_bind.2 (Or.inl ⟨_, t₁, t₂, rfl, hq, hg⟩), hres⟩
  · obtain ⟨_, hq, he⟩ := hp _ _ ht h
    cases he with
    | error he => exact ⟨_, runs_bind.2 (Or.inr ⟨_, rfl, hq⟩), .error he⟩

theorem Follows.tryCatch (hT : Closed T) {h : E → Prog Req Resp E α} {h' : E → Prog Req Resp E α'}
    (hp : Follows T Rα Re' p q) (hh : ∀ e e', Re' e e' → Follows T Rα Re (h e) (h' e')) :
    Follows T Rα Re (p.tryCatch h) (q.tryCatch h') := by
  intro t res ht hrun
  rcases runs_tryCatch.1 hrun with ⟨a, rfl, h₁⟩ | ⟨e, t₁, t₂, rfl, h₁, h₂⟩
  · obtain ⟨_, hq, ha⟩ := hp _ _ ht h₁
    cases ha with
    | ok ha => exact ⟨_, runs_tryCatch.2 (Or.inl ⟨_, rfl, hq⟩), .ok ha⟩
  · obtain ⟨ht₁, ht₂⟩ := hT _ _ ht
    obtain ⟨_, hq, he⟩ := hp _ _ ht₁ h₁
    cases he with
    | error he =>
      obtain ⟨res', hh', hres⟩ := hh _ _ he _ _ ht₂ h₂
      exact ⟨res', runs_tryCatch.2 (Or.inr ⟨_, t₁, t₂, rfl, hq, hh'⟩), hres⟩

/-! ### In an environment -/

/-- From the state `s`, the environment gives the answers of the trace and ends in `s'`. -/
def Answers (env : Env Req Resp E σ) : σ → List (Event Req Resp E) → σ → Prop
  | s, [], s' => s' = s
  | s, ⟨r, x⟩ :: t, s' => x = (env r s).1 ∧ Answers env (env r s).2 t s'

theorem answers_append {env : Env Req Resp E σ} {s s' : σ} {t₁ t₂ : List (Event Req Resp E)} :
    Answers env s (t₁ ++ t₂) s' ↔ ∃ s₁, Answers env s t₁ s₁ ∧ Answers env s₁ t₂ s' := by
  induction t₁ generalizing s with
  | nil => exact ⟨fun h => ⟨s, rfl, h⟩, fun ⟨_, h₁, h₂⟩ => by cases h₁; exact h₂⟩
  | cons ev t₁ ih =>
    simp only [List.cons_append, Answers, ih]
    exact ⟨fun ⟨hx, s₁, h₁, h₂⟩ => ⟨s₁, ⟨hx, h₁⟩, h₂⟩, fun ⟨s₁, ⟨hx, h₁⟩, h₂⟩ => ⟨hx, s₁, h₁, h₂⟩⟩

theorem answers_run (env : Env Req Resp E σ) (p : Prog Req Resp E α) (s : σ) :
    Answers env s (p.run env s).trace (p.run env s).state := by
  induction p generalizing s with
  | ret a => rfl
  | raise e => rfl
  | call r k ih => exact ⟨rfl, ih _ _⟩

/-- A run whose answers are those of the environment is the run in that environment. -/
theorem Runs.run_eq {env : Env Req Resp E σ} {s s' : σ} {t : List (Event Req Resp E)} {res : Except E α}
    (h : p.Runs t res) (ht : Answers env s t s') : p.run env s = ⟨res, s', t⟩ := by
  induction p generalizing s t with
  | ret a => obtain ⟨rfl, rfl⟩ := h; obtain rfl := ht; rfl
  | raise e => obtain ⟨rfl, rfl⟩ := h; obtain rfl := ht; rfl
  | call r k ih =>
    obtain ⟨x, t', rfl, h⟩ := h
    obtain ⟨rfl, ht⟩ := ht
    rw [run_call, ih _ h ht]

theorem run_request (env : Env Req Resp E σ) (r : Req) (s : σ) :
    (request r).run env s = ⟨(env r s).1, (env r s).2, [⟨r, (env r s).1⟩]⟩ :=
  (runs_request.2 rfl).run_eq ⟨rfl, rfl⟩

/-! The run of `bind` and of `tryCatch`, given how that of the first part ends. -/

section
variable {env : Env Req Resp E σ} {s s' : σ} {t : List (Event Req Resp E)} {a : α} {e : E}
  {f : α → Prog Req Resp E β} {h : E → Prog Req Resp E α}

theorem run_bind_ok (hp : p.run env s = ⟨.ok a, s', t⟩) :
    (p.bind f).run env s =
      ⟨((f a).run env s').result, ((f a).run env s').state, t ++ ((f a).run env s').trace⟩ := by
  have hruns := runs_run env p s
  have hanswers := answers_run env p s
  rw [hp] at hruns hanswers
  exact (runs_bind.2 (Or.inl ⟨a, t, _, rfl, hruns, runs_run env (f a) s'⟩)).run_eq
    (answers_append.2 ⟨s', hanswers, answers_run env (f a) s'⟩)

theorem run_bind_error (hp : p.run env s = ⟨.error e, s', t⟩) : (p.bind f).run env s = ⟨.error e, s', t⟩ := by
  have hruns := runs_run env p s
  have hanswers := answers_run env p s
  rw [hp] at hruns hanswers
  exact (runs_bind.2 (Or.inr ⟨e, rfl, hruns⟩)).run_eq hanswers

theorem run_tryCatch_ok (hp : p.run env s = ⟨.ok a, s', t⟩) : (p.tryCatch h).run env s = ⟨.ok a, s', t⟩ := by
  have hruns := runs_run env p s
  have hanswers := answers_run env p s
  rw [hp] at hruns hanswers
  exact (runs_tryCatch.2 (Or.inl ⟨a, rfl, hruns⟩)).run_eq hanswers

theorem run_tryCatch_error (hp : p.run env s = ⟨.error e, s', t⟩) :
    (p.tryCatch h).run env s =
      ⟨((h e).run env s').result, ((h e).run env s').state, t ++ ((h e).run env s').trace⟩ := by
  have hruns := runs_run env p s
  have hanswers := answers_run env p s
  rw [hp] at hruns hanswers
  exact (runs_tryCatch.2 (Or.inr ⟨e, t, _, rfl, hruns, runs_run env (h e) s'⟩)).run_eq
    (answers_append.2 ⟨s', hanswers, answers_run env (h e) s'⟩)

theorem run_bind_ret {res : Except E α} (g : α → β) (hp : p.run env s = ⟨res, s', t⟩) :
    (p.bind fun a => ret (g a)).run env s = ⟨res.map g, s', t⟩ := by
  cases res with
  | ok a =>
    rw [run_bind_ok hp]
    exact congrArg (Outcome.mk (.ok (g a)) s') (List.append_nil t)
  | error e =>
    rw [run_bind_error hp]
    rfl

theorem run_tryCatch_raise {res : Except E α} (g : E → E) (hp : p.run env s = ⟨res, s', t⟩) :
    (p.tryCatch fun e => raise (g e)).run env s = ⟨res.mapError g, s', t⟩ := by
  cases res with
  | ok a =>
    rw [run_tryCatch_ok hp]
    rfl
  | error e =>
    rw [run_tryCatch_error hp]
    exact congrArg (Outcome.mk (.error (g e)) s') (List.append_nil t)

end

/-- In every environment the two programs leave the same trace and state, and related results. -/
theorem Follows.run (h : Follows T Rα Re p q) (env : Env Req Resp E σ) (s : σ) (ht : T (p.run env s).trace) :
    (q.run env s).trace = (p.run env s).trace ∧ (q.run env s).state = (p.run env s).state ∧
      Lift Rα Re (p.run env s).result (q.run env s).result := by
  obtain ⟨res', hq, hres⟩ := h _ _ ht (runs_run env p s)
  rw [hq.run_eq (answers_run env p s)]
  exact ⟨rfl, rfl, hres⟩

end Prog
