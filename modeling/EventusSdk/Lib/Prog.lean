/-!
# Programs over requests

A program computes, asks its surroundings for something (a request `r`, answered with a value of type `Resp r` or
with an exception) and goes on with the answer.  Who answers is left open.  `Runs` lets every answer through, so a
statement about all runs is a statement about all surroundings; `run` takes the answers from an environment with a
state of its own, so that two programs can be compared in the same surroundings.  The main facts say how a run of
`bind` and of `tryCatch` splits into runs of the parts.
-/

/-- A program over the requests `Req`, with exceptions `E` and results `α`. -/
inductive Prog (Req : Type) (Resp : Req → Type) (E α : Type) where
  | ret (a : α)
  | raise (e : E)
  | call (r : Req) (k : Except E (Resp r) → Prog Req Resp E α)

namespace Prog

variable {Req : Type} {Resp : Req → Type} {E α β γ σ : Type}

/-- A request together with its answer. -/
abbrev Event (Req : Type) (Resp : Req → Type) (E : Type) := (r : Req) × Except E (Resp r)

/-- Run the first program; its result, if it returns one, goes to the second. -/
def bind : Prog Req Resp E α → (α → Prog Req Resp E β) → Prog Req Resp E β
  | .ret a, f => f a
  | .raise e, _ => .raise e
  | .call r k, f => .call r fun x => (k x).bind f

/-- Run the program; an exception that leaves it goes to the handler. -/
def tryCatch : Prog Req Resp E α → (E → Prog Req Resp E α) → Prog Req Resp E α
  | .ret a, _ => .ret a
  | .raise e, h => h e
  | .call r k, h => .call r fun x => (k x).tryCatch h

/-- Make a request and return its answer. -/
def request (r : Req) : Prog Req Resp E (Resp r) :=
  .call r fun
    | .ok a => .ret a
    | .error e => .raise e

instance : Monad (Prog Req Resp E) where
  pure := ret
  bind := bind

@[simp] theorem bind_eq (p : Prog Req Resp E α) (f : α → Prog Req Resp E β) : (p >>= f) = p.bind f := rfl

@[simp] theorem ret_bind (a : α) (f : α → Prog Req Resp E β) : (ret a : Prog Req Resp E α).bind f = f a := rfl

@[simp] theorem raise_bind (e : E) (f : α → Prog Req Resp E β) :
    (raise e : Prog Req Resp E α).bind f = raise e := rfl

@[simp] theorem call_bind (r : Req) (k : Except E (Resp r) → Prog Req Resp E α) (f : α → Prog Req Resp E β) :
    (call r k).bind f = call r fun x => (k x).bind f := rfl

theorem bind_assoc (p : Prog Req Resp E α) (f : α → Prog Req Resp E β) (g : β → Prog Req Resp E γ) :
    (p.bind f).bind g = p.bind fun a => (f a).bind g := by
  induction p with
  | ret a => rfl
  | raise e => rfl
  | call r k ih => exact congrArg (call r) (funext ih)

@[simp] theorem ret_tryCatch (a : α) (h : E → Prog Req Resp E α) :
    (ret a : Prog Req Resp E α).tryCatch h = ret a := rfl

@[simp] theorem raise_tryCatch (e : E) (h : E → Prog Req Resp E α) :
    (raise e : Prog Req Resp E α).tryCatch h = h e := rfl

@[simp] theorem call_tryCatch (r : Req) (k : Except E (Resp r) → Prog Req Resp E α) (h : E → Prog Req Resp E α) :
    (call r k).tryCatch h = call r fun x => (k x).tryCatch h := rfl

theorem tryCatch_raise (p : Prog Req Resp E α) : p.tryCatch raise = p := by
  induction p with
  | ret a => rfl
  | raise e => rfl
  | call r k ih => exact congrArg (call r) (funext ih)

theorem tryCatch_tryCatch (p : Prog Req Resp E α) (h h' : E → Prog Req Resp E α) :
    (p.tryCatch h).tryCatch h' = p.tryCatch fun e => (h e).tryCatch h' := by
  induction p with
  | ret a => rfl
  | raise e => rfl
  | call r k ih => exact congrArg (call r) (funext ih)

/-! ### Runs with every answer let through -/

/-- `p.Runs t res`: answering the requests of `p` as `t` lists them brings `p` to the result `res`. -/
def Runs : Prog Req Resp E α → List (Event Req Resp E) → Except E α → Prop
  | .ret a, t, res => t = [] ∧ res = .ok a
  | .raise e, t, res => t = [] ∧ res = .error e
  | .call r k, t, res => ∃ x t', t = ⟨r, x⟩ :: t' ∧ (k x).Runs t' res

@[simp] theorem runs_ret {a : α} {t : List (Event Req Resp E)} {res : Except E α} :
    (ret a : Prog Req Resp E α).Runs t res ↔ t = [] ∧ res = .ok a := Iff.rfl

@[simp] theorem runs_raise {e : E} {t : List (Event Req Resp E)} {res : Except E α} :
    (raise e : Prog Req Resp E α).Runs t res ↔ t = [] ∧ res = .error e := Iff.rfl

private theorem runs_call {r : Req} {k : Except E (Resp r) → Prog Req Resp E α} {t : List (Event Req Resp E)}
    {res : Except E α} : (call r k).Runs t res ↔ ∃ x t', t = ⟨r, x⟩ :: t' ∧ (k x).Runs t' res := Iff.rfl

theorem runs_request {r : Req} {t : List (Event Req Resp E)} {res : Except E (Resp r)} :
    (request r : Prog Req Resp E _).Runs t res ↔ t = [⟨r, res⟩] := by
  constructor
  · rintro ⟨x, t', rfl, h⟩
    cases x <;> obtain ⟨rfl, rfl⟩ := h <;> rfl
  · rintro rfl
    refine ⟨res, [], rfl, ?_⟩
    cases res <;> exact ⟨rfl, rfl⟩

/-- A run of `bind` is a run of the first program that raises, or a returning run followed by one of the second. -/
theorem runs_bind {p : Prog Req Resp E α} {f : α → Prog Req Resp E β} {t : List (Event Req Resp E)}
    {res : Except E β} : (p.bind f).Runs t res ↔
      (∃ a t₁ t₂, t = t₁ ++ t₂ ∧ p.Runs t₁ (.ok a) ∧ (f a).Runs t₂ res) ∨
      (∃ e, res = .error e ∧ p.Runs t (.error e)) := by
  induction p generalizing t with
  | ret a =>
    simp only [ret_bind, runs_ret, Except.ok.injEq, reduceCtorEq, and_false, exists_false, or_false]
    exact ⟨fun h => ⟨a, [], t, rfl, ⟨rfl, rfl⟩, h⟩, fun ⟨_, _, _, ht, ⟨h₁, h₂⟩, h⟩ => by subst h₁ h₂ ht; exact h⟩
  | raise e =>
    simp only [raise_bind, runs_raise, reduceCtorEq, and_false, false_and, exists_false, false_or, Except.error.injEq]
    exact ⟨fun ⟨ht, hr⟩ => ⟨e, hr, ht, rfl⟩, fun ⟨_, hr, ht, he⟩ => ⟨ht, he ▸ hr⟩⟩
  | call r k ih =>
    simp only [call_bind, runs_call, ih]
    constructor
    · rintro ⟨x, t', rfl, ⟨a, t₁, t₂, rfl, h₁, h₂⟩ | ⟨e, rfl, h⟩⟩
      · exact Or.inl ⟨a, ⟨r, x⟩ :: t₁, t₂, rfl, ⟨x, t₁, rfl, h₁⟩, h₂⟩
      · exact Or.inr ⟨e, rfl, x, t', rfl, h⟩
    · rintro (⟨a, t₁, t₂, rfl, ⟨x, t', rfl, h₁⟩, h₂⟩ | ⟨e, rfl, x, t', rfl, h⟩)
      · exact ⟨x, t' ++ t₂, rfl, Or.inl ⟨a, t', t₂, rfl, h₁, h₂⟩⟩
      · exact ⟨x, t', rfl, Or.inr ⟨e, rfl, h⟩⟩

/-- A run of `tryCatch` is a returning run of the body, or a raising one followed by a run of the handler. -/
theorem runs_tryCatch {p : Prog Req Resp E α} {h : E → Prog Req Resp E α} {t : List (Event Req Resp E)}
    {res : Except E α} : (p.tryCatch h).Runs t res ↔
      (∃ a, res = .ok a ∧ p.Runs t (.ok a)) ∨
      (∃ e t₁ t₂, t = t₁ ++ t₂ ∧ p.Runs t₁ (.error e) ∧ (h e).Runs t₂ res) := by
  induction p generalizing t with
  | ret a =>
    simp only [ret_tryCatch, runs_ret, reduceCtorEq, and_false, false_and, exists_false, or_false, Except.ok.injEq]
    exact ⟨fun ⟨ht, hr⟩ => ⟨a, hr, ht, rfl⟩, fun ⟨_, hr, ht, ha⟩ => ⟨ht, ha ▸ hr⟩⟩
  | raise e =>
    simp only [raise_tryCatch, runs_raise, Except.error.injEq, reduceCtorEq, and_false, exists_false, false_or]
    exact ⟨fun h' => ⟨e, [], t, rfl, ⟨rfl, rfl⟩, h'⟩, fun ⟨_, _, _, ht, ⟨h₁, h₂⟩, h'⟩ => by subst h₁ h₂ ht; exact h'⟩
  | call r k ih =>
    simp only [call_tryCatch, runs_call, ih]
    constructor
    · rintro ⟨x, t', rfl, ⟨a, rfl, ha⟩ | ⟨e, t₁, t₂, rfl, h₁, h₂⟩⟩
      · exact Or.inl ⟨a, rfl, x, t', rfl, ha⟩
      · exact Or.inr ⟨e, ⟨r, x⟩ :: t₁, t₂, rfl, ⟨x, t₁, rfl, h₁⟩, h₂⟩
    · rintro (⟨a, rfl, x, t', rfl, ha⟩ | ⟨e, t₁, t₂, rfl, ⟨x, t', rfl, h₁⟩, h₂⟩)
      · exact ⟨x, t', rfl, Or.inl ⟨a, rfl, ha⟩⟩
      · exact ⟨x, t' ++ t₂, rfl, Or.inr ⟨e, t', t₂, rfl, h₁, h₂⟩⟩

/-! ### Runs in an environment -/

/-- What a run leaves behind: its result, the state of the environment and the requests with their answers. -/
structure Outcome (Req : Type) (Resp : Req → Type) (E σ α : Type) where
  result : Except E α
  state : σ
  trace : List (Event Req Resp E)

/-- An environment answers each request and may change its state in doing so. -/
abbrev Env (Req : Type) (Resp : Req → Type) (E σ : Type) := (r : Req) → σ → Except E (Resp r) × σ

/-- Run a program in an environment. -/
def run (env : Env Req Resp E σ) : Prog Req Resp E α → σ → Outcome Req Resp E σ α
  | .ret a, s => ⟨.ok a, s, []⟩
  | .raise e, s => ⟨.error e, s, []⟩
  | .call r k, s =>
    let o := (k (env r s).1).run env (env r s).2
    ⟨o.result, o.state, ⟨r, (env r s).1⟩ :: o.trace⟩

@[simp] theorem run_call (env : Env Req Resp E σ) (r : Req) (k : Except E (Resp r) → Prog Req Resp E α) (s : σ) :
    (call r k).run env s =
      ⟨((k (env r s).1).run env (env r s).2).result, ((k (env r s).1).run env (env r s).2).state,
        ⟨r, (env r s).1⟩ :: ((k (env r s).1).run env (env r s).2).trace⟩ := rfl

/-- A run in an environment is one of the runs with every answer let through. -/
theorem runs_run (env : Env Req Resp E σ) (p : Prog Req Resp E α) (s : σ) :
    p.Runs (p.run env s).trace (p.run env s).result := by
  induction p generalizing s with
  | ret a => exact ⟨rfl, rfl⟩
  | raise e => exact ⟨rfl, rfl⟩
  | call r k ih => exact ⟨_, _, rfl, ih _ _⟩

/-! ### What a program may ask for, raise and return -/

/-- As long as the exceptions it is answered with are in `X`, `p` asks only for requests in `A`, raises only exceptions
in `X` and returns only results in `Q`. -/
def Safe (A : Req → Prop) (X : E → Prop) (Q : α → Prop) : Prog Req Resp E α → Prop
  | .ret a => Q a
  | .raise e => X e
  | .call r k => A r ∧ ∀ x, (∀ e, x = .error e → X e) → (k x).Safe A X Q

variable {A : Req → Prop} {X : E → Prop} {Q : α → Prop} {R : β → Prop}

@[simp] theorem safe_ret {a : α} : (ret a : Prog Req Resp E α).Safe A X Q ↔ Q a := Iff.rfl

@[simp] theorem safe_raise {e : E} : (raise e : Prog Req Resp E α).Safe A X Q ↔ X e := Iff.rfl

theorem safe_bind {p : Prog Req Resp E α} {f : α → Prog Req Resp E β} (hp : p.Safe A X Q)
    (hf : ∀ a, Q a → (f a).Safe A X R) : (p.bind f).Safe A X R := by
  induction p with
  | ret a => exact hf a hp
  | raise e => exact hp
  | call r k ih => exact ⟨hp.1, fun x hx => ih x (hp.2 x hx)⟩

theorem safe_tryCatch {p : Prog Req Resp E α} {h : E → Prog Req Resp E α} (hp : p.Safe A X Q)
    (hh : ∀ e, X e → (h e).Safe A X Q) : (p.tryCatch h).Safe A X Q := by
  induction p with
  | ret a => exact hp
  | raise e => exact hh e hp
  | call r k ih => exact ⟨hp.1, fun x hx => ih x (hp.2 x hx)⟩

theorem safe_request {r : Req} (hr : A r) : (request r : Prog Req Resp E _).Safe A X fun _ => True := by
  refine ⟨hr, fun x hx => ?_⟩
  cases x with
  | ok a => trivial
  | error e => exact hx e rfl

theorem safe_true (p : Prog Req Resp E α) : p.Safe (fun _ => True) (fun _ => True) fun _ => True := by
  induction p with
  | ret a => trivial
  | raise e => trivial
  | call r k ih => exact ⟨trivial, fun x _ => ih x⟩

theorem Safe.mono {B : Req → Prop} {Q' : α → Prop} (hA : ∀ r, A r → B r) (hQ : ∀ a, Q a → Q' a)
    {p : Prog Req Resp E α} (hp : p.Safe A X Q) : p.Safe B X Q' := by
  induction p with
  | ret a => exact hQ a hp
  | raise e => exact hp
  | call r k ih => exact ⟨hA r hp.1, fun x hx => ih x (hp.2 x hx)⟩

/-- A run of a safe program, in which the exceptions among the answers are in `X`. -/
theorem Safe.runs {p : Prog Req Resp E α} (hp : p.Safe A X Q) {t : List (Event Req Resp E)} {res : Except E α}
    (h : p.Runs t res) (ht : ∀ ev ∈ t, ∀ e, ev.2 = .error e → X e) :
    (∀ ev ∈ t, A ev.1) ∧ (∀ e, res = .error e → X e) ∧ ∀ a, res = .ok a → Q a := by
  induction p generalizing t with
  | ret a =>
    obtain ⟨rfl, rfl⟩ := h
    exact ⟨by simp, by simp, by rintro b ⟨⟩; exact hp⟩
  | raise e =>
    obtain ⟨rfl, rfl⟩ := h
    exact ⟨by simp, by rintro e' ⟨⟩; exact hp, by simp⟩
  | call r k ih =>
    obtain ⟨x, t', rfl, h⟩ := h
    have hx : ∀ e, x = .error e → X e := ht _ (List.mem_cons_self ..)
    obtain ⟨h₁, h₂⟩ := ih x (hp.2 x hx) h fun ev hev => ht ev (List.mem_cons_of_mem _ hev)
    refine ⟨fun ev hev => ?_, h₂⟩
    rcases List.mem_cons.1 hev with rfl | hev
    · exact hp.1
    · exact h₁ ev hev

/-- A safe program that is answered the same in every state of the environment, in which the answers change nothing,
runs alike in all of them. -/
theorem Safe.run {p : Prog Req Resp E α} (hp : p.Safe A X Q) {env : Env Req Resp E σ}
    (henv : ∀ r, A r → ∃ x, (∀ s, env r s = (x, s)) ∧ ∀ e, x = .error e → X e) :
    ∃ res t, (∀ s, p.run env s = ⟨res, s, t⟩) ∧ (∀ e, res = .error e → X e) ∧ ∀ a, res = .ok a → Q a := by
  induction p with
  | ret a =>
    refine ⟨.ok a, [], fun _ => rfl, by simp, fun b hb => ?_⟩
    obtain rfl := Except.ok.inj hb
    exact hp
  | raise e =>
    refine ⟨.error e, [], fun _ => rfl, fun e' he => ?_, by simp⟩
    obtain rfl := Except.error.inj he
    exact hp
  | call r k ih =>
    obtain ⟨x, hx, hX⟩ := henv r hp.1
    obtain ⟨res, t, hrun, hrest⟩ := ih x (hp.2 x hX)
    refine ⟨res, ⟨r, x⟩ :: t, fun s => ?_, hrest⟩
    rw [run_call, hx, hrun]

/-! ### What a program does before and after one request -/

/-- Whatever the answers are, `p` asks for requests in `A` until it raises or asks for `r₀`; from there on it goes on
with a program in `K x`, where `x` is the answer. -/
inductive Gate (A : Req → Prop) (r₀ : Req) (K : Except E (Resp r₀) → Prog Req Resp E α → Prop) :
    Prog Req Resp E α → Prop where
  | raise (e : E) : Gate A r₀ K (raise e)
  | other {r : Req} {k : Except E (Resp r) → Prog Req Resp E α} (hr : A r) (h : ∀ x, Gate A r₀ K (k x)) :
      Gate A r₀ K (call r k)
  | gate {k : Except E (Resp r₀) → Prog Req Resp E α} (h : ∀ x, K x (k x)) : Gate A r₀ K (call r₀ k)

variable {r₀ : Req} {K : Except E (Resp r₀) → Prog Req Resp E α → Prop}
  {L : Except E (Resp r₀) → Prog Req Resp E β → Prop}

theorem Gate.bind_left {p : Prog Req Resp E α} {f : α → Prog Req Resp E β} (hp : p.Safe A (fun _ => True) Q)
    (hf : ∀ a, Q a → Gate A r₀ L (f a)) : Gate A r₀ L (p.bind f) := by
  induction p with
  | ret a => exact hf a hp
  | raise e => exact .raise e
  | call r k ih => exact .other hp.1 fun x => ih x (hp.2 x fun _ _ => trivial)

theorem Gate.other_inv {r : Req} {k : Except E (Resp r) → Prog Req Resp E α} (h : Gate A r₀ K (call r k))
    (hr : r ≠ r₀) (x : Except E (Resp r)) : Gate A r₀ K (k x) := by
  cases h with
  | other _ h => exact h x
  | gate _ => exact absurd rfl hr

theorem Gate.gate_inv {k : Except E (Resp r₀) → Prog Req Resp E α} (h : Gate A r₀ K (call r₀ k)) (hr : ¬ A r₀)
    (x : Except E (Resp r₀)) : K x (k x) := by
  cases h with
  | other hA _ => exact absurd hA hr
  | gate h => exact h x

/-- A run that comes to the gate asks for `r₀` once, and goes on behind it. -/
theorem Gate.runs {p : Prog Req Resp E α} (h : Gate A r₀ K p) {t : List (Event Req Resp E)} {res : Except E α}
    (hrun : p.Runs t res) :
    (∀ ev ∈ t, A ev.1) ∨ ∃ t₁ x t₂ q, t = t₁ ++ ⟨r₀, x⟩ :: t₂ ∧ (∀ ev ∈ t₁, A ev.1) ∧ K x q ∧ q.Runs t₂ res := by
  induction h generalizing t with
  | raise e =>
    obtain ⟨rfl, -⟩ := hrun
    exact Or.inl (by simp)
  | @other r k hr _ ih =>
    obtain ⟨x, t', rfl, hrun⟩ := hrun
    rcases ih x hrun with hA | ⟨t₁, y, t₂, q, rfl, hA, hK, hq⟩
    · exact Or.inl (List.forall_mem_cons.2 ⟨hr, hA⟩)
    · exact Or.inr ⟨⟨r, x⟩ :: t₁, y, t₂, q, rfl, List.forall_mem_cons.2 ⟨hr, hA⟩, hK, hq⟩
  | gate h =>
    obtain ⟨x, t', rfl, hrun⟩ := hrun
    exact Or.inr ⟨[], x, t', _, rfl, by simp, h x, hrun⟩

/-! ### What goes before a request -/

/-- Each event of the trace satisfies `G` together with what went before it, `before` included. -/
def Preceded (G : List (Event Req Resp E) → Event Req Resp E → Prop) :
    List (Event Req Resp E) → List (Event Req Resp E) → Prop
  | _, [] => True
  | before, ev :: t => G before ev ∧ Preceded G (before ++ [ev]) t

theorem preceded_iff {G : List (Event Req Resp E) → Event Req Resp E → Prop} {before t : List (Event Req Resp E)} :
    Preceded G before t ↔ ∀ t₁ ev t₂, t = t₁ ++ ev :: t₂ → G (before ++ t₁) ev := by
  induction t generalizing before with
  | nil => simp [Preceded]
  | cons ev t ih =>
    rw [Preceded, ih]
    constructor
    · rintro ⟨h, ht⟩ t₁ ev' t₂ heq
      cases t₁ with
      | nil => cases heq; simpa using h
      | cons ev₁ t₁ =>
        cases heq
        simpa using ht t₁ ev' t₂ rfl
    · intro h
      exact ⟨by simpa using h [] ev t rfl, fun t₁ ev' t₂ heq => by simpa using h (ev :: t₁) ev' t₂ (by simp [heq])⟩

theorem preceded_append {G : List (Event Req Resp E) → Event Req Resp E → Prop}
    {before t₁ t₂ : List (Event Req Resp E)} :
    Preceded G before (t₁ ++ t₂) ↔ Preceded G before t₁ ∧ Preceded G (before ++ t₁) t₂ := by
  induction t₁ generalizing before with
  | nil => simp [Preceded]
  | cons ev t₁ ih => rw [List.cons_append, Preceded, Preceded, ih, List.append_assoc, and_assoc]; rfl

theorem preceded_of_forall {G : List (Event Req Resp E) → Event Req Resp E → Prop}
    {before t : List (Event Req Resp E)} (h : ∀ ev ∈ t, ∀ before, G before ev) : Preceded G before t := by
  induction t generalizing before with
  | nil => trivial
  | cons ev t ih =>
    exact ⟨h ev (List.mem_cons_self ..) before, ih fun ev' hev => h ev' (List.mem_cons_of_mem _ hev)⟩

end Prog
