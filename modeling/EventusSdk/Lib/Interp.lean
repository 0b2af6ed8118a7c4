import EventusSdk.Lib.Follows

/-!
# Programs that carry out the requests of others

`interp h p` is `p` with every request `r` carried out by the program `h r`, which makes requests of another kind: what
`h r` returns or raises is the answer to `r`.  If `h` does in one environment what another environment answers, `interp
h p` does there what `p` does in the other.
-/

namespace Prog

variable {Req Req' : Type} {Resp : Req → Type} {Resp' : Req' → Type} {E α σ σ' : Type}

/-- Run the program and return its result, be it an exception. -/
def attempt : Prog Req Resp E α → Prog Req Resp E (Except E α)
  | .ret a => .ret (.ok a)
  | .raise e => .ret (.error e)
  | .call r k => .call r fun x => (k x).attempt

def interp (h : (r : Req) → Prog Req' Resp' E (Resp r)) : Prog Req Resp E α → Prog Req' Resp' E α
  | .ret a => .ret a
  | .raise e => .raise e
  | .call r k => (h r).attempt.bind fun x => (k x).interp h

/-- Return or raise. -/
def ofExcept : Except E α → Prog Req Resp E α
  | .ok a => .ret a
  | .error e => .raise e

/-- Go on with what a program has returned, or with the exception it has raised. -/
def resume {β : Type} (f : α → Prog Req Resp E β) (h : E → Prog Req Resp E β) : Except E α → Prog Req Resp E β
  | .ok a => f a
  | .error e => h e

theorem tryCatch_bind {β : Type} (p : Prog Req Resp E α) (h : E → Prog Req Resp E α) (f : α → Prog Req Resp E β) :
    (p.tryCatch h).bind f = p.attempt.bind (resume f fun e => (h e).bind f) := by
  induction p with
  | ret a => rfl
  | raise e => rfl
  | call r k ih => exact congrArg (call r) (funext ih)

theorem run_ofExcept (env : Env Req Resp E σ) (x : Except E α) (s : σ) : (ofExcept x).run env s = ⟨x, s, []⟩ := by
  cases x <;> rfl

private theorem run_attempt (env : Env Req Resp E σ) (p : Prog Req Resp E α) (s : σ) :
    p.attempt.run env s = ⟨.ok (p.run env s).result, (p.run env s).state, (p.run env s).trace⟩ := by
  induction p generalizing s with
  | ret a => rfl
  | raise e => rfl
  | call r k ih => rw [attempt, run_call, run_call, ih]

/-- What holds between the states of the two environments is kept, the results are the same, and in the trace one sees
what there is to see of each request. -/
theorem run_interp {τ : Type} {env : Env Req Resp E σ} {env' : Env Req' Resp' E σ'}
    {h : (r : Req) → Prog Req' Resp' E (Resp r)} {Rel : σ → σ' → Prop} {view : Event Req' Resp' E → τ}
    {seen : Req → List τ}
    (hh : ∀ r s s', Rel s s' → ((h r).run env' s').result = (env r s).1 ∧
      Rel (env r s).2 ((h r).run env' s').state ∧ ((h r).run env' s').trace.map view = seen r)
    (p : Prog Req Resp E α) {s : σ} {s' : σ'} (hs : Rel s s') :
    ((p.interp h).run env' s').result = (p.run env s).result ∧
      Rel (p.run env s).state ((p.interp h).run env' s').state ∧
      ((p.interp h).run env' s').trace.map view = (p.run env s).trace.flatMap fun ev => seen ev.1 := by
  induction p generalizing s s' with
  | ret a => exact ⟨rfl, hs, rfl⟩
  | raise e => exact ⟨rfl, hs, rfl⟩
  | call r k ih =>
    obtain ⟨hres, hrel, hseen⟩ := hh r s s' hs
    have hrun := run_bind_ok (f := fun x => (k x).interp h) (run_attempt env' (h r) s')
    obtain ⟨hres', hrel', hseen'⟩ := ih _ hrel
    rw [interp, hrun, run_call, hres]
    refine ⟨hres', hrel', ?_⟩
    rw [List.map_append, hseen, hseen']
    rfl

end Prog
