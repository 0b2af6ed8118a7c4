import Mathlib.Data.List.Forall2
import EventusSdk.Lib.Follows

/-!
# Programs that ask related requests

Two programs that go on side by side: they ask related requests, and as long as the answers are related too, they come
to related results.  Unlike in `Follows`, the requests themselves may differ, in what nobody is to depend on.  In an
environment that answers related requests alike, the two programs leave the same state, and related traces.
-/

namespace Prog

variable {Req : Type} {Resp : Req → Type} {E α α' β β' σ : Type}

/-- Which requests are related, and which answers to them. -/
structure Link (Req : Type) (Resp : Req → Type) (E : Type) where
  req : Req → Req → Prop
  ans : (r r' : Req) → Except E (Resp r) → Except E (Resp r') → Prop

inductive Related (L : Link Req Resp E) (Q : α → α' → Prop) : Prog Req Resp E α → Prog Req Resp E α' → Prop where
  | ret {a : α} {a' : α'} (h : Q a a') : Related L Q (ret a) (ret a')
  | raise (e : E) : Related L Q (raise e) (raise e)
  | call {r r' : Req} {k : Except E (Resp r) → Prog Req Resp E α} {k' : Except E (Resp r') → Prog Req Resp E α'}
      (hr : L.req r r') (hk : ∀ x x', L.ans r r' x x' → Related L Q (k x) (k' x')) : Related L Q (call r k) (call r' k')

variable {L : Link Req Resp E} {Q : α → α' → Prop} {R : β → β' → Prop} {p : Prog Req Resp E α}
  {p' : Prog Req Resp E α'}

theorem Related.bind (hp : Related L Q p p') {f : α → Prog Req Resp E β} {f' : α' → Prog Req Resp E β'}
    (hf : ∀ a a', Q a a' → Related L R (f a) (f' a')) : Related L R (p.bind f) (p'.bind f') := by
  induction hp with
  | ret h => exact hf _ _ h
  | raise e => exact .raise e
  | call hr _ ih => exact .call hr ih

theorem Related.tryCatch (hp : Related L Q p p') {h : E → Prog Req Resp E α} {h' : E → Prog Req Resp E α'}
    (hh : ∀ e, Related L Q (h e) (h' e)) : Related L Q (p.tryCatch h) (p'.tryCatch h') := by
  induction hp with
  | ret h => exact .ret h
  | raise e => exact hh e
  | call hr _ ih => exact .call hr ih

theorem Related.request {r r' : Req} {Q : Resp r → Resp r' → Prop} (hr : L.req r r')
    (hans : ∀ x x', L.ans r r' x x' → Lift Q Eq x x') : Related L Q (request r) (request r') := by
  refine .call hr fun x x' hx => ?_
  cases hans x x' hx with
  | ok ha => exact .ret ha
  | error he =>
    subst he
    exact .raise _

/-- The environment answers related requests alike. -/
def Respects (L : Link Req Resp E) (env : Env Req Resp E σ) : Prop :=
  ∀ r r' s, L.req r r' → L.ans r r' (env r s).1 (env r' s).1 ∧ (env r s).2 = (env r' s).2

/-- Related requests with related answers. -/
def Link.Events (L : Link Req Resp E) (ev ev' : Event Req Resp E) : Prop :=
  L.req ev.1 ev'.1 ∧ L.ans ev.1 ev'.1 ev.2 ev'.2

theorem Related.run (hp : Related L Q p p') {env : Env Req Resp E σ} (henv : Respects L env) (s : σ) :
    Lift Q Eq (p.run env s).result (p'.run env s).result ∧ (p.run env s).state = (p'.run env s).state ∧
      List.Forall₂ L.Events (p.run env s).trace (p'.run env s).trace := by
  induction hp generalizing s with
  | ret h => exact ⟨.ok h, rfl, .nil⟩
  | raise e => exact ⟨.error rfl, rfl, .nil⟩
  | @call r r' k k' hr _ ih =>
    obtain ⟨hans, hstate⟩ := henv r r' s hr
    obtain ⟨hres, hfinal, htrace⟩ := ih _ _ hans (env r s).2
    rw [run_call, run_call, ← hstate]
    exact ⟨hres, hfinal, .cons ⟨hr, hans⟩ htrace⟩

end Prog
