import EventusSdk.Lib.Prog

/-!
# Failures that come to the surface

A program is answered with an exception.  It may catch it and go on, or let it out, as it is or as another one.  A
program *surfaces* along a relation `R` if that depends on the request alone: where `R` relates the request and its
exception to some exception, the program raises such a one at once, where it does not, the program goes on, and it never
raises anything of its own accord.  Whether a run raises can then be read off its last answer (`Surfaces.raises`).
-/

namespace Prog

variable {Req : Type} {Resp : Req → Type} {E α β : Type}

def Surfaces (R : Req → E → E → Prop) : Prog Req Resp E α → Prop
  | .ret _ => True
  | .raise _ => False
  | .call r k => (∀ a, (k (.ok a)).Surfaces R) ∧
      ∀ e, (∃ e', R r e e' ∧ k (.error e) = .raise e') ∨ ((∀ e', ¬ R r e e') ∧ (k (.error e)).Surfaces R)

section
variable {R S : Req → E → E → Prop} {A : Req → Prop} {p : Prog Req Resp E α}

theorem surfaces_request {r : Req} (hr : ∀ e, R r e e) : (request r : Prog Req Resp E _).Surfaces R :=
  ⟨fun _ => trivial, fun e => Or.inl ⟨e, hr e, rfl⟩⟩

theorem surfaces_bind {f : α → Prog Req Resp E β} (hp : p.Surfaces R) (hf : ∀ a, (f a).Surfaces R) :
    (p.bind f).Surfaces R := by
  induction p with
  | ret a => exact hf a
  | raise e => exact hp.elim
  | call r k ih =>
    refine ⟨fun a => ih _ (hp.1 a), fun e => ?_⟩
    rcases hp.2 e with ⟨e', hR, hk⟩ | ⟨hR, hk⟩
    · refine Or.inl ⟨e', hR, ?_⟩
      show (k (.error e)).bind f = .raise e'
      rw [hk]
      rfl
    · exact Or.inr ⟨hR, ih _ hk⟩

/-- An `except` clause lets out what it raises for an exception that comes to it; where it goes on, so does the
program. -/
theorem surfaces_tryCatch {h : E → Prog Req Resp E α} (hA : p.Safe A (fun _ => True) fun _ => True)
    (hp : p.Surfaces R)
    (hin : ∀ r e e', A r → R r e e' →
      (∃ e'', S r e e'' ∧ h e' = .raise e'') ∨ ((∀ e'', ¬ S r e e'') ∧ (h e').Surfaces S))
    (hout : ∀ r e, A r → (∀ e', ¬ R r e e') → ∀ e', ¬ S r e e') : (p.tryCatch h).Surfaces S := by
  induction p with
  | ret a => trivial
  | raise e => exact hp.elim
  | call r k ih =>
    refine ⟨fun a => ih _ (hA.2 _ fun _ _ => trivial) (hp.1 a), fun e => ?_⟩
    rcases hp.2 e with ⟨e', hR, hk⟩ | ⟨hR, hk⟩
    · show (∃ e', S r e e' ∧ (k (.error e)).tryCatch h = .raise e') ∨
        ((∀ e', ¬ S r e e') ∧ ((k (.error e)).tryCatch h).Surfaces S)
      rw [hk]
      exact hin r e e' hA.1 hR
    · exact Or.inr ⟨hout r e hA.1 hR, ih _ (hA.2 _ fun _ _ => trivial) hk⟩

variable {t : List (Event Req Resp E)} {res : Except E α}

/-- A run that raises does so at its last answer, which is an exception that surfaces; and no such exception comes
before the last answer. -/
theorem Surfaces.raises (hp : p.Surfaces R) (hrun : p.Runs t res) :
    (∀ e', res = .error e' → ∃ t' r e, t = t' ++ [⟨r, .error e⟩] ∧ R r e e') ∧
      ∀ t₁ r e e' t₂, t = t₁ ++ ⟨r, .error e⟩ :: t₂ → R r e e' → t₂ = [] ∧ ∃ e'', R r e e'' ∧ res = .error e'' := by
  induction p generalizing t with
  | ret a =>
    obtain ⟨rfl, rfl⟩ := hrun
    exact ⟨fun e' h => (by cases h), fun t₁ r e e' t₂ h => (by simp at h)⟩
  | raise e => exact hp.elim
  | call r k ih =>
    obtain ⟨x, t', rfl, hrun⟩ := hrun
    -- an answer that surfaces leaves nothing to be run
    have hrest : (k x).Surfaces R ∧ (∀ e e', x = .error e → ¬ R r e e') ∨
        ∃ e e', x = .error e ∧ R r e e' ∧ t' = [] ∧ res = .error e' := by
      cases x with
      | ok a => exact Or.inl ⟨hp.1 a, fun e e' h => by cases h⟩
      | error e =>
        rcases hp.2 e with ⟨e', hR, hk⟩ | ⟨hR, hk⟩
        · rw [hk] at hrun
          exact Or.inr ⟨e, e', rfl, hR, hrun.1, hrun.2⟩
        · exact Or.inl ⟨hk, fun e₀ e' h => by cases h; exact hR e'⟩
    rcases hrest with ⟨hk, hx⟩ | ⟨e, e', rfl, hR, rfl, rfl⟩
    · obtain ⟨hraises, hends⟩ := ih x hk hrun
      constructor
      · intro e' he'
        obtain ⟨t'', r', e, rfl, hR⟩ := hraises e' he'
        exact ⟨⟨r, x⟩ :: t'', r', e, rfl, hR⟩
      · intro t₁ r' e e' t₂ ht hR
        cases t₁ with
        | nil =>
          cases ht
          exact absurd hR (hx e e' rfl)
        | cons ev t₁ =>
          cases ht
          exact hends t₁ r' e e' t₂ rfl hR
    · constructor
      · intro e'' he''
        cases he''
        exact ⟨[], r, e, rfl, hR⟩
      · intro t₁ r' e₁ e'' t₂ ht hR'
        cases t₁ with
        | nil =>
          cases ht
          exact ⟨rfl, e', hR, rfl⟩
        | cons ev t₁ => simp at ht

end

end Prog
