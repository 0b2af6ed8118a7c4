import EventusSdk.Lib.Prog

/-!
# Pools of programs

Any number of programs run side by side over a shared world.  A step starts a program, answers the request one of them
is waiting on, or changes the world from outside; a program that has returned or raised stays in the pool.  The label
of a step says what happened: which program was started, which request of which program was answered how (and with
which further information of type `A`, such as clock readings), which outside change took place.

`Step.holds` is the rule for invariants: a property of the world together with a property of each program that the
steps of the other programs respect.
-/

/-- The shared world and the programs, each with what it was started for. -/
structure Pool (τ W Req : Type) (Resp : Req → Type) (E α : Type) where
  world : W
  tasks : List (τ × Prog Req Resp E α)

namespace Pool

variable {τ W A O Req : Type} {Resp : Req → Type} {E α : Type}

inductive Label (τ Req : Type) (Resp : Req → Type) (E A O : Type) where
  | start (t : τ)
  | serve (i : Nat) (call : Prog.Event Req Resp E) (a : A)
  | outside (o : O)

/-- What the programs are, and how the world answers them and changes. -/
structure System (τ W A O Req : Type) (Resp : Req → Type) (E α : Type) where
  program : τ → Prog Req Resp E α
  serve : W → Nat → Prog.Event Req Resp E → A → W → Prop
  outside : W → O → W → Prop

inductive Step (S : System τ W A O Req Resp E α) :
    Pool τ W Req Resp E α → Label τ Req Resp E A O → Pool τ W Req Resp E α → Prop where
  | start (P : Pool τ W Req Resp E α) (t : τ) : Step S P (.start t) ⟨P.world, P.tasks ++ [(t, S.program t)]⟩
  | serve {P : Pool τ W Req Resp E α} {i : Nat} {t : τ} {r : Req} {k : Except E (Resp r) → Prog Req Resp E α}
      {x : Except E (Resp r)} {a : A} {w : W} (hi : P.tasks[i]? = some (t, .call r k))
      (hw : S.serve P.world i ⟨r, x⟩ a w) : Step S P (.serve i ⟨r, x⟩ a) ⟨w, P.tasks.set i (t, k x)⟩
  | outside {P : Pool τ W Req Resp E α} {o : O} {w : W} (hw : S.outside P.world o w) :
      Step S P (.outside o) ⟨w, P.tasks⟩

/-- `I` holds of the world and of the number of programs, `J` of each program. -/
def Holds (I : W → Nat → Prop) (J : W → Nat → τ → Prog Req Resp E α → Prop) (P : Pool τ W Req Resp E α) : Prop :=
  I P.world P.tasks.length ∧ ∀ i t p, P.tasks[i]? = some (t, p) → J P.world i t p

variable {S : System τ W A O Req Resp E α} {P Q : Pool τ W Req Resp E α} {l : Label τ Req Resp E A O}

theorem Step.holds {I : W → Nat → Prop} {J : W → Nat → τ → Prog Req Resp E α → Prop}
    (hstart : ∀ w n t, I w n → I w (n + 1) ∧ J w n t (S.program t))
    (hserve : ∀ w n i t r k x a w', I w n → i < n → J w i t (.call r k) → S.serve w i ⟨r, x⟩ a w' →
      I w' n ∧ J w' i t (k x) ∧ ∀ j u p, j ≠ i → J w j u p → J w' j u p)
    (houtside : ∀ w n o w', I w n → S.outside w o w' → I w' n ∧ ∀ j u p, J w j u p → J w' j u p)
    (hP : Holds I J P) (h : Step S P l Q) : Holds I J Q := by
  obtain ⟨hI, hJ⟩ := hP
  cases h with
  | start t =>
    obtain ⟨hI', hnew⟩ := hstart _ _ t hI
    refine ⟨by simpa using hI', fun i u p hi => ?_⟩
    rw [List.getElem?_append] at hi
    split at hi
    · exact hJ i u p hi
    · next hlen =>
      have hi' : i - P.tasks.length = 0 := by
        have := (List.getElem?_eq_some_iff.1 hi).1
        simp at this
        omega
      rw [hi'] at hi
      cases hi
      have : i = P.tasks.length := by omega
      exact this ▸ hnew
  | @serve i t r k x a w hi hw =>
    have hlt : i < P.tasks.length := (List.getElem?_eq_some_iff.1 hi).1
    obtain ⟨hI', hserved, hothers⟩ := hserve _ _ _ _ _ _ _ _ _ hI hlt (hJ _ _ _ hi) hw
    refine ⟨by simpa using hI', fun j u p hj => ?_⟩
    by_cases hji : j = i
    · subst hji
      rw [List.getElem?_set_self hlt] at hj
      cases hj
      exact hserved
    · rw [List.getElem?_set_ne (Ne.symm hji)] at hj
      exact hothers j u p hji (hJ j u p hj)
  | outside hw =>
    obtain ⟨hI', hothers⟩ := houtside _ _ _ _ hI hw
    exact ⟨hI', fun j u p hj => hothers j u p (hJ j u p hj)⟩

/-- The step of a program that waits on an answer. -/
theorem Step.serve_inv {i : Nat} {t : τ} {r : Req} {k : Except E (Resp r) → Prog Req Resp E α}
    {call : Prog.Event Req Resp E} {a : A} (h : Step S P (.serve i call a) Q)
    (hi : P.tasks[i]? = some (t, .call r k)) :
    ∃ x w, call = ⟨r, x⟩ ∧ S.serve P.world i ⟨r, x⟩ a w ∧ Q = ⟨w, P.tasks.set i (t, k x)⟩ := by
  cases h with
  | serve hi' hw =>
    rw [hi] at hi'
    cases hi'
    exact ⟨_, _, rfl, hw, rfl⟩

/-- A program that has returned stays as it is. -/
theorem Step.returned {i : Nat} {t : τ} {a : α} (h : Step S P l Q) (hi : P.tasks[i]? = some (t, .ret a)) :
    Q.tasks[i]? = some (t, .ret a) := by
  cases h with
  | start u =>
    rw [List.getElem?_append_left (List.getElem?_eq_some_iff.1 hi).1]
    exact hi
  | @serve j u r k x a' w hj hw =>
    have hne : j ≠ i := by
      rintro rfl
      rw [hi] at hj
      cases hj
    rw [List.getElem?_set_ne hne]
    exact hi
  | outside hw => exact hi

end Pool
