import Mathlib.Data.List.Forall2
import Mathlib.Data.List.Nodup
import Mathlib.Logic.Relation
import Mathlib.Tactic.Ring

/-!
# Depth-first traversals of graphs

A graph is given by the list of children of each node.  `walk` lists a node and then what its children list, one after
the other; on a graph that is no forest it may list a node again, or run for ever.  The recursion is therefore bounded
by an argument, and a listing is what any bound gives.

Adding an edge from `p` to `c` puts the listing of `c` in once for each time `p` is listed (`walk_addEdge`).  So the
listings stay free of repetitions exactly when no node that reaches `p` reaches anything that `c` reaches.
-/

namespace Traversal

variable {α : Type}

/-- The listing of a node, if the recursion is less than `fuel` deep. -/
def walk (children : α → List α) : ℕ → α → Option (List α)
  | 0, _ => none
  | fuel + 1, a => (children a).foldlM (fun visited b => (walk children fuel b).map (visited ++ ·)) [a]

abbrev Reaches (children : α → List α) : α → α → Prop := Relation.ReflTransGen fun a b => b ∈ children a

/-- The listing of the node ends and repeats nothing. -/
def Once (children : α → List α) (a : α) : Prop := ∃ fuel l, walk children fuel a = some l ∧ l.Nodup

/-! ### Listings -/

private theorem forall₂_of_mem {β : Type} {R S : α → β → Prop} {as : List α} {bs : List β} (h : List.Forall₂ R as bs)
    (hRS : ∀ a ∈ as, ∀ b, R a b → S a b) : List.Forall₂ S as bs := by
  induction h with
  | nil => exact .nil
  | cons hR _ ih =>
    rw [List.forall_mem_cons] at hRS
    exact .cons (hRS.1 _ hR) (ih hRS.2)

private theorem foldlM_append {f : α → Option (List α)} {as acc l : List α} :
    as.foldlM (fun visited a => (f a).map (visited ++ ·)) acc = some l ↔
      ∃ ls, List.Forall₂ (fun a l => f a = some l) as ls ∧ l = acc ++ ls.flatten := by
  induction as generalizing acc with
  | nil => simp [eq_comm]
  | cons a as ih =>
    rw [List.foldlM_cons]
    constructor
    · intro h
      obtain ⟨acc', hacc, h⟩ := Option.bind_eq_some_iff.1 h
      obtain ⟨la, ha, rfl⟩ := Option.map_eq_some_iff.1 hacc
      obtain ⟨ls, hls, rfl⟩ := ih.1 h
      exact ⟨la :: ls, .cons ha hls, by simp⟩
    · intro ⟨ls, hls, hl⟩
      cases hls with
      | @cons _ la _ ls ha hls =>
        refine Option.bind_eq_some_iff.2 ⟨acc ++ la, Option.map_eq_some_iff.2 ⟨la, ha, rfl⟩, ?_⟩
        exact ih.2 ⟨ls, hls, by simp [hl]⟩

section
variable {children children' : α → List α} {fuel k : ℕ} {a b c p x : α} {l lc : List α}

theorem walk_succ : walk children (fuel + 1) a = some l ↔
    ∃ ls, List.Forall₂ (fun b l => walk children fuel b = some l) (children a) ls ∧ l = a :: ls.flatten :=
  foldlM_append

private theorem walk_mono (h : walk children fuel a = some l) (k : ℕ) : walk children (fuel + k) a = some l := by
  induction fuel generalizing a l with
  | zero => cases h
  | succ fuel ih =>
    obtain ⟨ls, hls, rfl⟩ := walk_succ.1 h
    rw [Nat.add_right_comm, walk_succ]
    exact ⟨ls, forall₂_of_mem hls fun b _ _ hb => ih hb, rfl⟩

/-- A node has one listing. -/
private theorem walk_unique {l' : List α} (h : walk children fuel a = some l) (h' : walk children k a = some l') :
    l = l' := by
  have h₁ := walk_mono h k
  have h₂ := walk_mono h' fuel
  rw [Nat.add_comm] at h₂
  exact Option.some.inj (h₁.symm.trans h₂)

private theorem walk_congr (h : walk children fuel a = some l)
    (hc : ∀ x, Reaches children a x → children' x = children x) : walk children' fuel a = some l := by
  induction fuel generalizing a l with
  | zero => cases h
  | succ fuel ih =>
    obtain ⟨ls, hls, rfl⟩ := walk_succ.1 h
    rw [walk_succ, hc a .refl]
    exact ⟨ls, forall₂_of_mem hls fun b hb _ hwalk => ih hwalk fun x hx => hc x (.head hb hx), rfl⟩

/-- A listing holds what the node reaches. -/
theorem mem_walk (h : walk children fuel a = some l) : x ∈ l ↔ Reaches children a x := by
  induction fuel generalizing a l with
  | zero => cases h
  | succ fuel ih =>
    obtain ⟨ls, hls, rfl⟩ := walk_succ.1 h
    have hflat : ∀ {as : List α} {ls : List (List α)},
        List.Forall₂ (fun b l => walk children fuel b = some l) as ls →
        (x ∈ ls.flatten ↔ ∃ b ∈ as, Reaches children b x) := by
      intro as ls hls
      induction hls with
      | nil => simp
      | cons hb _ ihls => rw [List.flatten_cons, List.mem_append, ihls, ih hb, List.exists_mem_cons_iff]
    have hhead : Reaches children a x ↔ a = x ∨ ∃ b, b ∈ children a ∧ Reaches children b x :=
      Relation.ReflTransGen.cases_head_iff
    rw [List.mem_cons, hflat hls, hhead, eq_comm]

/-- Whatever a node reaches is listed by a recursion less deep. -/
private theorem walk_below (h : walk children fuel a = some l)
    (hab : Relation.TransGen (fun a b => b ∈ children a) a b) :
    ∃ fuel' l', fuel' < fuel ∧ walk children fuel' b = some l' := by
  have hstep : ∀ {fuel : ℕ} {a b : α} {l : List α}, walk children fuel a = some l → b ∈ children a →
      ∃ fuel' l', fuel' < fuel ∧ walk children fuel' b = some l' := by
    intro fuel a b l h hb
    cases fuel with
    | zero => cases h
    | succ fuel =>
      obtain ⟨ls, hls, -⟩ := walk_succ.1 h
      obtain ⟨i, hi, rfl⟩ := List.getElem_of_mem hb
      exact ⟨fuel, _, Nat.lt_succ_self fuel, (List.forall₂_iff_get.1 hls).2 i hi (by rwa [← hls.length_eq])⟩
  induction hab with
  | single hb => exact hstep h hb
  | tail _ hb ih =>
    obtain ⟨fuel₁, l₁, hlt₁, h₁⟩ := ih
    obtain ⟨fuel₂, l₂, hlt₂, h₂⟩ := hstep h₁ hb
    exact ⟨fuel₂, l₂, by omega, h₂⟩

/-- A node on a cycle has no listing. -/
private theorem walk_cycle (hcycle : Relation.TransGen (fun a b => b ∈ children a) a a) (fuel : ℕ) :
    walk children fuel a = none := by
  induction fuel using Nat.strongRecOn with
  | ind fuel ih =>
    rw [Option.eq_none_iff_forall_ne_some]
    intro l h
    obtain ⟨fuel', l', hlt, h'⟩ := walk_below h hcycle
    rw [ih fuel' hlt] at h'
    cases h'

theorem not_once_of_cycle (hcycle : Relation.TransGen (fun a b => b ∈ children a) a a) : ¬ Once children a := by
  intro ⟨fuel, l, h, _⟩
  rw [walk_cycle hcycle] at h
  cases h

theorem once_of_leaf (h : children a = []) : Once children a := by
  refine ⟨1, [a], walk_succ.2 ⟨[], ?_, rfl⟩, List.nodup_singleton a⟩
  rw [h]
  exact .nil

/-! ### Adding an edge -/

variable [DecidableEq α]

/-- `c` becomes the last child of `p`. -/
def addEdge (children : α → List α) (p c : α) : α → List α := Function.update children p (children p ++ [c])

@[simp] theorem addEdge_self (children : α → List α) (p c : α) : addEdge children p c p = children p ++ [c] :=
  Function.update_self ..

private theorem addEdge_of_ne (children : α → List α) (c : α) (h : a ≠ p) : addEdge children p c a = children a :=
  Function.update_of_ne h ..

private theorem reaches_addEdge (h : Reaches children a b) : Reaches (addEdge children p c) a b := by
  refine Relation.ReflTransGen.mono ?_ _ _ h
  intro a b hb
  show b ∈ addEdge children p c a
  by_cases ha : a = p
  · subst ha
    rw [addEdge_self]
    exact List.mem_append_left _ hb
  · rw [addEdge_of_ne children c ha]
    exact hb

/-- What does not reach `p` is listed as before. -/
private theorem walk_addEdge_of_not_reaches (h : walk children fuel a = some l) (hap : ¬ Reaches children a p) :
    walk (addEdge children p c) fuel a = some l := by
  refine walk_congr h ?_
  intro x hx
  have hxp : x ≠ p := by
    intro hxp
    rw [hxp] at hx
    exact hap hx
  exact addEdge_of_ne children c hxp

/-- `l'` is `l` with `lc` put in once for each time `p` is in `l`. -/
def Inserted (p : α) (lc l l' : List α) : Prop := ∀ x, l'.count x = l.count x + l.count p * lc.count x

private theorem Inserted.append {l₁ l₁' l₂ l₂' : List α} (h₁ : Inserted p lc l₁ l₁') (h₂ : Inserted p lc l₂ l₂') :
    Inserted p lc (l₁ ++ l₂) (l₁' ++ l₂') := by
  intro x
  simp only [List.count_append, h₁ x, h₂ x]
  ring

private theorem Inserted.cons_self {l' : List α} (h : Inserted p lc l l') :
    Inserted p lc (p :: l) (p :: (l' ++ lc)) := by
  intro x
  simp only [List.count_cons, List.count_append, h x, beq_self_eq_true, ↓reduceIte]
  ring

private theorem Inserted.cons_of_ne {l' : List α} (h : Inserted p lc l l') (ha : a ≠ p) :
    Inserted p lc (a :: l) (a :: l') := by
  intro x
  have hne : (a == p) = false := beq_false_of_ne ha
  simp only [List.count_cons, h x, hne, Bool.false_eq_true, ↓reduceIte, Nat.add_zero]
  ring

/-- The result repeats nothing exactly when `p` is not in `l`, or `l` and `lc` have nothing in common. -/
private theorem Inserted.nodup_iff {l' : List α} (h : Inserted p lc l l') (hl : l.Nodup) (hlc : lc.Nodup) :
    l'.Nodup ↔ ∀ x, p ∈ l → x ∈ lc → x ∉ l := by
  rw [List.nodup_iff_count_le_one]
  constructor
  · intro hle x hp hxc hx
    have h₁ : 0 < l.count x := List.count_pos_iff.2 hx
    have h₂ : 0 < l.count p * lc.count x := Nat.mul_pos (List.count_pos_iff.2 hp) (List.count_pos_iff.2 hxc)
    have hlex := hle x
    rw [h x] at hlex
    omega
  · intro hcond x
    have h₁ := List.nodup_iff_count_le_one.1 hl x
    have h₂ : l.count p * lc.count x ≤ 1 :=
      Nat.mul_le_mul (List.nodup_iff_count_le_one.1 hl p) (List.nodup_iff_count_le_one.1 hlc x)
    rw [h x]
    by_cases hzero : l.count p * lc.count x = 0
    · omega
    · have hpos := Nat.pos_of_ne_zero hzero
      have hp := List.count_pos_iff.1 (Nat.pos_of_mul_pos_right hpos)
      have hxc := List.count_pos_iff.1 (Nat.pos_of_mul_pos_left hpos)
      rw [List.count_eq_zero_of_not_mem (hcond x hp hxc)]
      omega

/-- The listing of `c` is put in once for each time `p` is listed. -/
theorem walk_addEdge (hc : walk children k c = some lc) (hcp : ¬ Reaches children c p)
    (h : walk children fuel a = some l) :
    ∃ l', walk (addEdge children p c) (fuel + k) a = some l' ∧ Inserted p lc l l' := by
  induction fuel generalizing a l with
  | zero => cases h
  | succ fuel ih =>
    obtain ⟨ls, hls, rfl⟩ := walk_succ.1 h
    have hlists : ∀ {as : List α} {ls : List (List α)},
        List.Forall₂ (fun b l => walk children fuel b = some l) as ls →
        ∃ ls', List.Forall₂ (fun b l => walk (addEdge children p c) (fuel + k) b = some l) as ls' ∧
          Inserted p lc ls.flatten ls'.flatten := by
      intro as ls hls
      induction hls with
      | nil => exact ⟨[], .nil, fun x => by simp⟩
      | cons hb _ ihls =>
        obtain ⟨l', hl', hinserted⟩ := ih hb
        obtain ⟨ls', hls', hrest⟩ := ihls
        exact ⟨l' :: ls', .cons hl' hls', hinserted.append hrest⟩
    obtain ⟨ls', hls', hinserted⟩ := hlists hls
    rw [Nat.add_right_comm]
    by_cases ha : a = p
    · subst ha
      have hlc : walk (addEdge children a c) (fuel + k) c = some lc := by
        rw [Nat.add_comm]
        exact walk_mono (walk_addEdge_of_not_reaches hc hcp) fuel
      refine ⟨a :: (ls'.flatten ++ lc), walk_succ.2 ⟨ls' ++ [lc], ?_, by simp⟩, hinserted.cons_self⟩
      rw [addEdge_self]
      exact List.rel_append hls' (.cons hlc .nil)
    · refine ⟨a :: ls'.flatten, walk_succ.2 ⟨ls', ?_, rfl⟩, hinserted.cons_of_ne ha⟩
      rw [addEdge_of_ne children c ha]
      exact hls'

/-- Where every listing is free of repetitions, they stay so under a new edge exactly when no node that reaches its
start reaches anything that its end reaches. -/
theorem once_addEdge_iff (h : ∀ a, Once children a) :
    (∀ a, Once (addEdge children p c) a) ↔
      ∀ a x, Reaches children a p → Reaches children c x → ¬ Reaches children a x := by
  by_cases hcp : Reaches children c p
  · refine iff_of_false (fun honce => ?_) fun hcond => hcond c c hcp .refl .refl
    have hedge : c ∈ addEdge children p c p := by simp
    exact not_once_of_cycle (.tail' (reaches_addEdge hcp) hedge) (honce c)
  · obtain ⟨k, lc, hlc, hlc_nodup⟩ := h c
    refine forall_congr' fun a => ?_
    obtain ⟨fuel, l, hl, hl_nodup⟩ := h a
    obtain ⟨l', hl', hinserted⟩ := walk_addEdge hlc hcp hl
    have honce : Once (addEdge children p c) a ↔ l'.Nodup := by
      constructor
      · intro ⟨fuel₂, l₂, hl₂, hnodup⟩
        rw [walk_unique hl' hl₂]
        exact hnodup
      · intro hnodup
        exact ⟨fuel + k, l', hl', hnodup⟩
    rw [honce, hinserted.nodup_iff hl_nodup hlc_nodup]
    simp only [mem_walk hl, mem_walk hlc]

end

end Traversal
