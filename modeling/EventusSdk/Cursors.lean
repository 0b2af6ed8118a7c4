import Mathlib.Order.Bounds.Basic
import EventusSdk.Lib.History
import EventusSdk.Lib.Pool
import EventusSdk.Lib.Transition
import EventusSdk.Stores

/-!
# Concurrent cursor advances

Over the in-memory storage nothing comes between the read and the write of an `advance`.  Another `BaseStorage` may
suspend its caller: here `get` and `set` are atomic, and between them the other calls go on.  A call then writes on
what it has read before, and the cursor goes back when another call has written more in between.
-/

namespace EventusSdk

/-! ### The cursor store over a backend -/

/-- What the cursor store asks of its backend. -/
inductive BackendReq where
  | get (key : String)
  | set (key : String) (value : Int)

abbrev BackendResp : BackendReq → Type
  | .get _ => Option Int
  | .set .. => Unit

/-- A coroutine over a backend. -/
abbrev Backed (α : Type) := Prog BackendReq BackendResp Exn α

def askBackend (r : BackendReq) : Backed (BackendResp r) := Prog.request r

/-- What the backend holds under each key. -/
abbrev Backend := String → Option Int

/-- A call of `advance`. -/
structure Advance where
  subscriptionId : String
  transport : TransportKind
  seq : Int

abbrev Advance.key (a : Advance) : String := CursorStore.key a.subscriptionId a.transport

namespace Backed

def get (subscriptionId : String) (transport : TransportKind) : Backed Int := do
  let value : Option Int ← askBackend (.get (CursorStore.key subscriptionId transport))
  .ret (value.getD 0)

/-- `await self._storage.set(...)`. -/
def write (a : Advance) : Backed Unit := askBackend (.set a.key a.seq)

def advance (a : Advance) : Backed Unit := do
  let current ← get a.subscriptionId a.transport
  if a.seq > current then write a else .ret ()

end Backed

namespace Backend

/-- The cursor under a key. -/
def cursor (w : Backend) (key : String) : Int := (w key).getD 0

/-- A request is carried out at once. -/
inductive Serve (w : Backend) : Prog.Event BackendReq BackendResp Exn → Backend → Prop where
  | get (key : String) : Serve w ⟨.get key, .ok (w key)⟩ w
  | set (key : String) (value : Int) : Serve w ⟨.set key value, .ok ()⟩ (Function.update w key (some value))

private theorem cursor_update (w : Backend) (key key' : String) (value : Int) :
    cursor (Function.update w key (some value)) key' = if key' = key then value else w.cursor key' := by
  unfold cursor
  by_cases h : key' = key
  · rw [h, Function.update_self, if_pos rfl]
    rfl
  · rw [Function.update_of_ne h, if_neg h]

end Backend

/-- Any number of `advance` calls over one backend. -/
def advances : Pool.System Advance Backend Unit Empty BackendReq BackendResp Exn Unit where
  program := Backed.advance
  serve w _ call _ w' := w.Serve call w'
  outside _ o _ := o.elim

abbrev AdvancePool := Pool Advance Backend BackendReq BackendResp Exn Unit

abbrev AdvanceLabel := Pool.Label Advance BackendReq BackendResp Exn Unit Empty

/-! ### What is asked of a run -/

/-- A step leaves no cursor lower than it was. -/
def KeepsCursors (P : AdvancePool) (_ : AdvanceLabel) (Q : AdvancePool) : Prop :=
  ∀ subscriptionId transport, P.world.cursor (CursorStore.key subscriptionId transport) ≤
    Q.world.cursor (CursorStore.key subscriptionId transport)

/-- Where all calls for a subscription and a transport have finished, the cursor is the greatest of what it was at
first and of the `seq` they advance to. -/
def Advanced (w : Backend) (P : AdvancePool) : Prop :=
  ∀ subscriptionId transport,
    (∀ x ∈ P.tasks, x.1.subscriptionId = subscriptionId → x.1.transport = transport → x.2 = .ret ()) →
    IsGreatest {c | c = w.cursor (CursorStore.key subscriptionId transport) ∨
        ∃ x ∈ P.tasks, x.1.subscriptionId = subscriptionId ∧ x.1.transport = transport ∧ c = x.1.seq}
      (P.world.cursor (CursorStore.key subscriptionId transport))

/-- The step is a write of a call that has been overtaken: since it read the cursor, another call has written a greater
`seq` there. -/
def Overtaken (before : List AdvanceLabel) : AdvanceLabel → Prop
  | .serve i ⟨.set key value, _⟩ _ => ∃ earlier x since, before = earlier ++ .serve i ⟨.get key, x⟩ () :: since ∧
      ∃ j greater y, .serve j ⟨.set key greater, y⟩ () ∈ since ∧ value < greater
  | _ => False

/-! ### Keys -/

/-- The key tells the subscription and the transport: its last colon stands between them. -/
theorem CursorStore.key_inj {subscriptionId subscriptionId' : String} {transport transport' : TransportKind}
    (h : key subscriptionId transport = key subscriptionId' transport') :
    subscriptionId = subscriptionId' ∧ transport = transport' := by
  have hcolon : ∀ t : TransportKind, ':' ∉ t.value.toList.reverse := by
    intro t
    cases t <;> decide
  have hvalue : ∀ t t' : TransportKind, t.value.toList.reverse = t'.value.toList.reverse → t = t' := by
    intro t t' h
    have hv := String.toList_inj.1 (List.reverse_injective h)
    cases t <;> cases t' <;> first | rfl | exact absurd hv (by decide)
  have hlists := congrArg (fun s => s.toList.reverse) h
  simp only [key, String.toList_append, List.reverse_append] at hlists
  obtain ⟨htransport, hsub⟩ := History.first_split hlists (hcolon _) (hcolon _)
  exact ⟨String.toList_inj.1 (List.reverse_injective hsub), hvalue _ _ htransport⟩

/-! ### One step -/

/-- A call has not begun, is about to write, or is done. -/
def Staged (a : Advance) (p : Backed Unit) : Prop := p = Backed.advance a ∨ p = Backed.write a ∨ p = .ret ()

/-- How a call goes on once it has read the cursor. -/
def Backed.resume (a : Advance) (current : Int) : Backed Unit := if a.seq > current then write a else .ret ()

private theorem Backed.staged_resume (a : Advance) (current : Int) : Staged a (resume a current) := by
  unfold resume
  split
  · exact Or.inr (Or.inl rfl)
  · exact Or.inr (Or.inr rfl)

/-- A call that has read a cursor not below its `seq` is done; else it writes. -/
private theorem Backed.resume_eq_write {a : Advance} {current : Int} (h : resume a current = write a) :
    current < a.seq := by
  unfold resume at h
  split at h
  · next hlt => exact hlt
  · cases h

private theorem Backed.resume_eq_ret {a : Advance} {current : Int} (h : resume a current = .ret ()) :
    a.seq ≤ current := by
  unfold resume at h
  split at h
  · cases h
  · next hle => exact not_lt.1 hle

variable {w : Backend} {P Q : AdvancePool} {l : AdvanceLabel} {before : List AdvanceLabel}

/-- What a step can be: a call begins, reads the cursor, or writes it. -/
private theorem advances_cases (hP : ∀ x ∈ P.tasks, Staged x.1 x.2) (h : Pool.Step advances P l Q) :
    (∃ a, l = .start a ∧ Q = ⟨P.world, P.tasks ++ [(a, Backed.advance a)]⟩) ∨
    (∃ i a, l = .serve i ⟨.get a.key, .ok (P.world a.key)⟩ () ∧ P.tasks[i]? = some (a, Backed.advance a) ∧
      Q = ⟨P.world, P.tasks.set i (a, Backed.resume a (P.world.cursor a.key))⟩) ∨
    ∃ i a, l = .serve i ⟨.set a.key a.seq, .ok ()⟩ () ∧ P.tasks[i]? = some (a, Backed.write a) ∧
      Q = ⟨Function.update P.world a.key (some a.seq), P.tasks.set i (a, .ret ())⟩ := by
  cases h with
  | start a => exact Or.inl ⟨a, rfl, rfl⟩
  | @serve i a r k x u w' hi hw =>
    have hstaged : Staged a (.call r k) := hP _ (List.mem_of_getElem? hi)
    rcases hstaged with hread | hwrite | hdone
    · have hget : (.call (.get a.key) _ : Backed Unit) = .call r k := hread.symm
      cases hget
      cases hw with
      | get _ => exact Or.inr (Or.inl ⟨i, a, rfl, hi, rfl⟩)
    · have hset : (.call (.set a.key a.seq) _ : Backed Unit) = .call r k := hwrite.symm
      cases hset
      cases hw with
      | set _ _ => exact Or.inr (Or.inr ⟨i, a, rfl, hi, rfl⟩)
    · cases hdone
  | @outside o w' hw => exact o.elim

/-- A call goes on: the calls of the pool are the same. -/
private theorem tags_set {tasks : List (Advance × Backed Unit)} {i : ℕ} {a : Advance} {p : Backed Unit}
    (hi : tasks[i]? = some (a, p)) (q : Backed Unit) :
    (tasks.set i (a, q)).map Prod.fst = tasks.map Prod.fst := by
  rw [List.map_set]
  refine List.ext_getElem? fun j => ?_
  by_cases hj : i = j
  · subst hj
    have htag : (tasks.map Prod.fst)[i]? = some a := by rw [List.getElem?_map, hi]; rfl
    rw [List.getElem?_set_self (List.getElem?_eq_some_iff.1 htag).1, htag]
  · rw [List.getElem?_set_ne hj]

private theorem advances_staged (hP : ∀ x ∈ P.tasks, Staged x.1 x.2) (h : Pool.Step advances P l Q) :
    ∀ x ∈ Q.tasks, Staged x.1 x.2 := by
  intro x hx
  rcases advances_cases hP h with ⟨a, rfl, rfl⟩ | ⟨i, a, rfl, -, rfl⟩ | ⟨i, a, rfl, -, rfl⟩
  · rcases List.mem_append.1 hx with hx | hx
    · exact hP x hx
    · rw [List.mem_singleton.1 hx]
      exact Or.inl rfl
  · rcases List.mem_or_eq_of_mem_set hx with hx | rfl
    · exact hP x hx
    · exact Backed.staged_resume ..
  · rcases List.mem_or_eq_of_mem_set hx with hx | rfl
    · exact hP x hx
    · exact Or.inr (Or.inr rfl)

/-- A write keeps the cursors exactly when it is not below the one that is there. -/
private theorem keepsCursors_write {i : ℕ} {a : Advance} {tasks : List (Advance × Backed Unit)} :
    KeepsCursors P (.serve i ⟨.set a.key a.seq, .ok ()⟩ ()) ⟨Function.update P.world a.key (some a.seq), tasks⟩ ↔
      P.world.cursor a.key ≤ a.seq := by
  constructor
  · intro hkeeps
    have hcursor := hkeeps a.subscriptionId a.transport
    rwa [Backend.cursor_update, if_pos rfl] at hcursor
  · intro hle subscriptionId transport
    rw [Backend.cursor_update]
    split
    · next hkey => exact hkey ▸ hle
    · exact le_rfl

/-! ### What was read, and what was written since -/

/-- The call has read less than its `seq`, and what is there by now is what it read or was written since. -/
def HasRead (before : List AdvanceLabel) (i : ℕ) (a : Advance) (cursor : Int) : Prop :=
  ∃ earlier x since, before = earlier ++ .serve i ⟨.get a.key, .ok x⟩ () :: since ∧ x.getD 0 < a.seq ∧
    (cursor = x.getD 0 ∨ ∃ j y, .serve j ⟨.set a.key cursor, y⟩ () ∈ since)

/-- How the labels of a run and its state belong together, as long as no cursor has gone back. -/
structure OverlapInv (before : List AdvanceLabel) (P : AdvancePool) : Prop where
  staged : ∀ x ∈ P.tasks, Staged x.1 x.2
  hasRead : ∀ i a, P.tasks[i]? = some (a, Backed.write a) → HasRead before i a (P.world.cursor a.key)
  written : ∀ j key value y, .serve j ⟨.set key value, y⟩ () ∈ before → value ≤ P.world.cursor key

private theorem HasRead.snoc {i : ℕ} {a : Advance} {cursor : Int} (h : HasRead before i a cursor) (l : AdvanceLabel) :
    HasRead (before ++ [l]) i a cursor := by
  obtain ⟨earlier, x, since, rfl, hx, hcursor⟩ := h
  refine ⟨earlier, x, since ++ [l], by simp, hx, hcursor.imp_right ?_⟩
  rintro ⟨j, y, hj⟩
  exact ⟨j, y, List.mem_append_left _ hj⟩

/-- A write under the key is what is there then. -/
private theorem HasRead.overwrite {i j : ℕ} {a : Advance} {cursor value : Int}
    (h : HasRead before i a cursor) : HasRead (before ++ [.serve j ⟨.set a.key value, .ok ()⟩ ()]) i a value := by
  obtain ⟨earlier, x, since, rfl, hx, -⟩ := h
  exact ⟨earlier, x, since ++ [_], by simp, hx, Or.inr ⟨j, .ok (), List.mem_append_right _ (List.mem_singleton_self _)⟩⟩

private theorem overlapInv_start (w : Backend) : OverlapInv [] ⟨w, []⟩ := ⟨by simp, by simp, by simp⟩

private theorem OverlapInv.step (h : OverlapInv before P) (hkeeps : KeepsCursors P l Q)
    (hstep : Pool.Step advances P l Q) : OverlapInv (before ++ [l]) Q := by
  have hstaged := advances_staged h.staged hstep
  rcases advances_cases h.staged hstep with ⟨a, rfl, rfl⟩ | ⟨i, a, rfl, hi, rfl⟩ | ⟨i, a, rfl, hi, rfl⟩
  · refine ⟨hstaged, fun j b hj => ?_, fun j key value y hj => ?_⟩
    · rw [List.getElem?_append] at hj
      split at hj
      · exact (h.hasRead j b hj).snoc _
      · have hmem := List.mem_singleton.1 (List.mem_of_getElem? hj)
        cases hmem
    · exact h.written j key value y (by simpa using hj)
  · refine ⟨hstaged, fun j b hj => ?_, fun j key value y hj => ?_⟩
    · by_cases hji : i = j
      · subst hji
        rw [List.getElem?_set_self (List.getElem?_eq_some_iff.1 hi).1] at hj
        obtain ⟨rfl, hresume⟩ := Prod.mk.inj (Option.some.inj hj)
        exact ⟨before, P.world a.key, [], rfl, Backed.resume_eq_write hresume, Or.inl rfl⟩
      · rw [List.getElem?_set_ne hji] at hj
        exact (h.hasRead j b hj).snoc _
    · exact h.written j key value y (by simpa using hj)
  · have hle := keepsCursors_write.1 hkeeps
    refine ⟨hstaged, fun j b hj => ?_, fun j key value y hj => ?_⟩
    · by_cases hji : i = j
      · subst hji
        rw [List.getElem?_set_self (List.getElem?_eq_some_iff.1 hi).1] at hj
        cases (Prod.mk.inj (Option.some.inj hj)).2
      · rw [List.getElem?_set_ne hji] at hj
        rw [Backend.cursor_update]
        split
        · next hkey => exact hkey ▸ (h.hasRead j b hj).overwrite
        · exact (h.hasRead j b hj).snoc _
    · rw [Backend.cursor_update]
      rcases List.mem_append.1 hj with hj | hj
      · split
        · next hkey => exact le_trans (h.written j key value y hj) (hkey ▸ hle)
        · exact h.written j key value y hj
      · cases List.mem_singleton.1 hj
        rw [if_pos rfl]

/-- As long as no cursor has gone back, a step leaves none lower exactly when it is no write of an overtaken call. -/
private theorem keepsCursors_iff (h : OverlapInv before P) (hstep : Pool.Step advances P l Q) :
    KeepsCursors P l Q ↔ ¬ Overtaken before l := by
  rcases advances_cases h.staged hstep with ⟨a, rfl, rfl⟩ | ⟨i, a, rfl, -, rfl⟩ | ⟨i, a, rfl, hi, rfl⟩
  · exact iff_of_true (fun _ _ => le_rfl) id
  · exact iff_of_true (fun _ _ => le_rfl) id
  · rw [keepsCursors_write]
    constructor
    · rintro hle ⟨earlier, x, since, rfl, j, greater, y, hj, hlt⟩
      have hwritten := h.written j a.key greater y (List.mem_append_right _ (List.mem_cons_of_mem _ hj))
      omega
    · intro hnot
      obtain ⟨earlier, x, since, hbefore, hx, hread | ⟨j, y, hj⟩⟩ := h.hasRead i a hi
      · omega
      · refine not_lt.1 fun hlt => hnot ⟨earlier, .ok x, since, hbefore, j, _, y, hj, hlt⟩

/-! ### Runs in which no cursor goes back -/

/-- What holds as long as no cursor goes back: the cursor under a key is the one it was at first or the `seq` of a call,
and a call that is done has brought it to its own `seq` at least. -/
structure AdvanceInv (w : Backend) (P : AdvancePool) : Prop where
  staged : ∀ x ∈ P.tasks, Staged x.1 x.2
  started : ∀ key, w.cursor key ≤ P.world.cursor key
  reached : ∀ key, P.world.cursor key = w.cursor key ∨
    ∃ a ∈ P.tasks.map Prod.fst, a.key = key ∧ P.world.cursor key = a.seq
  settled : ∀ x ∈ P.tasks, x.2 = .ret () → x.1.seq ≤ P.world.cursor x.1.key

private theorem advanceInv_start (w : Backend) : AdvanceInv w ⟨w, []⟩ :=
  ⟨by simp, fun _ => le_rfl, fun _ => Or.inl rfl, by simp⟩

private theorem AdvanceInv.begin (h : AdvanceInv w P) (a : Advance) :
    AdvanceInv w ⟨P.world, P.tasks ++ [(a, Backed.advance a)]⟩ := by
  refine ⟨advances_staged h.staged (.start P a), h.started, fun key => ?_, fun x hx hdone => ?_⟩
  · rcases h.reached key with hc | ⟨b, hb, hkey, hc⟩
    · exact Or.inl hc
    · exact Or.inr ⟨b, by rw [List.map_append]; exact List.mem_append_left _ hb, hkey, hc⟩
  · rcases List.mem_append.1 hx with hx | hx
    · exact h.settled x hx hdone
    · obtain rfl := List.mem_singleton.1 hx
      cases hdone

/-- A call that reads a cursor not below its `seq` is done. -/
private theorem AdvanceInv.read (h : AdvanceInv w P) {i : ℕ} {a : Advance} {p : Backed Unit}
    (hi : P.tasks[i]? = some (a, p)) :
    AdvanceInv w ⟨P.world, P.tasks.set i (a, Backed.resume a (P.world.cursor a.key))⟩ := by
  refine ⟨fun x hx => ?_, h.started, ?_, fun x hx hdone => ?_⟩
  · rcases List.mem_or_eq_of_mem_set hx with hx | rfl
    · exact h.staged x hx
    · exact Backed.staged_resume ..
  · simpa only [tags_set hi] using h.reached
  · rcases List.mem_or_eq_of_mem_set hx with hx | rfl
    · exact h.settled x hx hdone
    · exact Backed.resume_eq_ret hdone

private theorem AdvanceInv.write (h : AdvanceInv w P) {i : ℕ} {a : Advance} {p : Backed Unit}
    (hi : P.tasks[i]? = some (a, p)) (hle : P.world.cursor a.key ≤ a.seq) :
    AdvanceInv w ⟨Function.update P.world a.key (some a.seq), P.tasks.set i (a, .ret ())⟩ := by
  have hmono : ∀ key, P.world.cursor key ≤ Backend.cursor (Function.update P.world a.key (some a.seq)) key := by
    intro key
    rw [Backend.cursor_update]
    split
    · next hkey => exact hkey ▸ hle
    · exact le_rfl
  refine ⟨fun x hx => ?_, fun key => le_trans (h.started key) (hmono key), fun key => ?_, fun x hx hdone => ?_⟩
  · rcases List.mem_or_eq_of_mem_set hx with hx | rfl
    · exact h.staged x hx
    · exact Or.inr (Or.inr rfl)
  · simp only [tags_set hi, Backend.cursor_update]
    by_cases hkey : key = a.key
    · rw [if_pos hkey]
      exact Or.inr ⟨a, List.mem_map.2 ⟨_, List.mem_of_getElem? hi, rfl⟩, hkey.symm, rfl⟩
    · rw [if_neg hkey]
      exact h.reached key
  · rcases List.mem_or_eq_of_mem_set hx with hx | rfl
    · exact le_trans (h.settled x hx hdone) (hmono x.1.key)
    · show a.seq ≤ Backend.cursor (Function.update P.world a.key (some a.seq)) a.key
      rw [Backend.cursor_update, if_pos rfl]

private theorem AdvanceInv.step (h : AdvanceInv w P) (hkeeps : KeepsCursors P l Q)
    (hstep : Pool.Step advances P l Q) : AdvanceInv w Q := by
  rcases advances_cases h.staged hstep with ⟨a, rfl, rfl⟩ | ⟨i, a, rfl, hi, rfl⟩ | ⟨i, a, rfl, hi, rfl⟩
  · exact h.begin a
  · exact h.read hi
  · exact h.write hi (keepsCursors_write.1 hkeeps)

private theorem AdvanceInv.advanced (h : AdvanceInv w P) : Advanced w P := by
  intro subscriptionId transport hdone
  constructor
  · rcases h.reached (CursorStore.key subscriptionId transport) with hc | ⟨a, ha, hkey, hc⟩
    · exact Or.inl hc
    · obtain ⟨x, hx, rfl⟩ := List.mem_map.1 ha
      obtain ⟨hsub, htransport⟩ := CursorStore.key_inj hkey
      exact Or.inr ⟨x, hx, hsub, htransport, hc⟩
  · rintro c (rfl | ⟨x, hx, hsub, htransport, rfl⟩)
    · exact h.started _
    · have hseq := h.settled x hx (hdone x hx hsub htransport)
      rwa [Advance.key, hsub, htransport] at hseq

/-- Whatever the calls and their interleaving: no cursor ever goes back, and each one ends at the greatest `seq`, if
and only if no call writes after it has been overtaken. -/
theorem advance_monotone_iff {path : List (AdvanceLabel × AdvancePool)}
    (hrun : Transition.Run (Pool.Step advances) ⟨w, []⟩ path) :
    (Transition.Run KeepsCursors ⟨w, []⟩ path ∧ Transition.Always (Advanced w) ⟨w, []⟩ path) ↔
      Transition.MeetsAfter (fun before l => ¬ Overtaken before l) [] path := by
  have hexact : Transition.Run KeepsCursors ⟨w, []⟩ path ↔
      Transition.MeetsAfter (fun before l => ¬ Overtaken before l) [] path :=
    hrun.iff_meetsAfter (fun _ _ _ _ h hkeeps hs => h.step hkeeps hs) (fun _ _ _ _ h hs => keepsCursors_iff h hs)
      (overlapInv_start w)
  constructor
  · exact fun h => hexact.1 h.1
  · intro hmeets
    have hkeeps := hexact.2 hmeets
    have hinv := hrun.always_of_does (fun _ _ _ h hd hs => h.step hd hs) (advanceInv_start w) hkeeps
    exact ⟨hkeeps, hinv.mono fun _ h => h.advanced⟩

/-! ### Two calls for one subscription -/

def advanceTo (seq : Int) : Advance := ⟨"sub-1", .sse, seq⟩

/-- Both calls read the cursor before one of them writes; the one for `3` writes first. -/
theorem advance_monotone_two :
    ∃ path, path.length = 6 ∧ Transition.Run (Pool.Step advances) ⟨fun _ => none, []⟩ path ∧
      (Transition.last ⟨fun _ => none, []⟩ path).world "sub-1:sse" = some 5 ∧
      Transition.Run KeepsCursors ⟨fun _ => none, []⟩ path ∧
      Transition.Always (Advanced fun _ => none) ⟨fun _ => none, []⟩ path := by
  have hrun : Transition.Run (Pool.Step advances) ⟨fun _ => none, []⟩
      [(.start (advanceTo 5), _), (.start (advanceTo 3), _), (.serve 0 ⟨.get "sub-1:sse", .ok none⟩ (), _),
        (.serve 1 ⟨.get "sub-1:sse", .ok none⟩ (), _), (.serve 1 ⟨.set "sub-1:sse" 3, .ok ()⟩ (), _),
        (.serve 0 ⟨.set "sub-1:sse" 5, .ok ()⟩ (), _)] :=
    ⟨.start _ _, .start _ _, .serve rfl (Backend.Serve.get _), .serve rfl (Backend.Serve.get _),
      .serve rfl (Backend.Serve.set _ _), .serve rfl (Backend.Serve.set _ _), trivial⟩
  -- what was written before the last two steps is `3` at most
  have hwritten : ∀ {before : List AdvanceLabel} {value : Int}, (∀ j key v y, (.serve j ⟨.set key v, y⟩ () ∈ before) →
      v ≤ value) → ∀ i, ¬ Overtaken before (.serve i ⟨.set "sub-1:sse" value, .ok ()⟩ ()) := by
    rintro before value hle i ⟨earlier, x, since, rfl, j, greater, y, hj, hlt⟩
    exact absurd (hle _ _ _ _ (List.mem_append_right _ (List.mem_cons_of_mem _ hj))) (not_le.2 hlt)
  refine ⟨_, rfl, hrun, rfl, (advance_monotone_iff hrun).2 ⟨id, id, id, id, hwritten ?_ 1, hwritten ?_ 0, trivial⟩⟩
  · simp
  · intro j key v y hj
    obtain ⟨-, ⟨-, rfl⟩, -⟩ : j = 1 ∧ (key = "sub-1:sse" ∧ v = 3) ∧ HEq y (Except.ok () : Except Exn Unit) := by
      simpa using hj
    decide

/-- With the writes the other way round the cursor goes from `5` back to `3` and stays there. -/
theorem advance_loses_progress :
    ∃ path, Transition.Run (Pool.Step advances) ⟨fun _ => none, []⟩ path ∧
      (Transition.last ⟨fun _ => none, []⟩ path).world "sub-1:sse" = some 3 ∧
      ¬ Transition.Run KeepsCursors ⟨fun _ => none, []⟩ path ∧
      ¬ Transition.Always (Advanced fun _ => none) ⟨fun _ => none, []⟩ path := by
  have hrun : Transition.Run (Pool.Step advances) ⟨fun _ => none, []⟩
      [(.start (advanceTo 5), _), (.start (advanceTo 3), _), (.serve 0 ⟨.get "sub-1:sse", .ok none⟩ (), _),
        (.serve 1 ⟨.get "sub-1:sse", .ok none⟩ (), _), (.serve 0 ⟨.set "sub-1:sse" 5, .ok ()⟩ (), _),
        (.serve 1 ⟨.set "sub-1:sse" 3, .ok ()⟩ (), _)] :=
    ⟨.start _ _, .start _ _, .serve rfl (Backend.Serve.get _), .serve rfl (Backend.Serve.get _),
      .serve rfl (Backend.Serve.set _ _), .serve rfl (Backend.Serve.set _ _), trivial⟩
  refine ⟨_, hrun, rfl, fun hkeeps => ?_, fun halways => ?_⟩
  · have hcursor : (5 : Int) ≤ 3 := hkeeps.2.2.2.2.2.1 "sub-1" .sse
    exact absurd hcursor (by decide)
  · have hdone : ∀ x ∈ [(advanceTo 5, (.ret () : Backed Unit)), (advanceTo 3, .ret ())], x.2 = .ret () := by simp
    have hgreatest := halways.last "sub-1" .sse fun x hx _ _ => hdone x hx
    have hcursor : (5 : Int) ≤ 3 := hgreatest.2 (Or.inr ⟨_, List.mem_cons_self .., rfl, rfl, rfl⟩)
    exact absurd hcursor (by decide)

end EventusSdk
