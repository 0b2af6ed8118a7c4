import EventusSdk.Lib.Transition
import EventusSdk.Lib.Traversal
import EventusSdk.Visits

/-!
# Routers as they are built

A `Router` is an object that other routers refer to, and `include_router` accepts any router for a child.  Here the
routers are numbered in the order in which they are made, and `walk` is a recursion that may not come to an end.

The routers form a forest as long as no call joins what was joined before: no router from which the parent is reached
may reach a router that is reached from the child.  The first call that does so leaves a router whose walk lists some
router twice, or never ends.  In a forest no walk of a feed tries a handler twice.
-/

namespace EventusSdk

structure RouterObject where
  handlers : List HandlerObject := []
  children : List ℕ := []

/-- The routers made so far. -/
structure RouterHeap where
  routers : List RouterObject := []

namespace RouterHeap

def handlers (heap : RouterHeap) (router : ℕ) : List HandlerObject :=
  (heap.routers[router]?.map RouterObject.handlers).getD []

def children (heap : RouterHeap) (router : ℕ) : List ℕ := (heap.routers[router]?.map RouterObject.children).getD []

/-- `Router()`. -/
def create (heap : RouterHeap) : RouterHeap := ⟨heap.routers ++ [RouterObject.mk [] []]⟩

def includeRouter (heap : RouterHeap) (router child : ℕ) : RouterHeap :=
  ⟨heap.routers.modify router fun object => { object with children := object.children ++ [child] }⟩

def on (heap : RouterHeap) (router : ℕ) (filters : List Router.OnArg) (callback : HandlerCallback) : RouterHeap :=
  ⟨heap.routers.modify router fun object =>
    { object with handlers := object.handlers ++ [⟨callback, filters.map Router.OnArg.resolve⟩] }⟩

/-- `Router.walk`, less than `fuel` calls deep: the router itself, then what its children list, each in turn. -/
def walk (heap : RouterHeap) (fuel router : ℕ) : Option (List ℕ) := Traversal.walk heap.children fuel router

/-- What a dispatcher with this root router walks over. -/
def tree (heap : RouterHeap) : ℕ → ℕ → Option Router
  | 0, _ => none
  | fuel + 1, router => ((heap.children router).mapM (heap.tree fuel)).map (Router.mk (heap.handlers router))

abbrev Reaches (heap : RouterHeap) : ℕ → ℕ → Prop := Traversal.Reaches heap.children

/-- The handlers of the routers, each under its router and its place there. -/
def places (heap : RouterHeap) (routers : List ℕ) : List ((ℕ × ℕ) × HandlerObject) :=
  routers.flatMap fun router => (heap.handlers router).zipIdx.map fun x => ((router, x.2), x.1)

/-- The walk from the router ends and lists every router that is reached from it once, so that a dispatcher tries each
of their handlers once. -/
def ListsOnce (heap : RouterHeap) (router : ℕ) : Prop :=
  ∃ fuel routers tree, heap.walk fuel router = some routers ∧ routers.Nodup ∧
    (∀ x, x ∈ routers ↔ heap.Reaches router x) ∧ heap.tree fuel router = some tree ∧
    tree.handlersInOrder = (heap.places routers).map Prod.snd ∧ ((heap.places routers).map Prod.fst).Nodup

def IsForest (heap : RouterHeap) : Prop := ∀ router < heap.routers.length, heap.ListsOnce router

/-- A walk that tries no handler twice: the handlers it visits stand at places that are all different. -/
def TriesOnce (heap : RouterHeap) (dispatcher : Dispatcher) (t : List Call) : Prop :=
  ∃ event data visits res routers, Visits dispatcher event dispatcher.root.handlersInOrder data visits t res ∧
    visits.map Visit.handler <+: (heap.places routers).map Prod.snd ∧ ((heap.places routers).map Prod.fst).Nodup

/-- A dispatcher can be made of any router, and whatever filters, handlers and middleware do, no walk of a feed tries a
handler twice. -/
def FeedsOnce (heap : RouterHeap) : Prop :=
  ∀ router < heap.routers.length, ∃ fuel tree, heap.tree fuel router = some tree ∧
    ∀ dispatcher : Dispatcher, dispatcher.root = tree → (∀ m ∈ dispatcher.outer, CallsOn m) →
      ∀ event ctx t res, (dispatcher.feed event ctx).Runs t res →
        ∃ t₁ t₂ x, t = t₁ ++ t₂ ∧ (dispatcher.registry.parse event.eventType event.data).Runs t₁ x ∧
          Pieces (heap.TriesOnce dispatcher) t₂

end RouterHeap

inductive RouterOp where
  | create
  | includeRouter (router child : ℕ)
  | on (router : ℕ) (filters : List Router.OnArg) (callback : HandlerCallback)

/-- The calls are accepted whatever routers they are about. -/
inductive RouterStep : RouterHeap → RouterOp → RouterHeap → Prop where
  | create (heap : RouterHeap) : RouterStep heap .create heap.create
  | includeRouter {heap : RouterHeap} {router child : ℕ} (hrouter : router < heap.routers.length)
      (hchild : child < heap.routers.length) :
      RouterStep heap (.includeRouter router child) (heap.includeRouter router child)
  | on {heap : RouterHeap} {router : ℕ} (filters : List Router.OnArg) (callback : HandlerCallback)
      (hrouter : router < heap.routers.length) :
      RouterStep heap (.on router filters callback) (heap.on router filters callback)

/-- No router from which the parent is reached reaches a router that is reached from the child. -/
def JoinsApart (heap : RouterHeap) : RouterOp → Prop
  | .includeRouter router child =>
    ∀ root x, heap.Reaches root router → heap.Reaches child x → ¬ heap.Reaches root x
  | _ => True

/-! ### The handlers of a listing -/

namespace RouterHeap

variable {heap : RouterHeap} {fuel router child : ℕ} {routers : List ℕ}

private theorem map_snd_places (heap : RouterHeap) (routers : List ℕ) :
    (heap.places routers).map Prod.snd = routers.flatMap heap.handlers := by
  rw [places, List.map_flatMap]
  refine List.flatMap_congr fun router _ => ?_
  rw [List.map_map]
  exact List.zipIdx_map_fst 0 (heap.handlers router)

private theorem nodup_places (h : routers.Nodup) : ((heap.places routers).map Prod.fst).Nodup := by
  have hplaces : (heap.places routers).map Prod.fst =
      routers.flatMap fun router => ((heap.handlers router).zipIdx.map Prod.snd).map (router, ·) := by
    rw [places, List.map_flatMap]
    refine List.flatMap_congr fun router _ => ?_
    rw [List.map_map, List.map_map]
    rfl
  rw [hplaces, List.nodup_flatMap]
  constructor
  · intro router _
    have hrange : ((heap.handlers router).zipIdx.map Prod.snd).Nodup := by
      rw [List.zipIdx_map_snd]
      exact List.nodup_range'
    exact hrange.map fun i j hij => (Prod.mk.inj hij).2
  · refine h.imp ?_
    intro a b hab place ha hb
    obtain ⟨i, -, rfl⟩ := List.mem_map.1 ha
    obtain ⟨j, -, hj⟩ := List.mem_map.1 hb
    exact hab (Prod.mk.inj hj).1.symm

/-- Where the walk ends, so does the dispatcher's, over the same handlers. -/
private theorem exists_tree (h : heap.walk fuel router = some routers) :
    ∃ tree, heap.tree fuel router = some tree ∧ tree.handlersInOrder = routers.flatMap heap.handlers := by
  induction fuel generalizing router routers with
  | zero => cases h
  | succ fuel ih =>
    obtain ⟨ls, hls, rfl⟩ := Traversal.walk_succ.1 h
    have htrees : ∀ {children : List ℕ} {ls : List (List ℕ)},
        List.Forall₂ (fun child l => Traversal.walk heap.children fuel child = some l) children ls →
        ∃ trees, children.mapM (heap.tree fuel) = some trees ∧
          Router.handlersOfChildren trees = ls.flatten.flatMap heap.handlers := by
      intro children ls hls
      induction hls with
      | nil => exact ⟨[], rfl, rfl⟩
      | cons hwalk _ ihls =>
        obtain ⟨tree, htree, hhandlers⟩ := ih hwalk
        obtain ⟨trees, htrees, hrest⟩ := ihls
        refine ⟨tree :: trees, by simp [List.mapM_cons, htree, htrees], ?_⟩
        rw [Router.handlersOfChildren, hhandlers, hrest, List.flatten_cons, List.flatMap_append]
    obtain ⟨trees, htrees, hhandlers⟩ := htrees hls
    refine ⟨.mk (heap.handlers router) trees, ?_, ?_⟩
    · rw [tree, htrees]
      rfl
    · rw [Router.handlersInOrder, hhandlers, List.flatMap_cons]

private theorem listsOnce_iff : heap.ListsOnce router ↔ Traversal.Once heap.children router := by
  constructor
  · intro ⟨fuel, routers, _, hwalk, hnodup, _⟩
    exact ⟨fuel, routers, hwalk, hnodup⟩
  · intro ⟨fuel, routers, hwalk, hnodup⟩
    obtain ⟨tree, htree, hhandlers⟩ := exists_tree hwalk
    refine ⟨fuel, routers, tree, hwalk, hnodup, fun x => Traversal.mem_walk hwalk, htree, ?_, nodup_places hnodup⟩
    rw [hhandlers, map_snd_places]

private theorem isForest_iff : heap.IsForest ↔ ∀ router, Traversal.Once heap.children router := by
  constructor
  · intro h router
    by_cases hrouter : router < heap.routers.length
    · exact listsOnce_iff.1 (h router hrouter)
    · refine Traversal.once_of_leaf ?_
      rw [children, List.getElem?_eq_none (Nat.le_of_not_lt hrouter)]
      rfl
  · intro h router _
    exact listsOnce_iff.2 (h router)

/-- What is tried once where it is listed is tried once in a feed. -/
private theorem feedsOnce_of_isForest (h : heap.IsForest) : heap.FeedsOnce := by
  intro router hrouter
  obtain ⟨fuel, routers, tree, -, -, -, htree, hhandlers, hnodup⟩ := h router hrouter
  refine ⟨fuel, tree, htree, ?_⟩
  rintro dispatcher rfl houter event ctx t res hrun
  obtain ⟨t₁, t₂, x, rfl, hparse, ⟨-, rfl⟩ | ⟨payload, res', -, hchain⟩⟩ := feed_split hrun
  · exact ⟨t₁, [], x, rfl, hparse, .nil⟩
  · refine ⟨t₁, t₂, x, rfl, hparse, (chain_callsOn houter hchain).mono ?_⟩
    intro t' _ ⟨event', data', res', hwalk⟩
    obtain ⟨visits, res'', hvisits, -, -⟩ := walkAndHandle_visits hwalk
    exact ⟨event', data', visits, res'', routers, hvisits, hhandlers ▸ hvisits.handlers_prefix, hnodup⟩

/-! ### The calls -/

private theorem children_create (heap : RouterHeap) : heap.create.children = heap.children := by
  funext router
  unfold children create
  rcases Nat.lt_trichotomy router heap.routers.length with hlt | heq | hgt
  · rw [List.getElem?_append_left hlt]
  · rw [heq, List.getElem?_concat_length, List.getElem?_eq_none le_rfl]
    rfl
  · rw [List.getElem?_eq_none (by simp; omega), List.getElem?_eq_none hgt.le]

private theorem children_on (heap : RouterHeap) (router : ℕ) (filters : List Router.OnArg)
    (callback : HandlerCallback) : (heap.on router filters callback).children = heap.children := by
  funext x
  unfold children on
  rw [List.getElem?_modify]
  cases heap.routers[x]? with
  | none => rfl
  | some object =>
    by_cases hx : router = x
    · simp [hx]
    · simp [hx]

private theorem children_includeRouter (hrouter : router < heap.routers.length) :
    (heap.includeRouter router child).children = Traversal.addEdge heap.children router child := by
  funext x
  unfold children includeRouter Traversal.addEdge
  rw [List.getElem?_modify]
  by_cases hx : router = x
  · subst hx
    rw [Function.update_self]
    simp [List.getElem?_eq_getElem hrouter]
  · rw [Function.update_of_ne (Ne.symm hx)]
    simp [hx]

private theorem isForest_of_children {heap' : RouterHeap} (h : heap'.children = heap.children) :
    heap'.IsForest ↔ heap.IsForest := by
  rw [isForest_iff, isForest_iff, h]

/-- A call keeps the routers a forest if and only if it joins what was apart. -/
private theorem step_isForest_iff {op : RouterOp} {heap' : RouterHeap} (h : heap.IsForest)
    (hstep : RouterStep heap op heap') : heap'.IsForest ↔ JoinsApart heap op := by
  cases hstep with
  | create => exact iff_of_true ((isForest_of_children heap.children_create).2 h) trivial
  | on filters callback hrouter => exact iff_of_true ((isForest_of_children (heap.children_on ..)).2 h) trivial
  | includeRouter hrouter hchild =>
    rw [isForest_iff, children_includeRouter hrouter]
    exact Traversal.once_addEdge_iff (isForest_iff.1 h)

end RouterHeap

private theorem isForest_empty : RouterHeap.IsForest {} := by
  intro router hrouter
  exact absurd hrouter (Nat.not_lt_zero router)

/-- Whatever routers are made and included, they are a forest all along if and only if every inclusion joins what was
apart; and then no feed of any of them tries a handler twice. -/
theorem routers_isForest_iff {path : List (RouterOp × RouterHeap)} (hrun : Transition.Run RouterStep {} path) :
    (Transition.Always RouterHeap.IsForest {} path ↔ Transition.Meets JoinsApart {} path) ∧
      (Transition.Meets JoinsApart {} path → Transition.Always RouterHeap.FeedsOnce {} path) := by
  have hiff : Transition.Always RouterHeap.IsForest {} path ↔ Transition.Meets JoinsApart {} path :=
    hrun.always_iff_meets (fun _ => True) (fun _ _ _ _ _ _ _ => trivial)
      (fun _ _ _ _ h hstep => RouterHeap.step_isForest_iff h hstep) trivial isForest_empty
  exact ⟨hiff, fun hmeets => (hiff.2 hmeets).mono fun _ h => RouterHeap.feedsOnce_of_isForest h⟩

/-! ### A child, and a router in itself -/

/-- A router with one child. -/
theorem routers_isForest_child :
    ∃ path, path.length = 3 ∧ Transition.Run RouterStep {} path ∧ Transition.Always RouterHeap.IsForest {} path ∧
      Transition.Always RouterHeap.FeedsOnce {} path := by
  have hinclude : RouterStep ⟨[{}, {}]⟩ (.includeRouter 0 1) ⟨[{ children := [1] }, {}]⟩ :=
    .includeRouter (by decide) (by decide)
  have hrun : Transition.Run RouterStep {}
      [(.create, ⟨[{}]⟩), (.create, ⟨[{}, {}]⟩), (.includeRouter 0 1, ⟨[{ children := [1] }, {}]⟩)] :=
    ⟨.create {}, .create ⟨[{}]⟩, hinclude, trivial⟩
  obtain ⟨hiff, hfeeds⟩ := routers_isForest_iff hrun
  suffices hmeets : Transition.Meets JoinsApart {} _ from ⟨_, rfl, hrun, hiff.2 hmeets, hfeeds hmeets⟩
  refine ⟨trivial, trivial, ?_, trivial⟩
  have hleaf : ∀ {a x : ℕ}, RouterHeap.Reaches ⟨[{}, {}]⟩ a x → x = a := by
    intro a x h
    have hnone : ∀ a b : ℕ, b ∉ RouterHeap.children ⟨[{}, {}]⟩ a := by
      intro a b
      rcases a with _ | _ | a <;> simp [RouterHeap.children]
    rcases Relation.ReflTransGen.cases_head_iff.1 h with rfl | ⟨b, hb, -⟩
    · rfl
    · exact absurd hb (hnone a b)
  intro root x hroot hx hrootx
  have h₁ := hleaf hroot
  have h₂ := hleaf hx
  have h₃ := hleaf hrootx
  omega

/-- A router included in itself is accepted, and its walk does not end. -/
theorem routers_not_isForest :
    ∃ path, Transition.Run RouterStep {} path ∧ ¬ Transition.Always RouterHeap.IsForest {} path := by
  have hinclude : RouterStep ⟨[{}]⟩ (.includeRouter 0 0) ⟨[{ children := [0] }]⟩ :=
    .includeRouter (by decide) (by decide)
  refine ⟨[(.create, ⟨[{}]⟩), (.includeRouter 0 0, ⟨[{ children := [0] }]⟩)], ⟨.create {}, hinclude, trivial⟩, ?_⟩
  intro h
  have honce := RouterHeap.isForest_iff.1 h.last 0
  have hedge : 0 ∈ RouterHeap.children ⟨[{ children := [0] }]⟩ 0 := by decide
  exact Traversal.not_once_of_cycle (.single hedge) honce

end EventusSdk
