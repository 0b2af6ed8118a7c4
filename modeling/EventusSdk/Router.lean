import EventusSdk.Events

/-!
# Routers and handlers

A handler is a callback with its filters; a router has handlers and child routers.  `Router.walk` lists the routers in
the order in which the dispatcher visits them, and `Router.handlersInOrder` the handlers of the whole tree.
-/

namespace EventusSdk

inductive ParamKind where
  | positionalOnly
  | positionalOrKeyword
  | varPositional
  | keywordOnly
  | varKeyword
deriving DecidableEq

structure Param where
  name : String
  kind : ParamKind := .positionalOrKeyword
  hasDefault : Bool := false
deriving DecidableEq

/-- A handler callback: its identity and its signature. -/
structure HandlerCallback where
  id : ℕ
  params : List Param
deriving DecidableEq

/-- A `Filter` object of the application. -/
structure CustomFilter where
  id : ℕ
deriving DecidableEq

inductive Filter where
  | eventType (eventTypes : List String)
  | custom (f : CustomFilter)
deriving DecidableEq

/-- What a filter returns: a dict to be merged into `data`, or any other value, of which only the truth matters. -/
inductive FilterOutcome where
  | plain (truth : Bool)
  | dict (d : Data)

/-- Python's truth value: a dict is true when it is not empty. -/
def FilterOutcome.truthy : FilterOutcome → Bool
  | .plain truth => truth
  | .dict d => !d.entries.isEmpty

structure HandlerObject where
  callback : HandlerCallback
  filters : List Filter
deriving DecidableEq

inductive Router where
  | mk (handlers : List HandlerObject) (children : List Router)

namespace Router

def handlers : Router → List HandlerObject
  | .mk handlers _ => handlers

def children : Router → List Router
  | .mk _ children => children

def includeRouter (router child : Router) : Router := .mk router.handlers (router.children ++ [child])

/-- The argument of `Router.on`: a string stands for the filter on that event type. -/
inductive OnArg where
  | str (eventType : String)
  | filter (f : Filter)

def OnArg.resolve : OnArg → Filter
  | .str eventType => .eventType [eventType]
  | .filter f => f

def on (router : Router) (filters : List OnArg) (callback : HandlerCallback) : Router :=
  .mk (router.handlers ++ [⟨callback, filters.map OnArg.resolve⟩]) router.children

mutual

def walk : Router → List Router
  | .mk handlers children => .mk handlers children :: walkChildren children

/-- The loop `for child in self.children: routers.extend(child.walk())`. -/
def walkChildren : List Router → List Router
  | [] => []
  | child :: children => child.walk ++ walkChildren children

end

mutual

/-- The handlers of the tree in pre-order: a router's own in registration order, then those of its children. -/
def handlersInOrder : Router → List HandlerObject
  | .mk handlers children => handlers ++ handlersOfChildren children

def handlersOfChildren : List Router → List HandlerObject
  | [] => []
  | child :: children => child.handlersInOrder ++ handlersOfChildren children

end

mutual

/-- `walk` visits the handlers in pre-order. -/
theorem flatMap_handlers_walk : ∀ router : Router, router.walk.flatMap handlers = router.handlersInOrder
  | .mk hs children => by
    rw [walk, List.flatMap_cons, flatMap_handlers_walkChildren children, handlersInOrder, handlers]

theorem flatMap_handlers_walkChildren : ∀ children : List Router,
    (walkChildren children).flatMap handlers = handlersOfChildren children
  | [] => rfl
  | child :: children => by
    rw [walkChildren, List.flatMap_append, flatMap_handlers_walk child, flatMap_handlers_walkChildren children,
      handlersOfChildren]

end

end Router

end EventusSdk
