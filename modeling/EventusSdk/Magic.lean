import EventusSdk.Comparison

/-!
# Magic filters

A `MagicFilter` is kept as the expression it was built by: a field of the event, reached by attributes and items, and
comparisons, `&`, `|` and `~` above it.  Its resolver evaluates the expression on an event.  What it comes to on the
way may be any Python object; `Objects` says of the objects that are not the library's own which attributes they have
and how they compare.
-/

namespace EventusSdk

/-- A key in square brackets. -/
inductive Subscript where
  | str (s : String)
  | int (n : Int)
deriving DecidableEq

mutual

inductive MagicFilter where
  | root
  | attr (m : MagicFilter) (name : String)
  | item (m : MagicFilter) (key : Subscript)
  | compare (op : CmpOp) (m : MagicFilter) (other : PyObj)
  | and (a b : MagicFilter)
  | or (a b : MagicFilter)
  | invert (m : MagicFilter)

/-- An object an expression comes to; `object` stands for one of a type that is not told apart here (a method, a
`datetime`), with its truth value. -/
inductive PyObj where
  | event (e : ClientEvent)
  | transport (kind : TransportKind)
  | dict (d : EventData)
  | json (v : Json)
  | magic (m : MagicFilter)
  | object (id : ℕ) (truth : Bool)

end

/-- `F`. -/
def MagicFilter.f : MagicFilter := .root

/-- What the model leaves open of Python's objects: `getattr` on an object of a built-in type, `none` where it raises
`AttributeError`; `==` where one of the two is an `object`, or both are events, which have a field that is left out
here; and the order where one is an `object`, `none` where there is none and `TypeError` is raised. -/
structure Objects where
  getattr : PyObj → String → Option PyObj
  eq : PyObj → PyObj → Bool
  order : CmpOp → PyObj → PyObj → Option Bool

/-- `IndexError`, a subclass of `LookupError` beside `KeyError`. -/
def indexError : Exn := .other "IndexError"

/-- `__getattr__` of a filter: names with a leading underscore are no fields. -/
def MagicFilter.getattr (m : MagicFilter) (name : String) : Except Exn MagicFilter :=
  if name.startsWith "_" then .error .attributeError else .ok (.attr m name)

/-- Where an index points to in a sequence of this length; a negative one counts from the end. -/
def indexIn (length : ℕ) (n : Int) : Option ℕ :=
  let i := if n < 0 then n + length else n
  if 0 ≤ i ∧ i < length then some i.toNat else none

namespace PyObj

def ofJson : Json → PyObj
  | .obj members => .dict (members.map fun (k, v) => (.str k, v))
  | v => .json v

/-- A `StrEnum` member is the string of its value. -/
def plain : PyObj → PyObj
  | .transport kind => .json (.str kind.value)
  | o => o

/-- `bool(o)`. -/
def truthy : PyObj → Bool
  | .dict d => !d.isEmpty
  | .json v => v.truthy
  | .object _ truth => truth
  | .event _ | .transport _ | .magic _ => true

/-- `getattr(o, name)`. -/
def getattr (objects : Objects) : PyObj → String → Except Exn PyObj
  | .event e, "seq" => .ok (.json (.int e.seq))
  | .event e, "event_type" => .ok (.json (.str e.eventType))
  | .event e, "data" => .ok (.dict e.data)
  | .event e, "transport" => .ok (.transport e.transport)
  | .event e, "event_id" => .ok (.json ((e.eventId.map .str).getD .null))
  | .event e, "idempotency_key" => .ok (.json ((e.idempotencyKey.map .str).getD .null))
  | .magic m, name => (m.getattr name).map .magic
  | o, name =>
    match objects.getattr o name with
    | some v => .ok v
    | none => .error .attributeError

def Subscript.toJson : Subscript → Json
  | .str s => .str s
  | .int n => .int n

/-- The items of a sequence; a dict is none. -/
def items : PyObj → Option (List PyObj)
  | .json (.arr items) => some (items.map ofJson)
  | .json (.str s) => some (s.toList.map fun c => .json (.str (String.ofList [c])))
  | _ => none

/-- `o[key]`. -/
def getitem (o : PyObj) (key : Subscript) : Except Exn PyObj :=
  match o, key with
  | .magic m, key => .ok (.magic (.item m key))
  | .dict d, key =>
    match d.find? fun x => x.1.keyEq (Subscript.toJson key) with
    | some x => .ok (ofJson x.2)
    | none => .error .keyError
  | o, .int n =>
    match o.plain.items with
    | some items =>
      match (indexIn items.length n).bind (items[·]?) with
      | some v => .ok v
      | none => .error indexError
    | none => .error .typeError
  | _, .str _ => .error .typeError

/-- Equality of two dicts. -/
def eqDict (d d' : EventData) : Bool :=
  d.length = d'.length && d.all fun x => d'.any fun y => x.1.keyEq y.1 && x.2.pyEq y.2

/-- `a == b`, neither of them a filter. -/
def eq (objects : Objects) (a b : PyObj) : Bool :=
  match a.plain, b.plain with
  | .json v, .json w => v.pyEq w
  | .dict d, .dict d' => eqDict d d'
  | .event e, .event e' => objects.eq (.event e) (.event e')
  | .object id truth, b => objects.eq (.object id truth) b
  | a, .object id truth => objects.eq a (.object id truth)
  | _, _ => false

/-- The answer of objects that may have no order. -/
def ofOrder : Option Bool → Except Exn Bool
  | some r => .ok r
  | none => .error .typeError

/-- The comparison of two objects, neither of them a filter. -/
def rich (objects : Objects) (op : CmpOp) (a b : PyObj) : Except Exn Bool :=
  match op with
  | .eq => .ok (a.eq objects b)
  | .ne => .ok (!a.eq objects b)
  | op =>
    match a.plain, b.plain with
    | .json v, .json w => v.compareBy op w
    | .object id truth, b => ofOrder (objects.order op (.object id truth) b)
    | a, .object id truth => ofOrder (objects.order op a (.object id truth))
    | _, _ => .error .typeError

/-- `a op b`.  A filter on either side makes it a filter: where the left object does not know filters, the reflected
method of the right one is called. -/
def compare (objects : Objects) (op : CmpOp) (a b : PyObj) : Except Exn PyObj :=
  match a, b with
  | .magic m, b => .ok (.magic (.compare op m b))
  | a, .magic m => .ok (.magic (.compare op.reflected m a))
  | a, b => (a.rich objects op b).map fun r => .json (.bool r)

end PyObj

namespace MagicFilter

variable (objects : Objects) (event : ClientEvent)

/-- `_resolver(event)`. -/
def resolver : MagicFilter → Except Exn PyObj
  | .root => .ok (.event event)
  | .attr m name => do (← resolver m).getattr objects name
  | .item m key => do (← resolver m).getitem key
  | .compare op m other => do (← resolver m).compare objects op other
  | .and a b => do
    if (← resolver a).truthy then .ok (.json (.bool (← resolver b).truthy)) else .ok (.json (.bool false))
  | .or a b => do
    if (← resolver a).truthy then .ok (.json (.bool true)) else .ok (.json (.bool (← resolver b).truthy))
  | .invert m => do .ok (.json (.bool !(← resolver m).truthy))

end MagicFilter

/-- Caught by `except (AttributeError, KeyError, TypeError)`. -/
def Exn.isMissing (e : Exn) : Bool := e = .attributeError || e = .keyError || e = .typeError

/-- `await filt(event, data)`. -/
def MagicFilter.call (objects : Objects) (m : MagicFilter) (event : ClientEvent) : Except Exn Bool :=
  match m.resolver objects event with
  | .ok v => .ok v.truthy
  | .error e => if e.isMissing then .ok false else .error e

end EventusSdk
