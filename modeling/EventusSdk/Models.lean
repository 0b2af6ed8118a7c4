import EventusSdk.Coercion
import EventusSdk.Lib.Records

/-!
# Subscriptions on the wire

The dataclasses of the management client, `dataclasses.asdict` of a context or a scope, and what the client makes of a
decoded body: `_parse_ctx`, `_parse_scope`, `_subscription_info` and `_subscription_created`.  A dataclass checks no
types, so a field holds whatever the body has there; what is checked is the `kind` of a context or a scope, and the
names of its members.
-/

namespace EventusSdk

/-! ### Contexts and scopes -/

inductive SubscriptionCtx where
  | webhook (kind : Json)
  | webSocket (kind : Json)
  | sse (kind : Json)
  | polling (kind pollDelaySeconds : Json)

inductive SubscriptionScope where
  | none (kind : Json)
  | category (kind category : Json)
  | account (kind accountAlias : Json)

/-- `dataclasses.asdict`. -/
def SubscriptionCtx.asdict : SubscriptionCtx → List (String × Json)
  | .webhook kind | .webSocket kind | .sse kind => [("kind", kind)]
  | .polling kind pollDelaySeconds => [("kind", kind), ("poll_delay_seconds", pollDelaySeconds)]

/-- `dataclasses.asdict`. -/
def SubscriptionScope.asdict : SubscriptionScope → List (String × Json)
  | .none kind => [("kind", kind)]
  | .category kind c => [("kind", kind), ("category", c)]
  | .account kind accountAlias => [("kind", kind), ("account_alias", accountAlias)]

instance : Inhabited Json := ⟨.null⟩

/-- A class with `kind` as its only field. -/
def kindOnly {α : Type} (kind : String) (make : Json → α) : RecordClass Json α where
  fields := [("kind", .str kind)]
  make := fun arg => make (arg "kind")
  nodup := List.nodup_singleton _
  make_congr := fun _ _ h => congrArg make (h _ (List.mem_singleton_self _))

/-- A class with one field besides `kind`. -/
def kindAnd {α : Type} (kind : String) (field : String × Json) (hfield : field.1 ≠ "kind")
    (make : Json → Json → α) : RecordClass Json α where
  fields := [("kind", .str kind), field]
  make := fun arg => make (arg "kind") (arg field.1)
  nodup := by simpa using hfield.symm
  make_congr := fun _ _ h => congrArg₂ make (h _ (List.mem_cons_self ..)) (h _ (by simp))

def webhookCtx : RecordClass Json SubscriptionCtx := kindOnly "webhook" .webhook

def webSocketCtx : RecordClass Json SubscriptionCtx := kindOnly "websocket" .webSocket

def sseCtx : RecordClass Json SubscriptionCtx := kindOnly "sse" .sse

def pollingCtx : RecordClass Json SubscriptionCtx :=
  kindAnd "polling" ("poll_delay_seconds", .float (.finite 0)) (by decide) .polling

def noScope : RecordClass Json SubscriptionScope := kindOnly "none" .none

def categoryScope : RecordClass Json SubscriptionScope :=
  kindAnd "category" ("category", .str "") (by decide) .category

def accountScope : RecordClass Json SubscriptionScope :=
  kindAnd "account" ("account_alias", .str "") (by decide) .account

/-- `_CTX_BY_KIND`. -/
def ctxByKind : List (String × RecordClass Json SubscriptionCtx) :=
  [("webhook", webhookCtx), ("websocket", webSocketCtx), ("sse", sseCtx), ("polling", pollingCtx)]

/-- `_SCOPE_BY_KIND`. -/
def scopeByKind : List (String × RecordClass Json SubscriptionScope) :=
  [("none", noScope), ("category", categoryScope), ("account", accountScope)]

/-- `cls(**data)`, with the class that `kind` names. -/
def parseByKind {α : Type} (byKind : List (String × RecordClass Json α)) : Json → Except Exn α
  | .obj members =>
    match members.lookup "kind" with
    | some (.str kind) =>
      match byKind.lookup kind with
      | some cls =>
        match cls.call members with
        | some a => .ok a
        | none => .error .typeError
      | none => .error .valueError
    | _ => .error .valueError
  -- `data.get`
  | _ => .error .attributeError

def parseCtx (data : Json) : Except Exn SubscriptionCtx := parseByKind ctxByKind data

def parseScope (data : Json) : Except Exn SubscriptionScope := parseByKind scopeByKind data

/-! ### Subscriptions -/

/-- `datetime`, and `datetime.fromisoformat` of a string. -/
structure Timestamps where
  DateTime : Type
  fromisoformat : String → Except Exn DateTime
  fromisoformat_error : ∀ s e, fromisoformat s = .error e → e = .valueError

/-- `datetime.fromisoformat(v)`. -/
def Timestamps.parse (times : Timestamps) : Json → Except Exn times.DateTime
  | .str s => times.fromisoformat s
  | _ => .error .typeError

/-- `list(v)`, also what a loop over `v` goes through. -/
def Json.toList : Json → Except Exn (List Json)
  | .arr items => .ok items
  | .obj members => .ok (members.map fun m => .str m.1)
  | .str s => .ok (s.toList.map fun c => .str (String.ofList [c]))
  | _ => .error .typeError

structure SubscriptionInfo (times : Timestamps) where
  subscriptionId : Json
  transport : Json
  endpoint : Json
  eventTypes : List Json
  scope : SubscriptionScope
  ctx : SubscriptionCtx
  active : Json
  createdAt : times.DateTime

structure SubscriptionCreated (times : Timestamps) extends SubscriptionInfo times where
  secret : Json := .null
  streamToken : Json := .null

structure SubscriptionPage (times : Timestamps) where
  items : List (SubscriptionInfo times)
  total : Json
  limit : Json
  offset : Json

def subscriptionInfo (times : Timestamps) (data : Json) : Except Exn (SubscriptionInfo times) := do
  let subscriptionId ← data.getItem "subscription_id"
  let transport ← data.getItem "transport"
  let endpoint ← data.getItem "endpoint"
  let eventTypes ← (← data.getItem "event_types").toList
  let scope ← parseScope (← data.getItem "scope")
  let ctx ← parseCtx (← data.getItem "ctx")
  let active ← data.getItem "active"
  let createdAt ← times.parse (← data.getItem "created_at")
  return { subscriptionId, transport, endpoint, eventTypes, scope, ctx, active, createdAt }

def subscriptionCreated (times : Timestamps) (data : Json) : Except Exn (SubscriptionCreated times) := do
  let info ← subscriptionInfo times data
  let secret ← data.get "secret" .null
  let streamToken ← data.get "stream_token" .null
  return { info with secret, streamToken }

/-! ### Which contexts and scopes are parsed -/

def SubscriptionCtx.cls : SubscriptionCtx → RecordClass Json SubscriptionCtx
  | .webhook .. => webhookCtx
  | .webSocket .. => webSocketCtx
  | .sse .. => sseCtx
  | .polling .. => pollingCtx

/-- The `kind` of the class. -/
def SubscriptionCtx.tag : SubscriptionCtx → String
  | .webhook .. => "webhook"
  | .webSocket .. => "websocket"
  | .sse .. => "sse"
  | .polling .. => "polling"

def SubscriptionCtx.union : RecordUnion Json SubscriptionCtx where
  classes := ctxByKind
  cls := cls
  tag := tag
  asdict := asdict
  lookup_tag := fun ctx => by cases ctx <;> rfl
  make_arguments := fun ctx => ⟨fun name => (ctx.asdict.lookup name).getD .null, by cases ctx <;> rfl⟩
  of_make := by simp [ctxByKind, webhookCtx, webSocketCtx, sseCtx, pollingCtx, kindOnly, kindAnd, asdict, tag]

def SubscriptionScope.cls : SubscriptionScope → RecordClass Json SubscriptionScope
  | .none .. => noScope
  | .category .. => categoryScope
  | .account .. => accountScope

/-- The `kind` of the class. -/
def SubscriptionScope.tag : SubscriptionScope → String
  | .none .. => "none"
  | .category .. => "category"
  | .account .. => "account"

def SubscriptionScope.union : RecordUnion Json SubscriptionScope where
  classes := scopeByKind
  cls := cls
  tag := tag
  asdict := asdict
  lookup_tag := fun scope => by cases scope <;> rfl
  make_arguments := fun scope => ⟨fun name => (scope.asdict.lookup name).getD .null, by cases scope <;> rfl⟩
  of_make := by simp [scopeByKind, noScope, categoryScope, accountScope, kindOnly, kindAnd, asdict, tag]

section
variable {α : Type} {byKind : List (String × RecordClass Json α)} {data : Json} {a : α}

private theorem parseByKind_ok :
    parseByKind byKind data = .ok a ↔ ∃ members kind, data = .obj members ∧ members.lookup "kind" = some (.str kind) ∧
      ∃ c, byKind.lookup kind = some c ∧ c.call members = some a := by
  constructor
  · intro h
    unfold parseByKind at h
    split at h
    · next members =>
      split at h
      · next kind hkind =>
        split at h
        · next c hc =>
          split at h
          · next a' ha =>
            cases h
            exact ⟨members, kind, rfl, hkind, c, hc, ha⟩
          · cases h
        · cases h
      · cases h
    · cases h
  · rintro ⟨members, kind, rfl, hkind, c, hc, ha⟩
    simp only [parseByKind, hkind, hc, ha]

/-- A value is parsed into a record if and only if it is an object that has the tag of the record as its `kind`, and
that describes the record. -/
private theorem parseByKind_union (u : RecordUnion Json α) :
    parseByKind u.classes data = .ok a ↔ ∃ members, data = .obj members ∧
      members.lookup "kind" = some (.str (u.tag a)) ∧ Describes (u.cls a).fields (u.asdict a) members := by
  rw [parseByKind_ok]
  constructor
  · rintro ⟨members, kind, rfl, hkind, h⟩
    obtain ⟨rfl, hd⟩ := u.call_iff.1 h
    exact ⟨members, rfl, hkind, hd⟩
  · rintro ⟨members, rfl, hkind, hd⟩
    exact ⟨members, u.tag a, rfl, hkind, u.call_iff.2 ⟨rfl, hd⟩⟩

private theorem parseByKind_kind (u : RecordUnion Json α) (h : parseByKind u.classes data = .ok a)
    (hkind : "kind" ∈ (u.cls a).fields.map Prod.fst) :
    (u.asdict a).lookup "kind" = some (.str (u.tag a)) := by
  obtain ⟨members, -, hm, hd⟩ := (parseByKind_union u).1 h
  rw [← u.asdict_names a] at hkind
  obtain ⟨f, hf, hname⟩ := List.mem_map.1 hkind
  rcases hd.values f hf with hv | ⟨hv, -⟩
  · rw [← hm, ← hname, hv, u.lookup_asdict hf]
  · rw [hname, hm] at hv
    cases hv

/-- Parsing inverts `dataclasses.asdict`, unless another `kind` was given. -/
private theorem parseByKind_asdict (u : RecordUnion Json α) :
    parseByKind u.classes (.obj (u.asdict a)) = .ok a ↔ (u.asdict a).lookup "kind" = some (.str (u.tag a)) := by
  rw [parseByKind_union]
  constructor
  · rintro ⟨members, heq, hkind, -⟩
    rwa [Json.obj.inj heq]
  · exact fun hkind => ⟨_, rfl, hkind, u.describes_asdict a⟩

end

/-- The `kind` is that of the class. -/
def SubscriptionCtx.WellKinded (ctx : SubscriptionCtx) : Prop := ctx.asdict.lookup "kind" = some (.str ctx.tag)

/-- The `kind` is that of the class. -/
def SubscriptionScope.WellKinded (scope : SubscriptionScope) : Prop :=
  scope.asdict.lookup "kind" = some (.str scope.tag)

theorem parseCtx_wellKinded {data : Json} {ctx : SubscriptionCtx} (h : parseCtx data = .ok ctx) : ctx.WellKinded :=
  parseByKind_kind SubscriptionCtx.union h (by cases ctx <;> exact List.mem_cons_self ..)

theorem parseScope_wellKinded {data : Json} {scope : SubscriptionScope} (h : parseScope data = .ok scope) :
    scope.WellKinded :=
  parseByKind_kind SubscriptionScope.union h (by cases scope <;> exact List.mem_cons_self ..)

theorem parseCtx_asdict {ctx : SubscriptionCtx} : parseCtx (.obj ctx.asdict) = .ok ctx ↔ ctx.WellKinded :=
  parseByKind_asdict SubscriptionCtx.union

theorem parseScope_asdict {scope : SubscriptionScope} : parseScope (.obj scope.asdict) = .ok scope ↔ scope.WellKinded :=
  parseByKind_asdict SubscriptionScope.union

/-- A context or a scope is parsed from an object that has its `kind` and describes it, and from nothing else; so
`_parse_ctx` and `_parse_scope` invert `dataclasses.asdict` on what has the `kind` of its class. -/
theorem parse_iff :
    (∀ data ctx, parseCtx data = .ok ctx ↔ ∃ members, data = .obj members ∧
      members.lookup "kind" = some (.str ctx.tag) ∧ Describes ctx.cls.fields ctx.asdict members) ∧
    (∀ data scope, parseScope data = .ok scope ↔ ∃ members, data = .obj members ∧
      members.lookup "kind" = some (.str scope.tag) ∧ Describes scope.cls.fields scope.asdict members) ∧
    (∀ ctx : SubscriptionCtx, parseCtx (.obj ctx.asdict) = .ok ctx ↔ ctx.WellKinded) ∧
    (∀ scope : SubscriptionScope, parseScope (.obj scope.asdict) = .ok scope ↔ scope.WellKinded) :=
  ⟨fun _ _ => parseByKind_union SubscriptionCtx.union, fun _ _ => parseByKind_union SubscriptionScope.union,
    fun _ => parseCtx_asdict, fun _ => parseScope_asdict⟩

/-! ### Subscriptions as objects -/

section
variable {times : Timestamps} {data : Json}

/-- The members of an object that `_subscription_info` makes a subscription of. -/
structure Carries (info : SubscriptionInfo times) (members : List (String × Json)) : Prop where
  subscriptionId : members.lookup "subscription_id" = some info.subscriptionId
  transport : members.lookup "transport" = some info.transport
  endpoint : members.lookup "endpoint" = some info.endpoint
  eventTypes : ∃ v, members.lookup "event_types" = some v ∧ v.toList = .ok info.eventTypes
  scope : ∃ v, members.lookup "scope" = some v ∧ parseScope v = .ok info.scope
  ctx : ∃ v, members.lookup "ctx" = some v ∧ parseCtx v = .ok info.ctx
  active : members.lookup "active" = some info.active
  createdAt : ∃ v, members.lookup "created_at" = some v ∧ times.parse v = .ok info.createdAt

private theorem getItem_obj {name : String} {members : List (String × Json)} {v : Json} :
    (Json.obj members).getItem name = .ok v ↔ members.lookup name = some v := by
  rw [Json.getItem]
  cases members.lookup name <;> simp

theorem subscriptionInfo_ok {info : SubscriptionInfo times} :
    subscriptionInfo times data = .ok info ↔ ∃ members, data = .obj members ∧ Carries info members := by
  constructor
  · intro h
    obtain ⟨id, hid, h⟩ := except_bind_ok.1 h
    obtain ⟨members, rfl⟩ := Json.getItem_ok hid
    obtain ⟨transport, ht, h⟩ := except_bind_ok.1 h
    obtain ⟨endpoint, he, h⟩ := except_bind_ok.1 h
    obtain ⟨v, hv, h⟩ := except_bind_ok.1 h
    obtain ⟨eventTypes, hev, h⟩ := except_bind_ok.1 h
    obtain ⟨v', hv', h⟩ := except_bind_ok.1 h
    obtain ⟨scope, hs, h⟩ := except_bind_ok.1 h
    obtain ⟨v'', hv'', h⟩ := except_bind_ok.1 h
    obtain ⟨ctx, hc, h⟩ := except_bind_ok.1 h
    obtain ⟨active, ha, h⟩ := except_bind_ok.1 h
    obtain ⟨w, hw, h⟩ := except_bind_ok.1 h
    obtain ⟨createdAt, hcr, h⟩ := except_bind_ok.1 h
    cases h
    exact ⟨members, rfl, getItem_obj.1 hid, getItem_obj.1 ht, getItem_obj.1 he, ⟨v, getItem_obj.1 hv, hev⟩,
      ⟨v', getItem_obj.1 hv', hs⟩, ⟨v'', getItem_obj.1 hv'', hc⟩, getItem_obj.1 ha, ⟨w, getItem_obj.1 hw, hcr⟩⟩
  · rintro ⟨members, rfl, hid, ht, he, ⟨v, hv, hev⟩, ⟨v', hv', hs⟩, ⟨v'', hv'', hc⟩, ha, w, hw, hcr⟩
    refine except_bind_ok.2 ⟨_, getItem_obj.2 hid, except_bind_ok.2 ⟨_, getItem_obj.2 ht, except_bind_ok.2
      ⟨_, getItem_obj.2 he, except_bind_ok.2 ⟨_, getItem_obj.2 hv, except_bind_ok.2 ⟨_, hev, ?_⟩⟩⟩⟩⟩
    refine except_bind_ok.2 ⟨_, getItem_obj.2 hv', except_bind_ok.2 ⟨_, hs, except_bind_ok.2 ⟨_, getItem_obj.2 hv'',
      except_bind_ok.2 ⟨_, hc, ?_⟩⟩⟩⟩
    exact except_bind_ok.2 ⟨_, getItem_obj.2 ha, except_bind_ok.2 ⟨_, getItem_obj.2 hw, except_bind_ok.2 ⟨_, hcr, rfl⟩⟩⟩

end

end EventusSdk
