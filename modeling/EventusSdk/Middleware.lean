import EventusSdk.Dispatcher

/-!
# The middleware of the library

Each middleware is a function of the next link of its chain.  Writing to the log is not modelled, which leaves
`LoggingMiddleware` nothing to do.
-/

namespace EventusSdk

/-- `LoggingMiddleware`. -/
def logging {ρ : Type} : Middleware ρ := fun handler event data => handler event data

/-- `ErrorBoundaryMiddleware`: every `Exception` that leaves the next link is wrapped into a `HandlerError`. -/
def errorBoundary {ρ : Type} : Middleware ρ := fun handler event data =>
  (handler event data).tryCatch fun exc =>
    if exc.isException then .raise (.handlerError event.eventType event.seq exc) else .raise exc

/-- `IdempotencyMiddleware`.  `str` is what an f-string makes of an object that is neither a string nor `None`. -/
structure IdempotencyMiddleware where
  ttl : ℚ := 86400
  str : Value → String

namespace IdempotencyMiddleware

def format (m : IdempotencyMiddleware) : Option Value → String
  | none | some .none => "None"
  | some (.str s) => s
  | some v => m.str v

/-- The first of the event's own keys that is there and not empty, else the key made of the subscription and `seq`. -/
def key (m : IdempotencyMiddleware) (event : ClientEvent) (subId : Option Value) : String :=
  match event.idempotencyKey.filter (· ≠ ""), event.eventId.filter (· ≠ "") with
  | some k, _ => k
  | none, some k => k
  | none, none => m.format subId ++ ":" ++ toString event.seq

def call (m : IdempotencyMiddleware) : Middleware DispatchResult := fun handler event data => do
  let new : Bool ← ask (.markIfNew (m.key event (data.lookup "subscription_id")) m.ttl)
  if new then handler event data
  else .ret (⟨.duplicate, event, none⟩, data)

end IdempotencyMiddleware

/-! ### What a run of them is -/

/-- The next link runs once, and an `Exception` that leaves it comes out wrapped. -/
theorem errorBoundary_runs {ρ : Type} {handler : Handler ρ} {event : ClientEvent} {data : Data} {t : List Call}
    {res : Except Exn (ρ × Data)} (hrun : (errorBoundary handler event data).Runs t res) :
    ∃ x, (handler event data).Runs t x ∧ ((∃ a, x = .ok a ∧ res = .ok a) ∨ ∃ e, x = .error e ∧
      res = .error (if e.isException then .handlerError event.eventType event.seq e else e)) := by
  rcases Prog.runs_tryCatch.1 hrun with ⟨a, rfl, h⟩ | ⟨e, t₁, t₂, rfl, h, hcatch⟩
  · exact ⟨.ok a, h, Or.inl ⟨a, rfl, rfl⟩⟩
  · have hraise : t₂ = [] ∧
        res = .error (if e.isException then .handlerError event.eventType event.seq e else e) := by
      split at hcatch
      · next hex => rwa [if_pos hex]
      · next hex => rwa [if_neg hex]
    obtain ⟨rfl, hres⟩ := hraise
    rw [List.append_nil]
    exact ⟨.error e, h, Or.inr ⟨e, rfl, hres⟩⟩

/-- The store is asked first; the next link runs if it has not seen the key. -/
theorem IdempotencyMiddleware.runs_cases (m : IdempotencyMiddleware) {handler : Handler DispatchResult}
    {event : ClientEvent} {data : Data} {t : List Call} {res : Except Exn (DispatchResult × Data)}
    (hrun : (m.call handler event data).Runs t res) :
    ∃ x t', t = ⟨.markIfNew (m.key event (data.lookup "subscription_id")) m.ttl, x⟩ :: t' ∧
      ((x = .ok true ∧ (handler event data).Runs t' res) ∨
        (x = .ok false ∧ t' = [] ∧ res = .ok (⟨.duplicate, event, none⟩, data)) ∨
        ∃ e, x = .error e ∧ t' = [] ∧ res = .error e) := by
  rcases Prog.runs_bind.1 hrun with ⟨new, t₁, t₂, rfl, hask, h⟩ | ⟨e, rfl, hask⟩ <;>
    obtain rfl := Prog.runs_request.1 hask
  · refine ⟨.ok new, t₂, rfl, ?_⟩
    cases new with
    | true => exact Or.inl ⟨rfl, h⟩
    | false => exact Or.inr (Or.inl ⟨rfl, h.1, h.2⟩)
  · exact ⟨.error e, [], rfl, Or.inr (Or.inr ⟨e, rfl, rfl, rfl⟩)⟩

/-! ### Middleware in front of another -/

/-- The middleware only hands on to the next link, whose exceptions it may turn into others. -/
def Relaying (m : Middleware DispatchResult) : Prop :=
  ∀ handler event data, ∃ f : Exn → Exn, m handler event data = (handler event data).tryCatch fun e => .raise (f e)

theorem logging_relaying : Relaying logging := fun _ _ _ => ⟨id, (Prog.tryCatch_raise _).symm⟩

theorem errorBoundary_relaying : Relaying errorBoundary := by
  intro handler event data
  refine ⟨fun exc => if exc.isException then .handlerError event.eventType event.seq exc else exc, ?_⟩
  refine congrArg (Prog.tryCatch _) (funext fun exc => ?_)
  by_cases hexc : exc.isException = true
  · simp only [hexc, ↓reduceIte]
  · simp only [hexc, Bool.false_eq_true, ↓reduceIte]

theorem chain_relaying {pre : List (Middleware DispatchResult)} (hpre : ∀ m' ∈ pre, Relaying m')
    (handler : Handler DispatchResult) (event : ClientEvent) (data : Data) :
    ∃ f : Exn → Exn, chain pre handler event data = (handler event data).tryCatch fun e => .raise (f e) := by
  induction pre with
  | nil => exact logging_relaying handler event data
  | cons m' pre ih =>
    obtain ⟨f, hf⟩ := hpre m' (List.mem_cons_self ..) (chain pre handler) event data
    obtain ⟨g, hg⟩ := ih fun m h => hpre m (List.mem_cons_of_mem _ h)
    refine ⟨f ∘ g, ?_⟩
    rw [chain_cons, hf, hg, Prog.tryCatch_tryCatch]
    rfl

/-- The default time to live, one day. -/
def dayLong : IdempotencyMiddleware := ⟨86400, fun _ => ""⟩

/-- The handler `greet`, behind the dedup middleware. -/
def greeter : Dispatcher := { root := greetRouter, outer := [dayLong.call] }

end EventusSdk
