import Mathlib.Algebra.Order.Ring.Rat
import EventusSdk.Lib.Dict

/-!
# Events, accounts and exceptions

The values that travel through the library: JSON as `json.loads` returns it, the `ClientEvent` every transport
normalises its frames into, the account a feed is made for, the result of a feed, and the exceptions the code tells
apart by their class.
-/

namespace EventusSdk

/-- A Python float. -/
inductive PyFloat where
  | finite (q : ℚ)
  | infinity
  | negInfinity
  | nan
deriving DecidableEq

/-- A value decoded by `json.loads`; an object lists its members, each key once. -/
inductive Json where
  | null
  | bool (b : Bool)
  | int (n : Int)
  | float (x : PyFloat)
  | str (s : String)
  | arr (items : List Json)
  | obj (members : List (String × Json))

/-- A dict with JSON values as keys and values.  The keys of a decoded object are strings; `dict()` of a list may
have others. -/
abbrev EventData := List (Json × Json)

inductive TransportKind where
  | webhook
  | sse
  | ws
  | polling
deriving DecidableEq

def TransportKind.value : TransportKind → String
  | .webhook => "webhook"
  | .sse => "sse"
  | .ws => "ws"
  | .polling => "polling"

structure ClientEvent where
  seq : Int
  eventType : String
  data : EventData
  transport : TransportKind
  eventId : Option String := none
  idempotencyKey : Option String := none

/-- A `ManagementClient` object. -/
structure Client where
  id : ℕ
deriving DecidableEq

structure AccountContext where
  client : Client
  subscriptionId : String
  label : String
  secret : Option String := none
  streamToken : Option String := none
deriving DecidableEq

/-- The exception classes the code distinguishes.  `jsonDecodeError` and `unicodeDecodeError` are subclasses of
`ValueError`; `other` is any further subclass of `Exception`, `base` a `BaseException` outside `Exception`. -/
inductive Exn where
  | skipHandler
  | typeError
  | valueError
  | keyError
  | attributeError
  | overflowError
  | jsonDecodeError
  | unicodeDecodeError
  | handlerError (eventType : String) (seq : Int) (cause : Exn)
  | httpError
  | sseProtocolError
  | webSocketException
  | osError
  | wsProtocolError
  | other (cls : String)
  | base (cls : String)
deriving DecidableEq

/-- Caught by `except Exception`. -/
def Exn.isException : Exn → Bool
  | .base _ => false
  | _ => true

/-- Caught by `except ValueError`. -/
def Exn.isValueError : Exn → Bool
  | .valueError | .jsonDecodeError | .unicodeDecodeError => true
  | _ => false

inductive DispatchOutcome where
  | handled
  | skipped
  | duplicate
  | errored
deriving DecidableEq

structure DispatchResult where
  outcome : DispatchOutcome
  event : ClientEvent
  error : Option Exn := none

/-- A Python object as it sits in the `data` dict; `object` stands for whatever a filter or a middleware puts there. -/
inductive Value where
  | none
  | str (s : String)
  | ctx (account : AccountContext)
  | client (c : Client)
  | event (e : ClientEvent)
  | object (id : ℕ)

/-- The `data` dict of a feed. -/
abbrev Data := Dict String Value

/-! ### A number as text -/

/-- It has digits and a sign only. -/
theorem toString_digits {n : Int} {c : Char} (h : c ∈ (toString n).toList) : c.isDigit = true ∨ c = '-' := by
  have hnat : ∀ {m : ℕ}, c ∈ m.repr.toList → c.isDigit = true := fun {m} hc => by
    rw [Nat.repr, String.toList_ofList] at hc
    exact Nat.isDigit_of_mem_toDigits (by decide) (by decide) hc
  cases n with
  | ofNat m => exact Or.inl (hnat h)
  | negSucc m =>
    have h' : c ∈ ("-" ++ Nat.repr (m + 1)).toList := h
    rw [String.toList_append] at h'
    rcases List.mem_append.1 h' with h' | h'
    · exact Or.inr (List.mem_singleton.1 h')
    · exact Or.inl (hnat h')

end EventusSdk
