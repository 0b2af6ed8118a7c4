import EventusSdk.Events

/-!
# Python's conversions of JSON values

What `int()`, `str()`, `dict()` and the item access do with a value that `json.loads` returned, exceptions included.
`Stdlib` holds what the model leaves open: the hash, the JSON parser and the texts of floats and containers.
-/

namespace EventusSdk

abbrev Bytes := List UInt8

def isAscii (s : String) : Bool := s.toList.all fun c => c.toNat < 128

/-- What the code takes from the standard library and the model leaves open: the hex digest of HMAC-SHA256,
`json.loads` on bytes, and `str()` of a float, a list or a dict. -/
structure Stdlib where
  hexdigest : String → Bytes → String
  hexdigest_ascii : ∀ secret body, isAscii (hexdigest secret body) = true
  loads : Bytes → Except Exn Json
  repr : Json → Except Exn String
  repr_error : ∀ v e, repr v = .error e → e = .valueError

/-- Python refuses to convert between strings and integers of more decimal digits. -/
def maxStrDigits : ℕ := 4300

/-! ### `int()` -/

/-- The code points `str.isspace` accepts. -/
def spaces : List ℕ :=
  [0x9, 0xa, 0xb, 0xc, 0xd, 0x1c, 0x1d, 0x1e, 0x1f, 0x20, 0x85, 0xa0, 0x1680, 0x2000, 0x2001, 0x2002, 0x2003, 0x2004,
    0x2005, 0x2006, 0x2007, 0x2008, 0x2009, 0x200a, 0x2028, 0x2029, 0x202f, 0x205f, 0x3000]

/-- The code points of the digit zero; the nine code points behind each are the other digits. -/
def zeros : List ℕ :=
  [0x30, 0x660, 0x6f0, 0x7c0, 0x966, 0x9e6, 0xa66, 0xae6, 0xb66, 0xbe6, 0xc66, 0xce6, 0xd66, 0xde6, 0xe50, 0xed0, 0xf20,
    0x1040, 0x1090, 0x17e0, 0x1810, 0x1946, 0x19d0, 0x1a80, 0x1a90, 0x1b50, 0x1bb0, 0x1c40, 0x1c50, 0xa620, 0xa8d0,
    0xa900, 0xa9d0, 0xa9f0, 0xaa50, 0xabf0, 0xff10, 0x104a0, 0x10d30, 0x11066, 0x110f0, 0x11136, 0x111d0, 0x112f0,
    0x11450, 0x114d0, 0x11650, 0x116c0, 0x11730, 0x118e0, 0x11950, 0x11c50, 0x11d50, 0x11da0, 0x11f50, 0x16a60, 0x16ac0,
    0x16b50, 0x1d7ce, 0x1d7d8, 0x1d7e2, 0x1d7ec, 0x1d7f6, 0x1e140, 0x1e2f0, 0x1e4f0, 0x1e950, 0x1fbf0]

def isSpace (c : Char) : Bool := spaces.contains c.toNat

/-- The code points `int()` strips: the separators from `0x1c` to `0x1f` are spaces to `str`, and none to `int()`. -/
def intSpaces : List ℕ :=
  [0x9, 0xa, 0xb, 0xc, 0xd, 0x20, 0x85, 0xa0, 0x1680, 0x2000, 0x2001, 0x2002, 0x2003, 0x2004, 0x2005, 0x2006, 0x2007,
    0x2008, 0x2009, 0x200a, 0x2028, 0x2029, 0x202f, 0x205f, 0x3000]

def isIntSpace (c : Char) : Bool := intSpaces.contains c.toNat

def digitOf (c : Char) : Option ℕ :=
  zeros.findSome? fun z => if z ≤ c.toNat ∧ c.toNat < z + 10 then some (c.toNat - z) else none

/-- Digits, with single underscores allowed between them. -/
def digitsOf : List Char → Option (List ℕ)
  | [] => none
  | [c] => (digitOf c).map fun d => [d]
  | c :: '_' :: cs => do
    let d ← digitOf c
    let ds ← digitsOf cs
    return d :: ds
  | c :: cs => do
    let d ← digitOf c
    let ds ← digitsOf cs
    return d :: ds

def natOfDigits (cs : List Char) : Option ℕ := do
  let ds ← digitsOf cs
  if ds.length ≤ maxStrDigits then return ds.foldl (fun n d => 10 * n + d) 0 else none

/-- `int(s)` of a string. -/
def intOfString (s : String) : Option Int :=
  match ((s.toList.dropWhile isIntSpace).reverse.dropWhile isIntSpace).reverse with
  | '-' :: cs => (natOfDigits cs).map fun n => -(n : Int)
  | '+' :: cs => (natOfDigits cs).map fun n => (n : Int)
  | cs => (natOfDigits cs).map fun n => (n : Int)

example : intOfString " -1_0\n" = some (-10) ∧ intOfString "\x1c5" = none := by decide

namespace Json

/-- `int(v)`. -/
def toInt : Json → Except Exn Int
  | .bool b => .ok (if b then 1 else 0)
  | .int n => .ok n
  -- towards zero
  | .float (.finite q) => .ok (q.num.tdiv q.den)
  | .float .nan => .error .valueError
  | .float _ => .error .overflowError
  | .str s =>
    match intOfString s with
    | some n => .ok n
    | none => .error .valueError
  | _ => .error .typeError

/-! ### `str()` -/

/-- `str(v)`. -/
def toStr (lib : Stdlib) : Json → Except Exn String
  | .null => .ok "None"
  | .bool b => .ok (if b then "True" else "False")
  | .int n => if n.natAbs < 10 ^ maxStrDigits then .ok (toString n) else .error .valueError
  | .str s => .ok s
  | v => lib.repr v

/-! ### `dict()` -/

def hashable : Json → Bool
  | .arr _ | .obj _ => false
  | _ => true

/-- The number a value is equal to, if it is one. -/
def number : Json → Option PyFloat
  | .bool b => some (.finite (if b then 1 else 0))
  | .int n => some (.finite n)
  | .float x => some x
  | _ => none

/-- Equality of two keys of a dict. -/
def keyEq : Json → Json → Bool
  | .null, .null => true
  | .str s, .str t => s = t
  | a, b =>
    match a.number, b.number with
    | some x, some y => x = y
    | _, _ => false

/-- `d[k] = v`. -/
def setItem (d : EventData) (k v : Json) : EventData :=
  match d with
  | [] => [(k, v)]
  | (k', v') :: d => if k'.keyEq k then (k', v) :: d else (k', v') :: setItem d k v

/-- An element of the sequence given to `dict()`, taken apart into a key and a value. -/
def toPair : Json → Except Exn (Json × Json)
  | .arr [k, v] => .ok (k, v)
  -- a dict is the sequence of its keys, a string that of its characters
  | .obj [(k, _), (v, _)] => .ok (.str k, .str v)
  | .str s =>
    match s.toList with
    | [k, v] => .ok (.str (String.ofList [k]), .str (String.ofList [v]))
    | _ => .error .valueError
  | .arr _ | .obj _ => .error .valueError
  | _ => .error .typeError

def pairsToDict : List Json → EventData → Except Exn EventData
  | [], d => .ok d
  | item :: items, d => do
    let (k, v) ← item.toPair
    if k.hashable then pairsToDict items (setItem d k v) else .error .typeError

/-- `dict(v)`; of a string, every character is a sequence of length one. -/
def toDict : Json → Except Exn EventData
  | .obj members => .ok (members.map fun (k, v) => (.str k, v))
  | .arr items => pairsToDict items []
  | .str s => if s = "" then .ok [] else .error .valueError
  | _ => .error .typeError

/-! ### `bool()` -/

/-- `bool(v)`. -/
def truthy : Json → Bool
  | .null => false
  | .bool b => b
  | .int n => n ≠ 0
  | .float x => x ≠ .finite 0
  | .str s => s ≠ ""
  | .arr items => !items.isEmpty
  | .obj members => !members.isEmpty

/-! ### Members -/

/-- `v[name]`. -/
def getItem (name : String) : Json → Except Exn Json
  | .obj members =>
    match members.lookup name with
    | some v => .ok v
    | none => .error .keyError
  | _ => .error .typeError

/-- `v.get(name, default)`. -/
def get (v : Json) (name : String) (default : Json) : Except Exn Json :=
  match v with
  | .obj members => .ok ((members.lookup name).getD default)
  | _ => .error .attributeError

end Json

/-- Caught by `except (KeyError, TypeError, ValueError)`. -/
def Exn.isMalformed (e : Exn) : Bool := e = .keyError || e = .typeError || e.isValueError

/-! ### What the conversions raise -/

theorem except_bind_error {α β : Type} {x : Except Exn α} {f : α → Except Exn β} {e : Exn} :
    (x >>= f) = .error e ↔ x = .error e ∨ ∃ a, x = .ok a ∧ f a = .error e := by
  cases x <;> simp [bind, Except.bind]

theorem except_bind_ok {α β : Type} {x : Except Exn α} {f : α → Except Exn β} {b : β} :
    (x >>= f) = .ok b ↔ ∃ a, x = .ok a ∧ f a = .ok b := by
  cases x <;> simp [bind, Except.bind]

namespace Json

theorem getItem_error {name : String} {v : Json} {e : Exn} (h : v.getItem name = .error e) : e.isMalformed = true := by
  cases v with
  | obj members =>
    simp only [getItem] at h
    split at h
    · cases h
    · cases h; rfl
  | _ => cases h; rfl

theorem getItem_ok {name : String} {v w : Json} (h : v.getItem name = .ok w) : ∃ members, v = .obj members := by
  cases v with
  | obj members => exact ⟨members, rfl⟩
  | _ => cases h

/-- `int()` of a JSON value raises what the callers catch, except on an infinite float. -/
theorem toInt_error {v : Json} {e : Exn} (h : v.toInt = .error e) :
    e.isMalformed = true ∨ (e = .overflowError ∧ (v = .float .infinity ∨ v = .float .negInfinity)) := by
  cases v with
  | bool b => cases h
  | int n => cases h
  | float x =>
    cases x with
    | finite q => cases h
    | infinity => cases h; exact Or.inr ⟨rfl, Or.inl rfl⟩
    | negInfinity => cases h; exact Or.inr ⟨rfl, Or.inr rfl⟩
    | nan => cases h; exact Or.inl rfl
  | str s =>
    simp only [toInt] at h
    split at h
    · cases h
    · cases h; exact Or.inl rfl
  | _ => cases h; exact Or.inl rfl

theorem toStr_error {lib : Stdlib} {v : Json} {e : Exn} (h : v.toStr lib = .error e) : e.isMalformed = true := by
  have hrepr : ∀ {v}, lib.repr v = .error e → e.isMalformed = true := fun h => by
    rw [lib.repr_error _ _ h]
    rfl
  cases v with
  | null => cases h
  | bool b => cases h
  | str s => cases h
  | int n =>
    simp only [toStr] at h
    split at h
    · cases h
    · cases h; rfl
  | float x => exact hrepr h
  | arr items => exact hrepr h
  | obj members => exact hrepr h

private theorem toPair_error {v : Json} {e : Exn} (h : v.toPair = .error e) : e.isMalformed = true := by
  unfold toPair at h
  split at h
  · cases h
  · cases h
  · split at h
    · cases h
    · cases h; rfl
  · cases h; rfl
  · cases h; rfl
  · cases h; rfl

private theorem pairsToDict_error {items : List Json} {d : EventData} {e : Exn} (h : pairsToDict items d = .error e) :
    e.isMalformed = true := by
  induction items generalizing d with
  | nil => cases h
  | cons item items ih =>
    rcases except_bind_error.1 h with hp | ⟨⟨k, v⟩, -, h⟩
    · exact toPair_error hp
    · simp only at h
      split at h
      · exact ih h
      · cases h; rfl

theorem toDict_error {v : Json} {e : Exn} (h : v.toDict = .error e) : e.isMalformed = true := by
  cases v with
  | obj members => cases h
  | arr items => exact pairsToDict_error h
  | str s =>
    simp only [toDict] at h
    split at h
    · cases h
    · cases h; rfl
  | _ => cases h; rfl

/-! ### What the conversions accept -/

/-- An integer, a boolean, a finite float, or a string with an integer in it. -/
def IntLike : Json → Prop
  | .int _ | .bool _ | .float (.finite _) => True
  | .str s => (intOfString s).isSome = true
  | _ => False

/-- Anything that has a text; an integer has none if it is too long. -/
def StrLike (lib : Stdlib) : Json → Prop
  | .null | .bool _ | .str _ => True
  | .int n => n.natAbs < 10 ^ maxStrDigits
  | v => ∃ s, lib.repr v = .ok s

/-- A list of two with a key that has a hash, an object of two members, or a string of two characters. -/
def PairLike : Json → Prop
  | .arr [k, _] => k.hashable = true
  | .obj [_, _] => True
  | .str s => s.toList.length = 2
  | _ => False

/-- An object, a list of pairs, or the empty string. -/
def DictLike : Json → Prop
  | .obj _ => True
  | .arr items => ∀ item ∈ items, item.PairLike
  | .str s => s = ""
  | _ => False

theorem toInt_ok {v : Json} : (∃ n, v.toInt = .ok n) ↔ v.IntLike := by
  cases v with
  | float x => cases x <;> simp [toInt, IntLike]
  | str s => cases h : intOfString s <;> simp [toInt, IntLike, h]
  | _ => simp [toInt, IntLike]

theorem toStr_ok {lib : Stdlib} {v : Json} : (∃ s, v.toStr lib = .ok s) ↔ v.StrLike lib := by
  cases v with
  | int n => by_cases h : n.natAbs < 10 ^ maxStrDigits <;> simp only [toStr, StrLike, h] <;> simp
  | _ => simp [toStr, StrLike]

/-- `dict()` takes an element, and hashes its key. -/
private theorem toPair_ok {v : Json} : (∃ k w, v.toPair = .ok (k, w) ∧ k.hashable = true) ↔ v.PairLike := by
  cases v with
  | arr items => rcases items with _ | ⟨k, _ | ⟨w, _ | ⟨x, items⟩⟩⟩ <;> simp [toPair, PairLike]
  | obj members =>
    rcases members with _ | ⟨⟨k, v⟩, _ | ⟨⟨w, v'⟩, _ | ⟨x, members⟩⟩⟩ <;> simp [toPair, PairLike, hashable]
  | str s =>
    rcases h : s.toList with _ | ⟨k, _ | ⟨w, _ | ⟨x, cs⟩⟩⟩ <;> simp [toPair, PairLike, hashable, h]
  | _ => simp [toPair, PairLike]

private theorem pairsToDict_ok {items : List Json} {d : EventData} :
    (∃ d', pairsToDict items d = .ok d') ↔ ∀ item ∈ items, item.PairLike := by
  induction items generalizing d with
  | nil => simp [pairsToDict]
  | cons item items ih =>
    rw [List.forall_mem_cons, ← toPair_ok, pairsToDict]
    constructor
    · rintro ⟨d', h⟩
      obtain ⟨⟨k, w⟩, hp, h⟩ := except_bind_ok.1 h
      simp only at h
      split at h
      · next hk => exact ⟨⟨k, w, hp, hk⟩, ih.1 ⟨d', h⟩⟩
      · cases h
    · rintro ⟨⟨k, w, hp, hk⟩, hitems⟩
      obtain ⟨d', h⟩ := (ih (d := setItem d k w)).2 hitems
      exact ⟨d', except_bind_ok.2 ⟨(k, w), hp, by simpa [hk] using h⟩⟩

theorem toDict_ok {v : Json} : (∃ d, v.toDict = .ok d) ↔ v.DictLike := by
  cases v with
  | arr items => exact pairsToDict_ok
  | str s => by_cases h : s = "" <;> simp [toDict, DictLike, h]
  | _ => simp [toDict, DictLike]

end Json

end EventusSdk
