import EventusSdk.Coercion

/-!
# Python's comparisons of JSON values

Numbers compare by value, booleans being numbers, and a NaN is equal to nothing; strings compare by their code points,
lists item by item.  Objects and `None` are equal or not, and have no order.
-/

namespace EventusSdk

inductive CmpOp where
  | eq
  | ne
  | gt
  | ge
  | lt
  | le
deriving DecidableEq

namespace CmpOp

/-- Whether the operator holds between two things of this order; a NaN has none. -/
def test : CmpOp → Option Ordering → Bool
  | .eq, o => o = some .eq
  | .ne, o => o ≠ some .eq
  | .gt, o => o = some .gt
  | .ge, o => o = some .gt || o = some .eq
  | .lt, o => o = some .lt
  | .le, o => o = some .lt || o = some .eq

/-- The operator of the reflected method. -/
def reflected : CmpOp → CmpOp
  | .eq => .eq
  | .ne => .ne
  | .gt => .lt
  | .ge => .le
  | .lt => .gt
  | .le => .ge

end CmpOp

def PyFloat.order : PyFloat → PyFloat → Option Ordering
  | .nan, _ | _, .nan => none
  | .finite p, .finite q => some (compare p q)
  | .infinity, .infinity | .negInfinity, .negInfinity => some .eq
  | .infinity, _ | _, .negInfinity => some .gt
  | .negInfinity, _ | _, .infinity => some .lt

namespace Json

/-- The order of two numbers, if both values are numbers. -/
def numberOrder (v w : Json) : Option (Option Ordering) := do
  let x ← v.number
  let y ← w.number
  return x.order y

mutual

/-- `v == w`; no two NaN are taken to be the same object. -/
def pyEq : Json → Json → Bool
  | .null, .null => true
  | .str s, .str t => s = t
  | .arr xs, .arr ys => eqItems xs ys
  | .obj ms, .obj ns => ms.length = ns.length && eqMembers ms ns
  | v, w => (numberOrder v w).any (CmpOp.test .eq)

def eqItems : List Json → List Json → Bool
  | [], [] => true
  | x :: xs, y :: ys => x.pyEq y && eqItems xs ys
  | _, _ => false

def eqMembers : List (String × Json) → List (String × Json) → Bool
  | [], _ => true
  | (k, v) :: ms, ns => (ns.lookup k).any v.pyEq && eqMembers ms ns

end

mutual

/-- `v < w` and the like. -/
def compareBy (op : CmpOp) : Json → Json → Except Exn Bool
  | .str s, .str t => .ok (op.test (some (compare s t)))
  | .arr xs, .arr ys => compareItems op xs ys
  | v, w =>
    match numberOrder v w with
    | some o => .ok (op.test o)
    | none => .error .typeError

/-- The first items that differ decide, else the lengths. -/
def compareItems (op : CmpOp) : List Json → List Json → Except Exn Bool
  | [], ys => .ok (op.test (some (compare 0 ys.length)))
  | _ :: _, [] => .ok (op.test (some .gt))
  | x :: xs, y :: ys => if x.pyEq y then compareItems op xs ys else x.compareBy op y

end

mutual

/-- A comparison that fails raises `TypeError`. -/
theorem compareBy_error {op : CmpOp} : ∀ {v w : Json} {e : Exn}, v.compareBy op w = .error e → e = .typeError
  | v, w, e, h => by
    unfold compareBy at h
    split at h
    · cases h
    · exact compareItems_error h
    · split at h
      · cases h
      · cases h; rfl

theorem compareItems_error {op : CmpOp} : ∀ {xs ys : List Json} {e : Exn},
    compareItems op xs ys = .error e → e = .typeError
  | [], ys, e, h => by
    unfold compareItems at h
    cases h
  | x :: xs, [], e, h => by
    unfold compareItems at h
    cases h
  | x :: xs, y :: ys, e, h => by
    unfold compareItems at h
    split at h
    · exact compareItems_error h
    · exact compareBy_error h

end

end Json

end EventusSdk
