import EventusSdk.Coercion

/-!
# Webhook signatures

The signature of a body is the hex digest of its HMAC, presented in a header behind `sha256=`.  `verify_webhook` lets
`hmac.compare_digest` do the comparison, which refuses strings that are not ASCII.
-/

namespace EventusSdk

/-- `SIGNATURE_HEADER` and the other header names. -/
def signatureHeader : String := "X-LZT-Signature"

def eventIdHeader : String := "X-LZT-Event-Id"

def eventTypeHeader : String := "X-LZT-Event-Type"

def idempotencyHeader : String := "Idempotency-Key"

def signaturePrefix : String := "sha256="

/-- `s.startswith(t)`, with what is behind the prefix. -/
def afterPrefix (t s : String) : Option String :=
  if t.toList.isPrefixOf s.toList then some (String.ofList (s.toList.drop t.toList.length)) else none

/-- `hmac.compare_digest` of two strings. -/
def compareDigest (a b : String) : Except Exn Bool :=
  if isAscii a && isAscii b then .ok (a = b) else .error .typeError

section
variable (lib : Stdlib)

def signWebhook (secret : String) (body : Bytes) : String := lib.hexdigest secret body

/-- `signature_header`: the value the header should have. -/
def signatureValue (secret : String) (body : Bytes) : String := signaturePrefix ++ signWebhook lib secret body

def verifyWebhook (secret : String) (body : Bytes) (presented : Option String) : Except Exn Bool :=
  match presented with
  | none => .ok false
  | some presented =>
    match afterPrefix signaturePrefix presented with
    | none => .ok false
    | some digest => compareDigest (signWebhook lib secret body) digest

end

private theorem afterPrefix_eq_some {t s r : String} : afterPrefix t s = some r ↔ s = t ++ r := by
  unfold afterPrefix
  constructor
  · intro h
    split at h
    · next hp =>
      obtain ⟨l, hl⟩ := List.isPrefixOf_iff_prefix.1 hp
      cases h
      rw [← String.toList_inj, String.toList_append, String.toList_ofList, ← hl, List.drop_left]
    · cases h
  · rintro rfl
    rw [if_pos (List.isPrefixOf_iff_prefix.2 (by rw [String.toList_append]; exact List.prefix_append _ _)),
      String.toList_append, List.drop_left, String.ofList_toList]

private theorem append_left_injective (t : String) {r r' : String} : t ++ r = t ++ r' ↔ r = r' := by
  rw [← String.toList_inj, String.toList_append, String.toList_append, List.append_cancel_left_eq, String.toList_inj]

variable {lib : Stdlib} {secret : String} {body : Bytes} {presented : Option String}

/-- The three ways of `verify_webhook`: nothing behind the prefix, something that is not ASCII, a comparison. -/
private theorem verifyWebhook_cases (lib : Stdlib) (secret : String) (body : Bytes) (presented : Option String) :
    ((∀ digest, presented ≠ some (signaturePrefix ++ digest)) ∧
      verifyWebhook lib secret body presented = .ok false) ∨
    ∃ digest, presented = some (signaturePrefix ++ digest) ∧ verifyWebhook lib secret body presented =
      if isAscii digest = true then .ok (decide (signWebhook lib secret body = digest)) else .error .typeError := by
  cases presented with
  | none => exact Or.inl ⟨by simp, rfl⟩
  | some p =>
    unfold verifyWebhook
    simp only
    cases ha : afterPrefix signaturePrefix p with
    | none =>
      refine Or.inl ⟨fun digest h => ?_, rfl⟩
      cases h
      rw [afterPrefix_eq_some.2 rfl] at ha
      cases ha
    | some digest =>
      obtain rfl := afterPrefix_eq_some.1 ha
      exact Or.inr ⟨digest, rfl, by simp [compareDigest, signWebhook, lib.hexdigest_ascii]⟩

/-- `verify_webhook` accepts exactly the signature of the body. -/
theorem verifyWebhook_eq_true :
    verifyWebhook lib secret body presented = .ok true ↔ presented = some (signatureValue lib secret body) := by
  unfold signatureValue
  rcases verifyWebhook_cases lib secret body presented with ⟨hnone, hv⟩ | ⟨digest, rfl, hv⟩
  · rw [hv]
    simp [hnone]
  · rw [hv, Option.some.injEq, append_left_injective]
    split
    · simp [eq_comm]
    · next hascii =>
      refine iff_of_false (by simp) ?_
      rintro rfl
      exact hascii (lib.hexdigest_ascii ..)

/-- `verify_webhook` raises exactly where something that is not ASCII is presented behind the prefix. -/
theorem verifyWebhook_eq_error {e : Exn} :
    verifyWebhook lib secret body presented = .error e ↔
      e = .typeError ∧ ∃ digest, presented = some (signaturePrefix ++ digest) ∧ isAscii digest = false := by
  rcases verifyWebhook_cases lib secret body presented with ⟨hnone, hv⟩ | ⟨digest, rfl, hv⟩
  · rw [hv]
    simp [hnone]
  · rw [hv]
    simp only [Option.some.injEq, append_left_injective, exists_eq_left']
    split
    · next hascii => simp [hascii]
    · next hascii => simp [hascii, eq_comm]

/-- `verify_webhook` returns whether the signature of the body is presented, in every case but one: a digest that is
not ASCII. -/
theorem verifyWebhook_exact_iff :
    verifyWebhook lib secret body presented = .ok (decide (presented = some (signatureValue lib secret body))) ↔
      ¬ ∃ digest, presented = some (signaturePrefix ++ digest) ∧ isAscii digest = false := by
  constructor
  · intro h hdigest
    rw [verifyWebhook_eq_error.2 ⟨rfl, hdigest⟩] at h
    cases h
  · intro hdigest
    cases hv : verifyWebhook lib secret body presented with
    | error e => exact absurd (verifyWebhook_eq_error.1 hv).2 hdigest
    | ok b =>
      have htrue : b = true ↔ presented = some (signatureValue lib secret body) := by
        rw [← verifyWebhook_eq_true, hv, Except.ok.injEq]
      rw [Except.ok.injEq, Bool.eq_iff_iff, htrue, decide_eq_true_iff]

/-- The header `sha256=` with a latin-1 `é` behind it. -/
theorem verifyWebhook_not_exact :
    ∃ lib : Stdlib, verifyWebhook lib "whsec" [] (some "sha256=é") = .error .typeError ∧
      verifyWebhook lib "whsec" [] (some "sha256=é") ≠
        .ok (decide (some "sha256=é" = some (signatureValue lib "whsec" []))) := by
  let lib : Stdlib := ⟨fun _ _ => "5d41", fun _ _ => rfl, fun _ => .ok .null, fun _ => .ok "", by simp⟩
  have hraises : verifyWebhook lib "whsec" [] (some "sha256=é") = .error .typeError :=
    verifyWebhook_eq_error.2 ⟨rfl, "é", rfl, rfl⟩
  refine ⟨lib, hraises, ?_⟩
  rw [hraises]
  simp

end EventusSdk
