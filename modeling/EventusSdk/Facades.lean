import EventusSdk.Cursors
import EventusSdk.Middleware

/-!
# Two facades over one storage

An `IdempotencyStore` and a `CursorStore` over the same storage share its keys: a dedup key stands for an event that
was seen, `<subscription>:<transport>` for a cursor.  The keys that the dedup middleware makes itself end in a `seq`
and are no cursor keys, but an event may bring a key of its own, of any text.
-/

namespace EventusSdk

open Transition

/-! ### The shared storage -/

/-- What lies under a key: `_SEEN`, or a `seq`. -/
inductive StoredValue where
  | seen
  | seq (n : Int)
deriving DecidableEq

/-- The value as the cursor store reads it; `True` is 1. -/
def StoredValue.toInt : StoredValue → Int
  | .seen => 1
  | .seq n => n

abbrev SharedStorage := MemoryStorage String StoredValue

namespace SharedStorage

/-- `IdempotencyStore.mark_if_new`. -/
def markIfNew (store : SharedStorage) (key : String) (ttl : Option ℚ) (r : Readings) : Bool × SharedStorage :=
  MemoryStorage.setIfNotExists store key .seen ttl r

/-- `CursorStore.get`. -/
def cursor (store : SharedStorage) (subscriptionId : String) (transport : TransportKind) (now : ℚ) :
    Int × SharedStorage :=
  let (value, store) := MemoryStorage.get store (CursorStore.key subscriptionId transport) now
  ((value.map StoredValue.toInt).getD 0, store)

/-- `CursorStore.advance`. -/
def advance (store : SharedStorage) (a : Advance) (r : Readings) : SharedStorage :=
  let (current, store) := store.cursor a.subscriptionId a.transport r.check
  if a.seq > current then MemoryStorage.set store a.key (.seq a.seq) none r else store

/-- A mark is alive under the key. -/
def MarkUnder (store : SharedStorage) (now : ℚ) (key : String) : Prop :=
  TtlMap.get (MemoryStorage.entries store) now key = some .seen

/-- A cursor is stored under the key. -/
def CursorUnder (store : SharedStorage) (now : ℚ) (key : String) : Prop :=
  ∃ n, TtlMap.get (MemoryStorage.entries store) now key = some (.seq n)

end SharedStorage

/-- The key that an event brings along. -/
def ClientEvent.ownKey (event : ClientEvent) : Option String :=
  (event.idempotencyKey.filter (· ≠ "")).or (event.eventId.filter (· ≠ ""))

/-! ### Histories of both -/

/-- The shared storage, beside it a dedup store that the same events are fed to, and the calls of `advance`. -/
structure FacadeState where
  shared : SharedStorage
  alone : IdempotencyStore
  advances : List Advance
  now : ℚ

def FacadeState.start (t : ℚ) : FacadeState := ⟨.empty, .empty, [], t⟩

/-- An event is fed, a cursor is advanced, or it is read, each with what is answered. -/
inductive FacadeLabel where
  | fed (event : ClientEvent) (data : Data) (r : Readings) (new : Bool)
  | advanced (a : Advance) (r : Readings)
  | got (subscriptionId : String) (transport : TransportKind) (now : ℚ) (seq : Int)

/-- There is an answer. -/
def FacadeLabel.Answers : FacadeLabel → Prop
  | .advanced .. => False
  | _ => True

/-- The maximum of 0 and of the `seq`s advanced to for the pair. -/
def greatestSeq (advances : List Advance) (subscriptionId : String) (transport : TransportKind) : Int :=
  ((advances.filter fun a => a.subscriptionId = subscriptionId ∧ a.transport = transport).map Advance.seq).foldr max 0

namespace IdempotencyMiddleware

variable (m : IdempotencyMiddleware)

/-- The key under which an event is looked up. -/
def feedKey (event : ClientEvent) (data : Data) : String := m.key event (data.lookup "subscription_id")

inductive FacadeStep : FacadeState → FacadeLabel → FacadeState → Prop where
  | fed {s : FacadeState} {r : Readings} (event : ClientEvent) (data : Data) (h : s.now ≤ r.check) :
      FacadeStep s (.fed event data r (s.shared.markIfNew (m.feedKey event data) m.ttl r).1)
        { s with
          shared := (s.shared.markIfNew (m.feedKey event data) m.ttl r).2
          alone := (s.alone.markIfNew (m.feedKey event data) m.ttl r).2
          now := r.sweep }
  | advanced {s : FacadeState} {r : Readings} (a : Advance) (h : s.now ≤ r.check) :
      FacadeStep s (.advanced a r)
        { s with shared := s.shared.advance a r, advances := a :: s.advances, now := r.sweep }
  | got {s : FacadeState} {now : ℚ} (subscriptionId : String) (transport : TransportKind) (h : s.now ≤ now) :
      FacadeStep s (.got subscriptionId transport now (s.shared.cursor subscriptionId transport now).1)
        { s with shared := (s.shared.cursor subscriptionId transport now).2, now }

/-- The answer of `mark_if_new` is that of the dedup store on its own, the answer of `get` is the greatest `seq`. -/
def Right (s : FacadeState) : FacadeLabel → Prop
  | .fed event data r new => new = (s.alone.markIfNew (m.feedKey event data) m.ttl r).1
  | .advanced .. => True
  | .got subscriptionId transport _ seq => seq = greatestSeq s.advances subscriptionId transport

/-- The event does not bring the key of a cursor that is stored, and no mark is alive under the key of the cursor that
is advanced or read. -/
def Apart (s : FacadeState) : FacadeLabel → Prop
  | .fed event _ r _ => ∀ key, event.ownKey = some key → ¬ s.shared.CursorUnder r.check key
  | .advanced a r => ¬ s.shared.MarkUnder r.check a.key
  | .got subscriptionId transport now _ => ¬ s.shared.MarkUnder now (CursorStore.key subscriptionId transport)

end IdempotencyMiddleware

/-! ### Keys -/

/-- A key that ends in a `seq` is no cursor key. -/
private theorem seqKey_ne_cursorKey (text subscriptionId : String) (seq : Int) (transport : TransportKind) :
    text ++ ":" ++ toString seq ≠ CursorStore.key subscriptionId transport := by
  intro h
  have hseq : ':' ∉ (toString seq).toList.reverse := by
    intro hc
    rcases toString_digits (List.mem_reverse.1 hc) with hc | hc <;> revert hc <;> decide
  have htransport : ':' ∉ transport.value.toList.reverse := by
    cases transport <;> decide
  have hlists := congrArg (fun s => s.toList.reverse) h
  simp only [CursorStore.key, String.toList_append, List.reverse_append, List.append_assoc] at hlists
  obtain ⟨heq, -⟩ := History.first_split hlists hseq htransport
  have hletter : ∃ c ∈ transport.value.toList, ¬ (c.isDigit = true ∨ c = '-') := by
    cases transport <;> exact ⟨_, List.mem_cons_self .., by decide⟩
  obtain ⟨c, hc, hnot⟩ := hletter
  refine hnot (toString_digits (n := seq) ?_)
  rw [List.reverse_injective heq]
  exact hc

section
variable {m : IdempotencyMiddleware} {event : ClientEvent} {data : Data}

private theorem feedKey_own {key : String} (h : event.ownKey = some key) : m.feedKey event data = key := by
  unfold ClientEvent.ownKey at h
  unfold IdempotencyMiddleware.feedKey IdempotencyMiddleware.key
  cases hi : event.idempotencyKey.filter (· ≠ "") with
  | some k =>
    rw [hi] at h
    exact Option.some.inj h
  | none =>
    rw [hi, Option.none_or] at h
    rw [h]

private theorem feedKey_seq (h : event.ownKey = none) :
    ∃ text, m.feedKey event data = text ++ ":" ++ toString event.seq := by
  obtain ⟨hi, he⟩ := Option.or_eq_none_iff.1 h
  refine ⟨m.format (data.lookup "subscription_id"), ?_⟩
  unfold IdempotencyMiddleware.feedKey IdempotencyMiddleware.key
  rw [hi, he]

end

/-! ### What lies under a key -/

/-- The greatest of the `seq`s advanced to under a key. -/
def greatestAt (advances : List Advance) (key : String) : Int :=
  ((advances.filter fun a => a.key = key).map Advance.seq).foldr max 0

private theorem greatestSeq_eq (advances : List Advance) (subscriptionId : String) (transport : TransportKind) :
    greatestSeq advances subscriptionId transport = greatestAt advances (CursorStore.key subscriptionId transport) := by
  unfold greatestSeq greatestAt
  congr 2
  refine List.filter_congr fun a _ => ?_
  have hiff : a.key = CursorStore.key subscriptionId transport ↔
      a.subscriptionId = subscriptionId ∧ a.transport = transport :=
    ⟨CursorStore.key_inj, fun ⟨hs, ht⟩ => by rw [Advance.key, hs, ht]⟩
  simp [hiff]

private theorem greatestAt_same (a : Advance) (advances : List Advance) :
    greatestAt (a :: advances) a.key = max a.seq (greatestAt advances a.key) := by
  unfold greatestAt
  rw [List.filter_cons_of_pos (by simp)]
  rfl

private theorem greatestAt_other {a : Advance} {key : String} (h : a.key ≠ key) (advances : List Advance) :
    greatestAt (a :: advances) key = greatestAt advances key := by
  unfold greatestAt
  rw [List.filter_cons_of_neg (by simpa using h)]

/-- What the shared storage and the dedup store on its own remember under a key, at the reading `t`: nothing, the same
mark, or a cursor, which has taken the place of a mark only if that had expired. -/
inductive Slot (t : ℚ) (advances : List Advance) (key : String) :
    Option (Entry StoredValue) → Option (Entry Bool) → Prop where
  | free (hg : greatestAt advances key = 0) : Slot t advances key none none
  | mark (x : Option ℚ) (hg : greatestAt advances key = 0) : Slot t advances key (some ⟨.seen, x⟩) (some ⟨true, x⟩)
  | cursor (subscriptionId : String) (transport : TransportKind) {n : Int} {mark : Option (Entry Bool)}
      (hkey : key = CursorStore.key subscriptionId transport) (hg : greatestAt advances key = n)
      (hm : ∀ e, mark = some e → e.expired t = true) : Slot t advances key (some ⟨.seq n, none⟩) mark

def FacadeInv (s : FacadeState) : Prop :=
  ∃ (shared : TtlMap.Map String StoredValue ℚ) (alone : TtlMap.Map String Bool ℚ),
    Represents s.now s.shared shared ∧ Represents s.now s.alone alone ∧
      ∀ key, Slot s.now s.advances key (shared key) (alone key)

private theorem facadeInv_start (t : ℚ) : FacadeInv (.start t) :=
  ⟨_, _, represents_empty t, represents_empty t, fun _ => .free rfl⟩

section
variable {t t' : ℚ} {advances : List Advance} {key : String} {shared : TtlMap.Map String StoredValue ℚ}
  {alone : TtlMap.Map String Bool ℚ}

private theorem Slot.mono {a : Option (Entry StoredValue)} {b : Option (Entry Bool)} (h : Slot t advances key a b)
    (ht : t ≤ t') : Slot t' advances key a b := by
  cases h with
  | free hg => exact .free hg
  | mark x hg => exact .mark x hg
  | cursor subscriptionId transport hkey hg hm =>
    exact .cursor subscriptionId transport hkey hg fun e he => TtlMap.Entry.expired_mono (hm e he) ht

/-- Of the advances only the greatest `seq` under the key counts. -/
private theorem Slot.congr {advances' : List Advance} {x : Option (Entry StoredValue)} {y : Option (Entry Bool)}
    (h : Slot t advances key x y) (hg : greatestAt advances' key = greatestAt advances key) :
    Slot t advances' key x y := by
  cases h with
  | free h0 => exact .free (hg.trans h0)
  | mark z h0 => exact .mark z (hg.trans h0)
  | cursor subscriptionId transport hkey hn hm => exact .cursor subscriptionId transport hkey (hg.trans hn) hm

/-- Where no mark is alive, the cursor store reads the greatest `seq`. -/
private theorem Slot.read (h : Slot t advances key (shared key) (alone key))
    (hnot : TtlMap.get shared t key ≠ some .seen) :
    ((TtlMap.get shared t key).map StoredValue.toInt).getD 0 = greatestAt advances key := by
  unfold TtlMap.get at hnot ⊢
  generalize ha : shared key = a at h
  generalize alone key = b at h
  cases h with
  | free hg =>
    rw [TtlMap.live_of_none ha]
    exact hg.symm
  | mark x hg =>
    cases hx : (⟨.seen, x⟩ : Entry StoredValue).expired t with
    | true =>
      rw [TtlMap.live_of_expired ha hx]
      exact hg.symm
    | false =>
      rw [TtlMap.live_of_unexpired ha hx] at hnot
      exact absurd rfl hnot
  | cursor subscriptionId transport hkey hg hm =>
    rw [TtlMap.live_of_unexpired ha rfl]
    exact hg.symm

/-- A mark that is alive is read as a 1 where the greatest `seq` is 0. -/
private theorem Slot.read_marked (h : Slot t advances key (shared key) (alone key))
    (hmark : TtlMap.get shared t key = some .seen) : greatestAt advances key = 0 := by
  unfold TtlMap.get at hmark
  generalize ha : shared key = a at h
  generalize alone key = b at h
  cases h with
  | free hg => exact hg
  | mark x hg => exact hg
  | cursor subscriptionId transport hkey hg hm =>
    rw [TtlMap.live_of_unexpired ha rfl] at hmark
    cases hmark

/-- Where nothing is alive, both storages mark the key. -/
private theorem Slot.put_free (hg : greatestAt advances key = 0) (hs : TtlMap.live shared t key = none)
    (ha : TtlMap.live alone t key = none) (x : Option ℚ) :
    (TtlMap.putIfAbsent shared t key ⟨.seen, x⟩).1 = (TtlMap.putIfAbsent alone t key ⟨true, x⟩).1 ∧
      Slot t advances key ((TtlMap.putIfAbsent shared t key ⟨.seen, x⟩).2 key)
        ((TtlMap.putIfAbsent alone t key ⟨true, x⟩).2 key) := by
  rw [TtlMap.putIfAbsent_free hs, TtlMap.putIfAbsent_free ha]
  refine ⟨rfl, ?_⟩
  show Slot t advances key (TtlMap.put shared key _ key) (TtlMap.put alone key _ key)
  rw [TtlMap.put_same, TtlMap.put_same]
  exact .mark x hg

/-- Where no cursor is stored, both storages mark the key or both refuse, and go on remembering the same. -/
private theorem Slot.put (h : Slot t advances key (shared key) (alone key))
    (hnot : ∀ n, TtlMap.get shared t key ≠ some (.seq n)) (x : Option ℚ) :
    (TtlMap.putIfAbsent shared t key ⟨.seen, x⟩).1 = (TtlMap.putIfAbsent alone t key ⟨true, x⟩).1 ∧
      Slot t advances key ((TtlMap.putIfAbsent shared t key ⟨.seen, x⟩).2 key)
        ((TtlMap.putIfAbsent alone t key ⟨true, x⟩).2 key) := by
  generalize ha : shared key = a at h
  generalize hb : alone key = b at h
  cases h with
  | free hg => exact Slot.put_free hg (TtlMap.live_of_none ha) (TtlMap.live_of_none hb) x
  | mark y hg =>
    cases hx : (⟨.seen, y⟩ : Entry StoredValue).expired t with
    | true => exact Slot.put_free hg (TtlMap.live_of_expired ha hx) (TtlMap.live_of_expired hb hx) x
    | false =>
      rw [TtlMap.putIfAbsent_taken (TtlMap.live_of_unexpired ha hx),
        TtlMap.putIfAbsent_taken (TtlMap.live_of_unexpired hb hx)]
      refine ⟨rfl, ?_⟩
      show Slot t advances key (shared key) (alone key)
      rw [ha, hb]
      exact .mark y hg
  | @cursor _ _ n _ hkey hg hm =>
    refine absurd ?_ (hnot n)
    rw [TtlMap.get, TtlMap.live_of_unexpired ha rfl]
    rfl

/-- A cursor that is stored is taken for a mark, where the dedup store on its own would find none. -/
private theorem Slot.put_cursor (h : Slot t advances key (shared key) (alone key)) {n : Int}
    (hcursor : TtlMap.get shared t key = some (.seq n)) (e : Entry StoredValue) (e' : Entry Bool) :
    (TtlMap.putIfAbsent shared t key e).1 = false ∧ (TtlMap.putIfAbsent alone t key e').1 = true := by
  unfold TtlMap.get at hcursor
  generalize ha : shared key = a at h
  generalize hb : alone key = b at h
  cases h with
  | free hg =>
    rw [TtlMap.live_of_none ha] at hcursor
    cases hcursor
  | mark x hg =>
    obtain ⟨entry, hlive, hvalue⟩ := Option.map_eq_some_iff.1 hcursor
    rw [(TtlMap.live_eq_some.1 hlive).1] at ha
    cases ha
    cases hvalue
  | cursor _ _ hkey hg hm =>
    have hnone : TtlMap.live alone t key = none := TtlMap.live_eq_none.2 fun e he => hm e (hb.symm.trans he)
    rw [TtlMap.putIfAbsent_taken (TtlMap.live_of_unexpired ha rfl), TtlMap.putIfAbsent_free hnone]
    exact ⟨rfl, rfl⟩

/-- Where no mark is alive, an advance may write a `seq` that is greater. -/
theorem Slot.advance (a : Advance) (h : Slot t advances a.key (shared a.key) (alone a.key))
    (hnot : TtlMap.get shared t a.key ≠ some .seen) (hlt : greatestAt advances a.key < a.seq) :
    Slot t (a :: advances) a.key (some ⟨.seq a.seq, none⟩) (alone a.key) := by
  have hg : greatestAt (a :: advances) a.key = a.seq := by
    rw [greatestAt_same, max_eq_left hlt.le]
  refine .cursor a.subscriptionId a.transport rfl hg ?_
  unfold TtlMap.get at hnot
  generalize hs : shared a.key = x at h
  generalize ha : alone a.key = y at h
  cases h with
  | free => exact fun e he => by cases he
  | mark z =>
    have hexpired : (⟨.seen, z⟩ : Entry StoredValue).expired t = true := by
      by_contra hx
      rw [TtlMap.live_of_unexpired hs (by simpa using hx)] at hnot
      exact hnot rfl
    intro e he
    obtain rfl := Option.some.inj he
    exact hexpired
  | cursor _ _ _ _ hm => exact hm

/-- A cursor is stored under a cursor key. -/
private theorem Slot.cursor_key (h : Slot t advances key (shared key) (alone key)) {n : Int}
    (hcursor : TtlMap.get shared t key = some (.seq n)) :
    ∃ subscriptionId transport, key = CursorStore.key subscriptionId transport := by
  obtain ⟨entry, hlive, hvalue⟩ := Option.map_eq_some_iff.1 hcursor
  rw [(TtlMap.live_eq_some.1 hlive).1] at h
  generalize alone key = b at h
  cases h with
  | mark => cases hvalue
  | cursor subscriptionId transport hkey => exact ⟨subscriptionId, transport, hkey⟩

end

/-! ### One step -/

/-- What is asked of the storage is answered by the map. -/
private theorem Represents.get_eq {V : Type} {t now : ℚ} {store : MemoryStorage String V} {map : TtlMap.Map String V ℚ}
    (h : Represents t store map) (ht : t ≤ now) (key : String) :
    TtlMap.get (MemoryStorage.entries store) now key = TtlMap.get map now key := by
  rw [TtlMap.get, TtlMap.get, TtlMap.Prunes.live_eq (h.mono ht)]

section
variable {m : IdempotencyMiddleware} {s t : FacadeState} {l : FacadeLabel} {event : ClientEvent} {data : Data}
  {r : Readings} {new : Bool} {shared : TtlMap.Map String StoredValue ℚ} {alone : TtlMap.Map String Bool ℚ}

/-- An event that is apart finds no cursor under its key. -/
private theorem Apart.no_cursor (hs : Represents s.now s.shared shared) (hr : s.now ≤ r.check)
    (hslot : Slot s.now s.advances (m.feedKey event data) (shared (m.feedKey event data))
      (alone (m.feedKey event data))) (h : IdempotencyMiddleware.Apart s (.fed event data r new)) (n : Int) :
    TtlMap.get shared r.check (m.feedKey event data) ≠ some (.seq n) := by
  intro hcursor
  cases hown : event.ownKey with
  | some key =>
    refine h key hown ⟨n, ?_⟩
    rw [hs.get_eq hr, ← feedKey_own hown]
    exact hcursor
  | none =>
    obtain ⟨text, hkey⟩ : ∃ text, m.feedKey event data = text ++ ":" ++ toString event.seq := feedKey_seq hown
    obtain ⟨subscriptionId, transport, hkey'⟩ := (hslot.mono hr).cursor_key hcursor
    exact seqKey_ne_cursorKey _ _ _ _ (hkey.symm.trans hkey')

/-- Both storages are asked for a mark under a key. -/
private theorem facadeInv_mark {advances : List Advance} {now : ℚ} {store : SharedStorage} {store' : IdempotencyStore}
    {key : String} {ttl : Option ℚ} (hs : Represents now store shared) (ha : Represents now store' alone)
    (hslot : ∀ key, Slot now advances key (shared key) (alone key)) (hr : now ≤ r.check)
    (hnot : ∀ n, TtlMap.get shared r.check key ≠ some (.seq n)) :
    (store.markIfNew key ttl r).1 = (store'.markIfNew key ttl r).1 ∧
      FacadeInv ⟨(store.markIfNew key ttl r).2, (store'.markIfNew key ttl r).2, advances, r.sweep⟩ := by
  obtain ⟨hs₁, hs₂⟩ := hs.setIfNotExists hr key .seen ttl
  obtain ⟨ha₁, ha₂⟩ := ha.setIfNotExists hr key true ttl
  obtain ⟨hput, hsame⟩ := ((hslot key).mono hr).put hnot (expiresAt ttl r.write)
  refine ⟨(hs₁.trans hput).trans ha₁.symm, _, _, hs₂, ha₂, fun key' => ?_⟩
  by_cases hk : key' = key
  · subst hk
    exact hsame.mono r.check_le_sweep
  · rw [TtlMap.putIfAbsent_other hk, TtlMap.putIfAbsent_other hk]
    exact (hslot key').mono (hr.trans r.check_le_sweep)

/-- Where no mark is alive, the cursor is what it should be. -/
private theorem cursor_eq {now : ℚ} {subscriptionId : String} {transport : TransportKind}
    (hs : Represents s.now s.shared shared) (hslot : ∀ key, Slot s.now s.advances key (shared key) (alone key))
    (hr : s.now ≤ now)
    (hnot : TtlMap.get shared now (CursorStore.key subscriptionId transport) ≠ some .seen) :
    (s.shared.cursor subscriptionId transport now).1 =
        greatestAt s.advances (CursorStore.key subscriptionId transport) ∧
      Represents now (s.shared.cursor subscriptionId transport now).2 shared := by
  obtain ⟨hget, hrep⟩ := (hs.mono hr).get (CursorStore.key subscriptionId transport)
  refine ⟨?_, hrep⟩
  show ((MemoryStorage.get s.shared (CursorStore.key subscriptionId transport) now).1.map StoredValue.toInt).getD 0 = _
  rw [hget]
  exact ((hslot _).mono hr).read hnot

/-- An advance where no mark is alive. -/
private theorem facadeInv_advance (hs : Represents s.now s.shared shared) (ha : Represents s.now s.alone alone)
    (hslot : ∀ key, Slot s.now s.advances key (shared key) (alone key)) (hr : s.now ≤ r.check) {a : Advance}
    (hnot : TtlMap.get shared r.check a.key ≠ some .seen) :
    FacadeInv ⟨s.shared.advance a r, s.alone, a :: s.advances, r.sweep⟩ := by
  obtain ⟨hcursor, hrep⟩ := cursor_eq hs hslot hr hnot
  have hsame := (hslot a.key).mono hr
  have hother : ∀ key, key ≠ a.key → Slot r.sweep (a :: s.advances) key (shared key) (alone key) := fun key hk =>
    ((hslot key).mono (hr.trans r.check_le_sweep)).congr (greatestAt_other (Ne.symm hk) _)
  have halone := ha.mono (hr.trans r.check_le_sweep)
  unfold SharedStorage.advance
  simp only [hcursor]
  by_cases hlt : greatestAt s.advances a.key < a.seq
  · rw [if_pos hlt]
    refine ⟨_, alone, hrep.store le_rfl a.key (.seq a.seq) none, halone, fun key => ?_⟩
    by_cases hk : key = a.key
    · subst hk
      rw [TtlMap.put_same]
      exact (hsame.advance a hnot hlt).mono r.check_le_sweep
    · rw [TtlMap.put_other hk]
      exact hother key hk
  · rw [if_neg hlt]
    refine ⟨shared, alone, hrep.mono r.check_le_sweep, halone, fun key => ?_⟩
    by_cases hk : key = a.key
    · subst hk
      have hg : greatestAt (a :: s.advances) a.key = greatestAt s.advances a.key := by
        rw [greatestAt_same, max_eq_right (not_lt.1 hlt)]
      exact (hsame.congr hg).mono r.check_le_sweep
    · exact hother key hk

private theorem FacadeInv.step (h : FacadeInv s) (hapart : IdempotencyMiddleware.Apart s l)
    (hstep : m.FacadeStep s l t) : FacadeInv t ∧ m.Right s l := by
  obtain ⟨shared, alone, hs, ha, hslot⟩ := h
  cases hstep with
  | fed event data hr =>
    have hnot := Apart.no_cursor hs hr (hslot (m.feedKey event data)) hapart
    obtain ⟨heq, hinv⟩ := facadeInv_mark hs ha hslot hr hnot
    exact ⟨hinv, heq⟩
  | @advanced r a hr =>
    have hnot : TtlMap.get shared r.check a.key ≠ some .seen := by
      rw [← hs.get_eq hr]
      exact hapart
    exact ⟨facadeInv_advance hs ha hslot hr hnot, trivial⟩
  | @got now subscriptionId transport hr =>
    have hnot : TtlMap.get shared now (CursorStore.key subscriptionId transport) ≠ some .seen := by
      rw [← hs.get_eq hr]
      exact hapart
    obtain ⟨hcursor, hrep⟩ := cursor_eq hs hslot hr hnot
    refine ⟨⟨shared, alone, hrep, ha.mono hr, fun key => (hslot key).mono hr⟩, ?_⟩
    exact hcursor.trans (greatestSeq_eq ..).symm

/-- An answer is right only if the step is apart. -/
private theorem FacadeInv.apart (h : FacadeInv s) (hstep : m.FacadeStep s l t) (hl : l.Answers) (hright : m.Right s l) :
    IdempotencyMiddleware.Apart s l := by
  obtain ⟨shared, alone, hs, ha, hslot⟩ := h
  cases hstep with
  | @fed r event data hr =>
    intro key hown hcursor
    obtain ⟨n, hn⟩ := hcursor
    have hkey : m.feedKey event data = key := feedKey_own hown
    rw [hs.get_eq hr, ← hkey] at hn
    obtain ⟨hput, hput'⟩ := ((hslot _).mono hr).put_cursor hn ⟨.seen, expiresAt m.ttl r.write⟩
      ⟨true, expiresAt m.ttl r.write⟩
    have hfalse := (hs.setIfNotExists hr (m.feedKey event data) .seen m.ttl).1.trans hput
    have htrue := (ha.setIfNotExists hr (m.feedKey event data) true m.ttl).1.trans hput'
    exact absurd (hfalse.symm.trans (hright.trans htrue)) Bool.false_ne_true
  | advanced => exact hl.elim
  | @got now subscriptionId transport hr =>
    intro hmark
    have hmark' : TtlMap.get shared now (CursorStore.key subscriptionId transport) = some .seen := by
      rw [← hs.get_eq hr]
      exact hmark
    have hread : (s.shared.cursor subscriptionId transport now).1 = 1 := by
      show ((MemoryStorage.get s.shared (CursorStore.key subscriptionId transport) now).1.map
        StoredValue.toInt).getD 0 = 1
      rw [((hs.mono hr).get _).1, hmark']
      rfl
    have hzero : greatestSeq s.advances subscriptionId transport = 0 :=
      (greatestSeq_eq ..).trans (((hslot _).mono hr).read_marked hmark')
    exact absurd (hread.symm.trans (hright.trans hzero)) (by decide)

end

/-! ### The two facades -/

/-- In every history whose steps are apart the two facades do not interfere, and the first answer that is not apart is
wrong. -/
theorem facades_apart (m : IdempotencyMiddleware) (t : ℚ) :
    (∀ path, Run m.FacadeStep (.start t) path → Meets IdempotencyMiddleware.Apart (.start t) path →
      Run (fun s l _ => m.Right s l) (.start t) path) ∧
      ∀ path l u, Run m.FacadeStep (.start t) path → Meets IdempotencyMiddleware.Apart (.start t) path →
        m.FacadeStep (last (.start t) path) l u → l.Answers →
          (m.Right (last (.start t) path) l ↔ IdempotencyMiddleware.Apart (last (.start t) path) l) := by
  constructor
  · intro path hrun hmeets
    exact hrun.does_of_meets (fun _ _ _ h hc hstep => (h.step hc hstep).1)
      (fun _ _ _ h hc hstep => (h.step hc hstep).2) (facadeInv_start t) hmeets
  · intro path l u hrun hmeets hstep hl
    have hall : Always FacadeInv (.start t) path :=
      hrun.always_of_meets (fun _ _ _ h hc hstep => (h.step hc hstep).1) (facadeInv_start t) hmeets
    exact ⟨hall.last.apart hstep hl, fun hc => (hall.last.step hc hstep).2⟩

def advanceSse : Advance := ⟨"sub-1", .sse, 7⟩

/-- An event with no key of its own, and a cursor. -/
theorem facades_apart_sse :
    ∃ path, Run dayLong.FacadeStep (.start 0) path ∧ path.length = 3 ∧
      Run (fun s l _ => dayLong.Right s l) (.start 0) path := by
  have hrun : Run dayLong.FacadeStep (.start 0)
      [(.fed newLot ∅ (.at 1) _, _), (.advanced advanceSse (.at 2), _), (.got "sub-1" .sse 3 _, _)] :=
    ⟨.fed _ _ (by decide), .advanced _ (by decide), .got _ _ (by decide), trivial⟩
  refine ⟨_, hrun, rfl, (facades_apart dayLong 0).1 _ hrun ⟨?_, ?_, ?_, trivial⟩⟩
  · intro key hown
    cases hown
  · unfold IdempotencyMiddleware.Apart SharedStorage.MarkUnder
    decide +kernel
  · unfold IdempotencyMiddleware.Apart SharedStorage.MarkUnder
    decide +kernel

/-- An event with the key of a cursor. -/
def collidingEvent : ClientEvent := { newLot with idempotencyKey := some "sub-1:sse" }

/-- The cursor is advanced. -/
def advancedState : FacadeState :=
  { FacadeState.start 0 with
    shared := (FacadeState.start 0).shared.advance advanceSse (.at 1), advances := [advanceSse], now := 1 }

/-- The event is fed. -/
def fedState : FacadeState :=
  { FacadeState.start 0 with
    shared := ((FacadeState.start 0).shared.markIfNew (dayLong.feedKey collidingEvent ∅) dayLong.ttl (.at 1)).2
    alone := ((FacadeState.start 0).alone.markIfNew (dayLong.feedKey collidingEvent ∅) dayLong.ttl (.at 1)).2
    now := 1 }

/-- Behind the cursor the event is taken for a duplicate; before it, the event is taken for a cursor. -/
theorem facades_collide :
    (∃ new t, Run dayLong.FacadeStep (.start 0)
        [(.advanced advanceSse (.at 1), advancedState), (.fed collidingEvent ∅ (.at 2) new, t)] ∧
      new = false ∧ ¬ dayLong.Right advancedState (.fed collidingEvent ∅ (.at 2) new)) ∧
      ∃ new seq t, Run dayLong.FacadeStep (.start 0)
          [(.fed collidingEvent ∅ (.at 1) new, fedState), (.got "sub-1" .sse 2 seq, t)] ∧
        seq = 1 ∧ ¬ dayLong.Right fedState (.got "sub-1" .sse 2 seq) := by
  constructor
  · refine ⟨_, _, ⟨.advanced _ (by decide), .fed _ _ (by decide), trivial⟩, by decide +kernel, ?_⟩
    unfold IdempotencyMiddleware.Right
    decide +kernel
  · refine ⟨_, _, _, ⟨.fed _ _ (by decide), .got _ _ (by decide), trivial⟩, by decide +kernel, ?_⟩
    unfold IdempotencyMiddleware.Right
    decide +kernel

end EventusSdk
