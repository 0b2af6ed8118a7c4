import EventusSdk.Magic
import EventusSdk.Visits

/-!
# What magic filters mean

A field that is missing raises inside the resolver, and only the outermost call turns that into `False`.  So an
alternative of `|` is not looked at behind one with a missing field, while `&` loses nothing by it.  An index out of
range raises `IndexError`, which the call does not catch.  A comparison of two fields compares the value of the one
with the filter that the other still is.
-/

namespace EventusSdk

namespace MagicFilter

section
variable (objects : Objects) (event : ClientEvent)

/-- The evaluation comes to a field that is missing, or to an object of the wrong type. -/
def Missing (m : MagicFilter) : Prop := ∃ e, m.resolver objects event = .error e ∧ e.isMissing = true

/-- `&` is the conjunction of what the two filters come to on their own, and `|` the disjunction, in either order. -/
def Combine (a b : MagicFilter) (x y : Bool) : Prop :=
  (MagicFilter.and a b).call objects event = .ok (x && y) ∧
    (MagicFilter.and b a).call objects event = .ok (x && y) ∧
    (MagicFilter.or a b).call objects event = .ok (x || y) ∧
    (MagicFilter.or b a).call objects event = .ok (x || y)

end

variable {objects : Objects} {event : ClientEvent} {a b m : MagicFilter} {x y : Bool} {v w : PyObj} {e : Exn}

/-! ### Calls and resolvers -/

private theorem call_of_ok (h : m.resolver objects event = .ok v) : m.call objects event = .ok v.truthy := by
  rw [call, h]

private theorem call_of_missing (h : m.Missing objects event) : m.call objects event = .ok false := by
  obtain ⟨e, he, hmissing⟩ := h
  rw [call, he]
  exact if_pos hmissing

/-- A call that returns has resolved its filter, or has come to a missing field. -/
private theorem call_cases (h : m.call objects event = .ok x) :
    (∃ v, m.resolver objects event = .ok v ∧ x = v.truthy) ∨ (m.Missing objects event ∧ x = false) := by
  cases hm : m.resolver objects event with
  | ok v =>
    rw [call_of_ok hm] at h
    exact Or.inl ⟨v, rfl, (Except.ok.inj h).symm⟩
  | error e =>
    by_cases hmissing : e.isMissing = true
    · have hm' : m.Missing objects event := ⟨e, hm, hmissing⟩
      rw [call_of_missing hm'] at h
      exact Or.inr ⟨hm', (Except.ok.inj h).symm⟩
    · rw [call, hm] at h
      simp [hmissing] at h

private theorem not_missing_of_ok (h : m.resolver objects event = .ok v) : ¬ m.Missing objects event := by
  rintro ⟨e, he, -⟩
  rw [h] at he
  cases he

private theorem resolver_and_of_ok (ha : a.resolver objects event = .ok v) :
    (MagicFilter.and a b).resolver objects event =
      if v.truthy then (b.resolver objects event).map fun w => .json (.bool w.truthy)
      else .ok (.json (.bool false)) := by
  rw [resolver, ha]
  cases b.resolver objects event <;> rfl

private theorem resolver_or_of_ok (ha : a.resolver objects event = .ok v) :
    (MagicFilter.or a b).resolver objects event =
      if v.truthy then .ok (.json (.bool true))
      else (b.resolver objects event).map fun w => .json (.bool w.truthy) := by
  rw [resolver, ha]
  cases b.resolver objects event <;> rfl

/-- What a missing field raises goes up through the operators. -/
private theorem missing_and (ha : a.Missing objects event) : (MagicFilter.and a b).Missing objects event := by
  obtain ⟨e, he, hmissing⟩ := ha
  exact ⟨e, by rw [resolver, he]; rfl, hmissing⟩

private theorem missing_or (ha : a.Missing objects event) : (MagicFilter.or a b).Missing objects event := by
  obtain ⟨e, he, hmissing⟩ := ha
  exact ⟨e, by rw [resolver, he]; rfl, hmissing⟩

/-! ### `&` and `|` -/

private theorem call_and (ha : a.call objects event = .ok x) (hb : b.call objects event = .ok y) :
    (MagicFilter.and a b).call objects event = .ok (x && y) := by
  rcases call_cases ha with ⟨v, hv, rfl⟩ | ⟨hmissing, rfl⟩
  · by_cases htrue : v.truthy = true
    · rcases call_cases hb with ⟨w, hw, rfl⟩ | ⟨⟨e, he, hmissing⟩, rfl⟩
      · have hres : (MagicFilter.and a b).resolver objects event = .ok (.json (.bool w.truthy)) := by
          rw [resolver_and_of_ok hv, if_pos htrue, hw]
          rfl
        rw [call_of_ok hres, htrue]
        rfl
      · have hres : (MagicFilter.and a b).Missing objects event :=
          ⟨e, by rw [resolver_and_of_ok hv, if_pos htrue, he]; rfl, hmissing⟩
        rw [call_of_missing hres, htrue]
        rfl
    · have hres : (MagicFilter.and a b).resolver objects event = .ok (.json (.bool false)) := by
        rw [resolver_and_of_ok hv, if_neg htrue]
      rw [call_of_ok hres, Bool.eq_false_of_not_eq_true htrue]
      rfl
  · exact call_of_missing (missing_and hmissing)

/-- Where the first alternative resolves, `|` is the disjunction. -/
private theorem call_or_of_ok (ha : a.resolver objects event = .ok v) (hb : b.call objects event = .ok y) :
    (MagicFilter.or a b).call objects event = .ok (v.truthy || y) := by
  by_cases htrue : v.truthy = true
  · have hres : (MagicFilter.or a b).resolver objects event = .ok (.json (.bool true)) := by
      rw [resolver_or_of_ok ha, if_pos htrue]
    rw [call_of_ok hres, htrue]
    rfl
  · rw [Bool.eq_false_of_not_eq_true htrue, Bool.false_or]
    rcases call_cases hb with ⟨w, hw, rfl⟩ | ⟨⟨e, he, hmissing⟩, rfl⟩
    · have hres : (MagicFilter.or a b).resolver objects event = .ok (.json (.bool w.truthy)) := by
        rw [resolver_or_of_ok ha, if_neg htrue, hw]
        rfl
      rw [call_of_ok hres]
      rfl
    · exact call_of_missing ⟨e, by rw [resolver_or_of_ok ha, if_neg htrue, he]; rfl, hmissing⟩

private theorem call_or_iff (ha : a.call objects event = .ok x) (hb : b.call objects event = .ok y) :
    (MagicFilter.or a b).call objects event = .ok (x || y) ↔ ¬ (a.Missing objects event ∧ y = true) := by
  rcases call_cases ha with ⟨v, hv, rfl⟩ | ⟨hmissing, rfl⟩
  · exact iff_of_true (call_or_of_ok hv hb) fun h => not_missing_of_ok hv h.1
  · -- the second alternative is not looked at
    rw [call_of_missing (missing_or hmissing), Bool.false_or, Except.ok.injEq]
    cases y <;> simp [hmissing]

/-- `&` and `|` are conjunction and disjunction if and only if no field is missing on one side while the other side
passes. -/
theorem combine_iff (ha : a.call objects event = .ok x) (hb : b.call objects event = .ok y) :
    Combine objects event a b x y ↔
      ¬ (a.Missing objects event ∧ y = true) ∧ ¬ (b.Missing objects event ∧ x = true) := by
  have hand := call_and ha hb
  have hand' := call_and hb ha
  have hor := call_or_iff ha hb
  have hor' := call_or_iff hb ha
  rw [Bool.and_comm] at hand'
  rw [Bool.or_comm] at hor'
  unfold Combine
  rw [hor, hor']
  exact ⟨fun h => h.2.2, fun h => ⟨hand, hand', h⟩⟩

end MagicFilter

/-! A lot without a price. -/

/-- `F.data["price"] > 10`. -/
def dearFilter : MagicFilter := .compare .gt (.item (.attr .f "data") (.str "price")) (.json (.int 10))

/-- `F.event_type == "new_lot"`. -/
def newLotFilter : MagicFilter := .compare .eq (.attr .f "event_type") (.json (.str "new_lot"))

def noObjects : Objects := ⟨fun _ _ => none, fun _ _ => false, fun _ _ _ => none⟩

theorem combine_seq :
    MagicFilter.Combine noObjects newLot newLotFilter (.compare .gt (.attr .f "seq") (.json (.int 1000))) true
      false :=
  (MagicFilter.combine_iff rfl rfl).2 ⟨by simp, fun h => MagicFilter.not_missing_of_ok (by rfl) h.1⟩

/-- `(F.data["price"] > 10) | (F.event_type == "new_lot")` is `False` of a new lot, the other way round it is `True`. -/
theorem combine_price :
    dearFilter.call noObjects newLot = .ok false ∧ newLotFilter.call noObjects newLot = .ok true ∧
      (MagicFilter.or dearFilter newLotFilter).call noObjects newLot = .ok false ∧
      (MagicFilter.or newLotFilter dearFilter).call noObjects newLot = .ok true ∧
      ¬ MagicFilter.Combine noObjects newLot dearFilter newLotFilter false true := by
  refine ⟨rfl, rfl, rfl, rfl, fun h => ?_⟩
  have hor : (.ok false : Except Exn Bool) = .ok true := h.2.2.1
  cases hor

/-! ### What leaves a call -/

/-- An index into a list or a string that is not in its range. -/
def PyObj.OutOfRange (o : PyObj) : Subscript → Prop
  | .str _ => False
  | .int n => ∃ items, o.plain.items = some items ∧ (n < -(items.length : Int) ∨ (items.length : Int) ≤ n)

namespace MagicFilter

section
variable (objects : Objects) (event : ClientEvent)

/-- The evaluation comes to an index that is out of range. -/
def Overruns : MagicFilter → Prop
  | .root => False
  | .attr m _ => Overruns m
  | .item m key => Overruns m ∨ ∃ o, m.resolver objects event = .ok o ∧ o.OutOfRange key
  | .compare _ m _ => Overruns m
  -- the right side is evaluated where the left one does not decide
  | .and a b => Overruns a ∨ ((∃ o, a.resolver objects event = .ok o ∧ o.truthy = true) ∧ Overruns b)
  | .or a b => Overruns a ∨ ((∃ o, a.resolver objects event = .ok o ∧ o.truthy = false) ∧ Overruns b)
  | .invert m => Overruns m

end

end MagicFilter

private theorem indexIn_eq_none {length : ℕ} {n : Int} :
    indexIn length n = none ↔ n < -(length : Int) ∨ (length : Int) ≤ n := by
  unfold indexIn
  simp only
  split <;> split <;> simp only [reduceCtorEq, false_iff, true_iff] <;> omega

private theorem indexIn_lt {length i : ℕ} {n : Int} (h : indexIn length n = some i) : i < length := by
  unfold indexIn at h
  simp only at h
  generalize (if n < 0 then n + length else n) = k at h
  obtain ⟨hrange, hi⟩ := Option.ite_none_right_eq_some.1 h
  obtain rfl := Option.some.inj hi
  omega

namespace PyObj

variable {objects : Objects} {o : PyObj} {e : Exn}

private theorem getattr_error {name : String} (h : o.getattr objects name = .error e) : e = .attributeError := by
  unfold getattr at h
  split at h
  all_goals try cases h
  · next m name =>
    unfold MagicFilter.getattr at h
    split at h <;> cases h
    rfl
  · split at h <;> cases h
    rfl

/-- Indexing raises `IndexError`, or what a call catches. -/
private theorem getitem_error {key : Subscript} (h : o.getitem key = .error e) :
    e.isMissing = true ∨ e = indexError := by
  unfold getitem at h
  split at h
  · cases h
  · split at h <;> cases h
    exact Or.inl rfl
  · split at h
    · split at h <;> cases h
      exact Or.inr rfl
    · cases h
      exact Or.inl rfl
  · cases h
    exact Or.inl rfl

/-- The items of a sequence at an index: there is none exactly when the index is out of range. -/
private theorem item_eq_none {items : List PyObj} {n : Int} :
    (indexIn items.length n).bind (items[·]?) = none ↔ n < -(items.length : Int) ∨ (items.length : Int) ≤ n := by
  rw [← indexIn_eq_none]
  constructor
  · intro h
    cases hi : indexIn items.length n with
    | none => rfl
    | some i =>
      rw [hi, Option.bind_some, List.getElem?_eq_none_iff] at h
      exact absurd (indexIn_lt hi) (not_lt.2 h)
  · intro h
    rw [h]
    rfl

private theorem not_outOfRange (h : o.plain.items = none) (key : Subscript) : ¬ o.OutOfRange key := by
  cases key with
  | str s => exact id
  | int n =>
    rintro ⟨items, hsome, -⟩
    rw [h] at hsome
    cases hsome

private theorem getitem_eq_indexError {key : Subscript} : o.getitem key = .error indexError ↔ o.OutOfRange key := by
  unfold getitem
  split
  · exact iff_of_false (fun h => by cases h) (not_outOfRange rfl _)
  · refine iff_of_false (fun h => ?_) (not_outOfRange rfl _)
    split at h <;> cases h
  · next n _ _ =>
    cases hitems : o.plain.items with
    | none => exact iff_of_false (fun h => by cases h) (not_outOfRange hitems _)
    | some items =>
      simp only [OutOfRange, hitems, Option.some.injEq, exists_eq_left', ← item_eq_none]
      cases (indexIn items.length n).bind (items[·]?) <;> simp
  · exact iff_of_false (fun h => by cases h) id

private theorem ofOrder_error {o : Option Bool} (h : ofOrder o = .error e) : e = .typeError := by
  cases o with
  | some r => cases h
  | none =>
    cases h
    rfl

private theorem compare_error {op : CmpOp} {other : PyObj} (h : o.compare objects op other = .error e) :
    e = .typeError := by
  have hrich : ∀ {a b : PyObj}, a.rich objects op b = .error e → e = .typeError := by
    intro a b h
    unfold rich at h
    split at h
    · cases h
    · cases h
    · split at h
      · exact Json.compareBy_error h
      · exact ofOrder_error h
      · exact ofOrder_error h
      · cases h
        rfl
  unfold compare at h
  split at h
  · cases h
  · cases h
  · cases hr : o.rich objects op other with
    | ok r =>
      rw [hr] at h
      cases h
    | error e' =>
      rw [hr] at h
      cases h
      exact hrich hr

end PyObj

namespace MagicFilter

variable {objects : Objects} {event : ClientEvent}

/-- The resolver raises what a call catches, or `IndexError`. -/
private theorem resolver_error : ∀ {m : MagicFilter} {e : Exn}, m.resolver objects event = .error e →
    e.isMissing = true ∨ e = indexError
  | .root, e, h => by cases h
  | .attr m name, e, h => by
    rcases except_bind_error.1 h with h | ⟨v, -, h⟩
    · exact resolver_error h
    · exact Or.inl (by rw [PyObj.getattr_error h]; rfl)
  | .item m key, e, h => by
    rcases except_bind_error.1 h with h | ⟨v, -, h⟩
    · exact resolver_error h
    · exact PyObj.getitem_error h
  | .compare op m other, e, h => by
    rcases except_bind_error.1 h with h | ⟨v, -, h⟩
    · exact resolver_error h
    · exact Or.inl (by rw [PyObj.compare_error h]; rfl)
  | .and a b, e, h => by
    rcases except_bind_error.1 h with h | ⟨v, -, h⟩
    · exact resolver_error h
    · split at h
      · rcases except_bind_error.1 h with h | ⟨w, -, h⟩
        · exact resolver_error h
        · cases h
      · cases h
  | .or a b, e, h => by
    rcases except_bind_error.1 h with h | ⟨v, -, h⟩
    · exact resolver_error h
    · split at h
      · cases h
      · rcases except_bind_error.1 h with h | ⟨w, -, h⟩
        · exact resolver_error h
        · cases h
  | .invert m, e, h => by
    rcases except_bind_error.1 h with h | ⟨v, -, h⟩
    · exact resolver_error h
    · cases h

/-- It raises `IndexError` exactly when the evaluation comes to an index out of range. -/
private theorem resolver_eq_indexError : ∀ {m : MagicFilter},
    m.resolver objects event = .error indexError ↔ m.Overruns objects event
  | .root => by simp [resolver, Overruns]
  | .attr m name => by
    rw [resolver, except_bind_error, resolver_eq_indexError, Overruns, or_iff_left_iff_imp]
    rintro ⟨v, -, h⟩
    cases PyObj.getattr_error h
  | .item m key => by
    simp only [resolver, except_bind_error, resolver_eq_indexError, Overruns, PyObj.getitem_eq_indexError]
  | .compare op m other => by
    rw [resolver, except_bind_error, resolver_eq_indexError, Overruns, or_iff_left_iff_imp]
    rintro ⟨v, -, h⟩
    cases PyObj.compare_error h
  | .and a b => by
    have hb := resolver_eq_indexError (m := b)
    rw [resolver, except_bind_error, resolver_eq_indexError, Overruns, ← hb]
    refine or_congr_right ⟨?_, ?_⟩
    · rintro ⟨v, hv, h⟩
      split at h
      · next htrue =>
        rcases except_bind_error.1 h with h | ⟨w, -, h⟩
        · exact ⟨⟨v, hv, htrue⟩, h⟩
        · cases h
      · cases h
    · rintro ⟨⟨v, hv, htrue⟩, h⟩
      exact ⟨v, hv, by rw [if_pos htrue, h]; rfl⟩
  | .or a b => by
    have hb := resolver_eq_indexError (m := b)
    rw [resolver, except_bind_error, resolver_eq_indexError, Overruns, ← hb]
    refine or_congr_right ⟨?_, ?_⟩
    · rintro ⟨v, hv, h⟩
      split at h
      · cases h
      · next hfalse =>
        rcases except_bind_error.1 h with h | ⟨w, -, h⟩
        · exact ⟨⟨v, hv, Bool.eq_false_of_not_eq_true hfalse⟩, h⟩
        · cases h
    · rintro ⟨⟨v, hv, hfalse⟩, h⟩
      exact ⟨v, hv, by rw [if_neg (by simp [hfalse]), h]; rfl⟩
  | .invert m => by
    rw [resolver, except_bind_error, resolver_eq_indexError, Overruns, or_iff_left_iff_imp]
    rintro ⟨v, -, h⟩
    cases h

/-- A call returns exactly when its evaluation comes to no index out of range. -/
private theorem call_ok_iff {m : MagicFilter} : (∃ x, m.call objects event = .ok x) ↔ ¬ m.Overruns objects event := by
  rw [← resolver_eq_indexError]
  cases h : m.resolver objects event with
  | ok v => exact iff_of_true ⟨_, call_of_ok h⟩ (by simp)
  | error e =>
    rcases resolver_error h with hmissing | rfl
    · refine iff_of_true ⟨_, call_of_missing ⟨e, h, hmissing⟩⟩ fun heq => ?_
      rw [Except.error.inj heq] at hmissing
      cases hmissing
    · refine iff_of_false ?_ (by simp)
      rintro ⟨x, hx⟩
      rw [call, h] at hx
      cases hx

end MagicFilter

/-- The application's filters are magic filters. -/
def MagicAnswers (objects : Objects) (exprs : CustomFilter → MagicFilter) (t : List Call) : Prop :=
  ∀ f event data x, (⟨.filter f event data, x⟩ : Call) ∈ t →
    x = ((exprs f).call objects event).map fun passed => (.plain passed, data)

/-- The filters that were asked come to no index out of range. -/
def InRange (objects : Objects) (exprs : CustomFilter → MagicFilter) (t : List Call) : Prop :=
  ∀ f event data x, (⟨.filter f event data, x⟩ : Call) ∈ t → ¬ (exprs f).Overruns objects event

section
variable {objects : Objects} {exprs : CustomFilter → MagicFilter} {event : ClientEvent} {data extra : Data}
  {t t₁ t₂ : List Call}

private theorem magicAnswers_append :
    MagicAnswers objects exprs (t₁ ++ t₂) ↔ MagicAnswers objects exprs t₁ ∧ MagicAnswers objects exprs t₂ := by
  constructor
  · intro h
    exact ⟨fun f e d x hx => h f e d x (List.mem_append_left _ hx),
      fun f e d x hx => h f e d x (List.mem_append_right _ hx)⟩
  · intro ⟨h₁, h₂⟩ f e d x hx
    rcases List.mem_append.1 hx with hx | hx
    · exact h₁ f e d x hx
    · exact h₂ f e d x hx

/-- The loop over a handler's filters returns exactly when those it asks come to no index out of range. -/
private theorem evalFilters_ok_iff {filters : List Filter} {res : Except Exn (Option Data × Data)}
    (hrun : (evalFilters filters event data extra).Runs t res) (hmagic : MagicAnswers objects exprs t) :
    (∃ a, res = .ok a) ↔ InRange objects exprs t := by
  induction filters generalizing t data extra with
  | nil =>
    obtain ⟨rfl, rfl⟩ := hrun
    exact iff_of_true ⟨_, rfl⟩ (by simp [InRange])
  | cons filt filters ih =>
    -- the rest of the loop, once the outcome of this filter is known
    have rest : ∀ {outcome : FilterOutcome} {t' : List Call}, MagicAnswers objects exprs t' →
        ((outcome.truthy = false ∧ t' = [] ∧ res = .ok (none, data)) ∨
          (outcome.truthy = true ∧ (evalFilters filters event data (extra.update outcome.asDict)).Runs t' res)) →
        ((∃ a, res = .ok a) ↔ InRange objects exprs t') := by
      intro outcome t' hmagic' h
      rcases h with ⟨-, rfl, rfl⟩ | ⟨-, h⟩
      · exact iff_of_true ⟨_, rfl⟩ (by simp [InRange])
      · exact ih h hmagic'
    cases filt with
    | eventType eventTypes => exact rest hmagic (evalFilters_outcome hrun)
    | custom f =>
      simp only [evalFilters, Filter.call, Prog.bind_eq, Prog.runs_bind] at hrun
      rcases hrun with ⟨⟨outcome, data'⟩, t₁, t₂, rfl, h₀, h⟩ | ⟨e, rfl, h₀⟩ <;> obtain rfl := runs_ask.1 h₀
      · have hx := hmagic f event data _ (List.mem_append_left _ (List.mem_singleton_self _))
        obtain ⟨passed, hpassed, heq⟩ := eq_ok_of_map hx
        cases heq
        rw [rest (magicAnswers_append.1 hmagic).2 (evalFilters_outcome h)]
        refine ⟨fun hrest g ev d x hm => ?_, fun hall g ev d x hm => hall g ev d x (List.mem_append_right _ hm)⟩
        rcases List.mem_append.1 hm with hm | hm
        · cases List.mem_singleton.1 hm
          exact MagicFilter.call_ok_iff.1 ⟨passed, hpassed⟩
        · exact hrest g ev d x hm
      · have hx := hmagic f event data _ (List.mem_singleton_self _)
        refine iff_of_false (by simp) fun hall => ?_
        obtain ⟨passed, hpassed⟩ := MagicFilter.call_ok_iff.2 (hall f event data _ (List.mem_singleton_self _))
        rw [hpassed] at hx
        cases hx

/-- No filter that was asked raised. -/
def NoFilterRaises (t : List Call) : Prop := ∀ f event data e, (⟨.filter f event data, .error e⟩ : Call) ∉ t

private theorem noFilterRaises_iff (hmagic : MagicAnswers objects exprs t) :
    NoFilterRaises t ↔ InRange objects exprs t := by
  constructor
  · intro hreturns f event data x hx
    rw [← MagicFilter.call_ok_iff]
    cases hcall : (exprs f).call objects event with
    | ok passed => exact ⟨passed, rfl⟩
    | error e =>
      have heq := hmagic f event data x hx
      rw [hcall] at heq
      subst heq
      exact absurd hx (hreturns f event data e)
  · intro hrange f event data e hx
    obtain ⟨passed, hpassed⟩ := MagicFilter.call_ok_iff.2 (hrange f event data _ hx)
    have heq := hmagic f event data _ hx
    rw [hpassed] at heq
    cases heq

/-- Where no filter raises, no visit of a handler ends with one that does. -/
private theorem visits_not_raised {dispatcher : Dispatcher} {hs : List HandlerObject} {visits : List Visit}
    {res : Except Exn (Option DispatchResult × Data)} (h : Visits dispatcher event hs data visits t res)
    (hreturns : NoFilterRaises t) : ∀ v ∈ visits, v.ending ≠ .raised := by
  induction h with
  | nil => simp
  | @raised h hs data left asked filt t₁ t₂ e hasked hfilt hcall =>
    cases filt with
    | eventType eventTypes => cases hcall.2
    | custom f =>
      obtain rfl := runs_ask.1 hcall
      exact absurd (List.mem_append_right _ (List.mem_singleton_self _)) (hreturns f event left e)
  | missed hasked _ ih =>
    refine List.forall_mem_cons.2 ⟨by simp, ih fun f event data e hx => ?_⟩
    exact hreturns f event data e (List.mem_append_right _ hx)
  | skipped hasked _ _ ih =>
    refine List.forall_mem_cons.2 ⟨by simp, ih fun f event data e hx => ?_⟩
    exact hreturns f event data e (List.mem_append_right _ (List.mem_append_right _ hx))
  | settled => simp

private theorem feed_not_raised {dispatcher : Dispatcher} {ctx : AccountContext} {res : Except Exn DispatchResult}
    (houter : ∀ m ∈ dispatcher.outer, CallsOn m) (hrun : (dispatcher.feed event ctx).Runs t res)
    (hreturns : NoFilterRaises t) : Routes dispatcher event ctx (fun _ v => v.ending ≠ .raised) t := by
  obtain ⟨t₁, t₂, x, rfl, hparse, hend | ⟨payload, res', rfl, hchain⟩⟩ := feed_split hrun
  · exact ⟨t₁, t₂, x, rfl, hparse, Or.inl hend⟩
  · refine ⟨t₁, t₂, _, rfl, hparse, Or.inr ⟨payload, rfl, (chain_callsOn houter hchain).mono ?_⟩⟩
    intro t' hsub ⟨event', data', res', hwalk⟩
    obtain ⟨visits, res'', hvisits, -, -⟩ := walkAndHandle_visits hwalk
    refine ⟨event', data', visits, res'', hvisits, visits_not_raised hvisits fun f event data e hx => ?_⟩
    exact hreturns f event data e (List.mem_append_right _ (hsub hx))

/-- Awaiting a magic filter returns a boolean if and only if it comes to no index out of range, and the loop over the
filters of a handler raises if and only if one it asks does.  In a feed with such filters none raises if and only if
they come to no index out of range, and then no visit of a handler ends with a filter that raises. -/
theorem magicFilter_returns_iff (objects : Objects) :
    (∀ m event, (∃ x, MagicFilter.call objects m event = .ok x) ↔ ¬ m.Overruns objects event) ∧
      (∀ exprs filters event data extra t res, (evalFilters filters event data extra).Runs t res →
        MagicAnswers objects exprs t → ((∃ a, res = .ok a) ↔ InRange objects exprs t)) ∧
      ∀ exprs (dispatcher : Dispatcher) event ctx t res, (∀ m ∈ dispatcher.outer, CallsOn m) →
        (dispatcher.feed event ctx).Runs t res → MagicAnswers objects exprs t →
        (NoFilterRaises t ↔ InRange objects exprs t) ∧
          (InRange objects exprs t → Routes dispatcher event ctx (fun _ v => v.ending ≠ .raised) t) := by
  refine ⟨fun _ _ => MagicFilter.call_ok_iff, fun _ _ _ _ _ _ _ => evalFilters_ok_iff, ?_⟩
  intro exprs dispatcher event ctx t res houter hrun hmagic
  have hiff := noFilterRaises_iff hmagic
  exact ⟨hiff, fun hrange => feed_not_raised houter hrun (hiff.2 hrange)⟩

end

/-- A lot with one tag. -/
def taggedLot : ClientEvent := { newLot with data := [(.str "tags", .arr [.str "rare"])] }

/-- `F.data["tags"][n] == "rare"`. -/
def tagFilter (n : Int) : MagicFilter :=
  .compare .eq (.item (.item (.attr .f "data") (.str "tags")) (.int n)) (.json (.str "rare"))

/-- A handler for lots with a tag, behind the dedup middleware. -/
def taggedOnly : Dispatcher where
  root := (Router.mk [] []).on [.filter (.custom ⟨0⟩)] greet
  outer := [logging, errorBoundary, dayLong.call]

/-- The last tag of a lot that has one. -/
theorem magicFilter_returns_tag :
    ∃ t res, (taggedOnly.feed taggedLot seller).Runs t res ∧ InRange noObjects (fun _ => tagFilter (-1)) t ∧
      Routes taggedOnly taggedLot seller (fun _ v => v.ending ≠ .raised) t := by
  have hrun : (taggedOnly.feed taggedLot seller).Runs
      [⟨.markIfNew "sub-1:1" 86400, .ok true⟩,
        ⟨.filter ⟨0⟩ taggedLot (Dispatcher.baseData seller), .ok (.plain true, Dispatcher.baseData seller)⟩,
        ⟨.callback greet ∅, .ok .none⟩] (.ok ⟨.handled, taggedLot, none⟩) := ⟨_, _, rfl, _, _, rfl, _, _, rfl, rfl, rfl⟩
  have hmagic : MagicAnswers noObjects (fun _ => tagFilter (-1))
      [⟨.markIfNew "sub-1:1" 86400, .ok true⟩,
        ⟨.filter ⟨0⟩ taggedLot (Dispatcher.baseData seller), .ok (.plain true, Dispatcher.baseData seller)⟩,
        ⟨.callback greet ∅, .ok .none⟩] := by
    intro f event data x hx
    simp only [List.mem_cons, List.not_mem_nil, or_false, Sigma.mk.injEq, Req.filter.injEq, reduceCtorEq, false_and,
      false_or] at hx
    obtain ⟨⟨rfl, rfl, rfl⟩, hx⟩ := hx
    cases hx
    rfl
  have houter : ∀ m ∈ taggedOnly.outer, CallsOn m := by
    simpa [taggedOnly] using ⟨callsOn_logging, callsOn_errorBoundary, callsOn_idempotency dayLong⟩
  obtain ⟨hiff, hroutes⟩ := (magicFilter_returns_iff noObjects).2.2 _ _ _ _ _ _ houter hrun hmagic
  have hrange := hiff.1 (by simp [NoFilterRaises])
  exact ⟨_, _, hrun, hrange, hroutes hrange⟩

/-- The third tag of it: `IndexError` leaves the filter, and the loop over the filters. -/
theorem magicFilter_raises :
    (tagFilter 2).call noObjects taggedLot = .error indexError ∧
      (evalFilters [.custom ⟨0⟩] taggedLot ∅ ∅).Runs [⟨.filter ⟨0⟩ taggedLot ∅, .error indexError⟩]
        (.error indexError) :=
  ⟨rfl, _, _, rfl, rfl, rfl⟩

/-! ### Two fields -/

namespace MagicFilter

/-- Both fields are there, with JSON values, and the comparison of the values comes to `r`. -/
def Comparable (objects : Objects) (event : ClientEvent) (op : CmpOp) (a b : MagicFilter) (r : Bool) : Prop :=
  ∃ v w : Json, a.resolver objects event = .ok (PyObj.ofJson v) ∧
    b.resolver objects event = .ok (PyObj.ofJson w) ∧ (PyObj.ofJson v).rich objects op (PyObj.ofJson w) = .ok r

variable {objects : Objects} {event : ClientEvent} {op : CmpOp} {a b : MagicFilter} {r : Bool}

/-- A value does not know filters: the filter's reflected method makes another filter of the two. -/
private theorem compare_ofJson_magic (op : CmpOp) (v : Json) (b : MagicFilter) :
    (PyObj.ofJson v).compare objects op (.magic b) = .ok (.magic (.compare op.reflected b (PyObj.ofJson v))) := by
  cases v <;> rfl

/-- Where the first field is there, the comparison passes. -/
private theorem call_compare_magic {v : Json} (ha : a.resolver objects event = .ok (PyObj.ofJson v)) :
    (MagicFilter.compare op a (.magic b)).call objects event = .ok true := by
  have hres : (MagicFilter.compare op a (.magic b)).resolver objects event =
      .ok (.magic (.compare op.reflected b (PyObj.ofJson v))) := by
    rw [resolver, ha]
    exact compare_ofJson_magic op v b
  exact call_of_ok hres

/-- A comparison of two fields passes as their values do if and only if it holds of the values: it always passes. -/
theorem compare_fields_iff (h : Comparable objects event op a b r) :
    ((MagicFilter.compare op a (.magic b)).call objects event = .ok true ↔ r = true) ↔ r = true := by
  obtain ⟨v, w, ha, -, -⟩ := h
  rw [call_compare_magic ha]
  simp

end MagicFilter

/-- `F.data[key]`. -/
def dataField (key : String) : MagicFilter := .item (.attr .f "data") (.str key)

/-- A lot with a price above its limit. -/
def dearLot : ClientEvent := { newLot with data := [(.str "price", .int 7), (.str "limit", .int 5)] }

private theorem comparable_dearLot (op : CmpOp) : MagicFilter.Comparable noObjects dearLot op (dataField "price")
    (dataField "limit") (op.test (some .gt)) := by
  refine ⟨.int 7, .int 5, rfl, rfl, ?_⟩
  cases op <;> decide +kernel

theorem compare_fields_gt :
    (MagicFilter.compare .gt (dataField "price") (.magic (dataField "limit"))).call noObjects dearLot = .ok true :=
  ((MagicFilter.compare_fields_iff (comparable_dearLot .gt)).2 rfl).2 rfl

/-- `F.data["price"] < F.data["limit"]` passes, though 7 is not below 5. -/
theorem compare_fields_lt :
    MagicFilter.Comparable noObjects dearLot .lt (dataField "price") (dataField "limit") false ∧
      (MagicFilter.compare .lt (dataField "price") (.magic (dataField "limit"))).call noObjects dearLot =
        .ok true :=
  ⟨comparable_dearLot .lt, rfl⟩

end EventusSdk
