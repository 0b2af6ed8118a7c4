import EventusSdk.FirstMatch
import EventusSdk.Middleware

/-!
# Visits

What the walk does at each handler, whatever filters, callbacks and middleware do.  The filters are asked one after the
other, each with the `data` dict as the one before it left it; then the handler is passed by, or the inner chain is
entered with a dict of its own.  `Visits` splits a run of the walk into visits without saying which handlers are entered
and with what.  `Visit.Faithful` says what the loop makes of the outcomes, and `tryHandlers_visits` that every run of
the walk consists of faithful visits.

Outer middleware stands between `feed` and the walk.  It is assumed to call the next link as often as it likes, one call
after the other, and to ask for things of its own in between.
-/

namespace EventusSdk

/-! ### The dicts among the outcomes -/

/-- The dicts among the outcomes, laid over `data` in order. -/
def mergedOutcomes (data : Data) (outcomes : List FilterOutcome) : Data :=
  outcomes.foldl (fun data outcome => data.update outcome.asDict) data

private theorem lookup_mergedOutcomes_congr {d₁ d₂ : Data} (h : ∀ key, d₁.lookup key = d₂.lookup key)
    (outcomes : List FilterOutcome) (key : String) :
    (mergedOutcomes d₁ outcomes).lookup key = (mergedOutcomes d₂ outcomes).lookup key := by
  induction outcomes generalizing d₁ d₂ with
  | nil => exact h key
  | cons outcome outcomes ih => exact ih fun key => by rw [Dict.lookup_update, Dict.lookup_update, h key]

/-- Merging the dicts first and laying them over `data` then is laying them over `data` one by one. -/
private theorem lookup_update_mergedOutcomes (data extra : Data) (outcomes : List FilterOutcome) (key : String) :
    (data.update (mergedOutcomes extra outcomes)).lookup key =
      (mergedOutcomes (data.update extra) outcomes).lookup key := by
  induction outcomes generalizing extra with
  | nil => rfl
  | cons outcome outcomes ih =>
    have hassoc : ∀ key, (data.update (extra.update outcome.asDict)).lookup key =
        ((data.update extra).update outcome.asDict).lookup key := by
      intro key
      simp only [Dict.lookup_update, Option.or_assoc]
    calc (data.update (mergedOutcomes (extra.update outcome.asDict) outcomes)).lookup key
        = (mergedOutcomes (data.update (extra.update outcome.asDict)) outcomes).lookup key := ih _
      _ = (mergedOutcomes ((data.update extra).update outcome.asDict) outcomes).lookup key :=
          lookup_mergedOutcomes_congr hassoc outcomes key

/-! ### A walk as a list of visits -/

/-- How a visit ends: one of the filters fails, one raises, or the inner chain is entered with a `data` dict. -/
inductive Ending where
  | missed
  | raised
  | entered (data : Data)

/-- A visit of a handler: what each filter that returned saw and returned, the `data` dict as they left it, and how the
visit ended. -/
structure Visit where
  handler : HandlerObject
  asked : List (Data × FilterOutcome)
  left : Data
  ending : Ending

def Visit.outcomes (v : Visit) : List FilterOutcome := v.asked.map Prod.snd

/-- The first of the filters were asked, one after the other, and returned. -/
inductive Asked (event : ClientEvent) : List Filter → Data → List (Data × FilterOutcome) → Data → List Call → Prop where
  | nil {filters : List Filter} {data : Data} : Asked event filters data [] data []
  | cons {filt : Filter} {filters : List Filter} {data data' left : Data} {outcome : FilterOutcome}
      {asked : List (Data × FilterOutcome)} {t₁ t₂ : List Call}
      (hcall : (filt.call event data).Runs t₁ (.ok (outcome, data')))
      (hrest : Asked event filters data' asked left t₂) :
      Asked event (filt :: filters) data ((data, outcome) :: asked) left (t₁ ++ t₂)

/-- The handlers were visited in order, up to the first that settled the event or raised. -/
inductive Visits (dispatcher : Dispatcher) (event : ClientEvent) :
    List HandlerObject → Data → List Visit → List Call → Except Exn (Option DispatchResult × Data) → Prop where
  | nil {data : Data} : Visits dispatcher event [] data [] [] (.ok (none, data))
  | raised {h : HandlerObject} {hs : List HandlerObject} {data left : Data} {asked : List (Data × FilterOutcome)}
      {filt : Filter} {t₁ t₂ : List Call} {e : Exn} (hasked : Asked event h.filters data asked left t₁)
      (hfilt : h.filters[asked.length]? = some filt) (hcall : (filt.call event left).Runs t₂ (.error e)) :
      Visits dispatcher event (h :: hs) data [⟨h, asked, left, .raised⟩] (t₁ ++ t₂) (.error e)
  | missed {h : HandlerObject} {hs : List HandlerObject} {data left : Data} {asked : List (Data × FilterOutcome)}
      {vs : List Visit} {t₁ t₂ : List Call} {res : Except Exn (Option DispatchResult × Data)}
      (hasked : Asked event h.filters data asked left t₁) (hrest : Visits dispatcher event hs left vs t₂ res) :
      Visits dispatcher event (h :: hs) data (⟨h, asked, left, .missed⟩ :: vs) (t₁ ++ t₂) res
  | skipped {h : HandlerObject} {hs : List HandlerObject} {data left entered : Data}
      {asked : List (Data × FilterOutcome)} {vs : List Visit} {t₁ t₂ t₃ : List Call}
      {res : Except Exn (Option DispatchResult × Data)} (hasked : Asked event h.filters data asked left t₁)
      (hrun : (dispatcher.runHandler h.callback event entered).Runs t₂ (.ok none))
      (hrest : Visits dispatcher event hs left vs t₃ res) :
      Visits dispatcher event (h :: hs) data (⟨h, asked, left, .entered entered⟩ :: vs) (t₁ ++ (t₂ ++ t₃)) res
  | settled {h : HandlerObject} {hs : List HandlerObject} {data left entered : Data}
      {asked : List (Data × FilterOutcome)} {t₁ t₂ : List Call} {x : Except Exn (Option DispatchResult)}
      (hasked : Asked event h.filters data asked left t₁)
      (hrun : (dispatcher.runHandler h.callback event entered).Runs t₂ x) (hx : x ≠ .ok none) :
      Visits dispatcher event (h :: hs) data [⟨h, asked, left, .entered entered⟩] (t₁ ++ t₂)
        (x.map fun result => (result, left))

/-- What the code does with the outcomes: the first false one ends the visit, and after true ones of all filters the
chain is entered with their dicts laid over `data`. -/
def Visit.Faithful (v : Visit) : Prop :=
  match v.ending with
  | .raised => True
  | .missed => ∃ outcomes last, v.outcomes = outcomes ++ [last] ∧ (∀ o ∈ outcomes, o.truthy = true) ∧
      last.truthy = false
  | .entered data => v.asked.length = v.handler.filters.length ∧ (∀ o ∈ v.outcomes, o.truthy = true) ∧
      data = v.left.update (mergedOutcomes ∅ v.outcomes)

theorem Visit.Faithful.missed {v : Visit} (hv : v.Faithful) (h : v.ending = .missed) :
    ∃ outcomes last, v.outcomes = outcomes ++ [last] ∧ (∀ o ∈ outcomes, o.truthy = true) ∧ last.truthy = false := by
  rw [Visit.Faithful, h] at hv
  exact hv

/-- The chain is entered once all filters returned true values, with their dicts laid over what they left. -/
theorem Visit.Faithful.entered {v : Visit} (hv : v.Faithful) {data : Data} (h : v.ending = .entered data) :
    v.asked.length = v.handler.filters.length ∧ (∀ o ∈ v.outcomes, o.truthy = true) ∧
      ∀ key, data.lookup key = (mergedOutcomes v.left v.outcomes).lookup key := by
  rw [Visit.Faithful, h] at hv
  obtain ⟨hlen, htruthy, rfl⟩ := hv
  refine ⟨hlen, htruthy, ?_⟩
  intro key
  rw [lookup_update_mergedOutcomes, Dict.update_empty]

section
variable {dispatcher : Dispatcher} {event : ClientEvent} {data left : Data} {asked : List (Data × FilterOutcome)}
  {filters : List Filter} {hs : List HandlerObject} {vs : List Visit} {t t₁ t₂ : List Call}

/-- What a run of the loop over a handler's filters is. -/
def Loops (event : ClientEvent) (filters : List Filter) (data extra : Data) (t : List Call)
    (res : Except Exn (Option Data × Data)) : Prop :=
  ∃ asked left, (Asked event filters data asked left t ∧
      ((asked.length = filters.length ∧ (∀ a ∈ asked, a.2.truthy = true) ∧
        res = .ok (some (mergedOutcomes extra (asked.map Prod.snd)), left)) ∨
      ((∃ before last, asked = before ++ [last] ∧ (∀ a ∈ before, a.2.truthy = true) ∧ last.2.truthy = false) ∧
        res = .ok (none, left)))) ∨
    ∃ filt e t₁ t₂, t = t₁ ++ t₂ ∧ Asked event filters data asked left t₁ ∧ filters[asked.length]? = some filt ∧
      (filt.call event left).Runs t₂ (.error e) ∧ res = .error e

private theorem evalFilters_loops {extra : Data} {res : Except Exn (Option Data × Data)}
    (hrun : (evalFilters filters event data extra).Runs t res) : Loops event filters data extra t res := by
  induction filters generalizing data extra t with
  | nil =>
    obtain ⟨rfl, rfl⟩ := hrun
    exact ⟨[], data, Or.inl ⟨.nil, Or.inl ⟨rfl, by simp, rfl⟩⟩⟩
  | cons filt filters ih =>
    simp only [evalFilters, Prog.bind_eq, Prog.runs_bind] at hrun
    rcases hrun with ⟨⟨outcome, data'⟩, t₁, t₂, rfl, hcall, hrest⟩ | ⟨e, rfl, hcall⟩
    · rcases evalFilters_outcome hrest with ⟨hfalse, rfl, rfl⟩ | ⟨htrue, hrun⟩
      · have hlast : ∃ before last, [(data, outcome)] = before ++ [last] ∧ (∀ a ∈ before, a.2.truthy = true) ∧
            last.2.truthy = false := ⟨[], _, rfl, by simp, hfalse⟩
        exact ⟨[(data, outcome)], data', Or.inl ⟨.cons hcall .nil, Or.inr ⟨hlast, rfl⟩⟩⟩
      · obtain ⟨asked, left, ⟨hasked, hend⟩ | ⟨filt', e, t₃, t₄, rfl, hasked, hfilt, hraise, hres⟩⟩ := ih hrun
        · refine ⟨(data, outcome) :: asked, left, Or.inl ⟨.cons hcall hasked, ?_⟩⟩
          rcases hend with ⟨hlen, htruthy, hres⟩ | ⟨⟨before, last, rfl, htruthy, hlast⟩, hres⟩
          · refine Or.inl ⟨by simp [hlen], ?_, hres⟩
            exact List.forall_mem_cons.2 ⟨htrue, htruthy⟩
          · refine Or.inr ⟨⟨(data, outcome) :: before, last, rfl, ?_, hlast⟩, hres⟩
            exact List.forall_mem_cons.2 ⟨htrue, htruthy⟩
        · have hfilt' : (filt :: filters)[((data, outcome) :: asked).length]? = some filt' := by simpa using hfilt
          exact ⟨(data, outcome) :: asked, left,
            Or.inr ⟨filt', e, t₁ ++ t₃, t₄, by simp, .cons hcall hasked, hfilt', hraise, hres⟩⟩
    · exact ⟨[], data, Or.inr ⟨filt, e, [], t, rfl, .nil, rfl, hcall, rfl⟩⟩

/-- Every run of the walk consists of faithful visits. -/
theorem tryHandlers_visits {res : Except Exn (Option DispatchResult × Data)}
    (hrun : (dispatcher.tryHandlers hs event data).Runs t res) :
    ∃ vs, Visits dispatcher event hs data vs t res ∧ ∀ v ∈ vs, v.Faithful := by
  induction hs generalizing data t with
  | nil =>
    obtain ⟨rfl, rfl⟩ := hrun
    exact ⟨[], .nil, by simp⟩
  | cons h hs ih =>
    simp only [Dispatcher.tryHandlers, Prog.bind_eq, Prog.runs_bind] at hrun
    rcases hrun with ⟨⟨extra, data'⟩, t₁, t₂, rfl, hloop, hrest⟩ | ⟨e, rfl, hloop⟩
    · obtain ⟨asked, left, ⟨hasked, ⟨hlen, htruthy, hres⟩ | ⟨hmissed, hres⟩⟩ | ⟨_, _, _, _, _, _, _, _, hres⟩⟩ :=
        evalFilters_loops hloop
      · cases hres
        have hfaithful : Visit.Faithful ⟨h, asked, data',
            .entered (data'.update (mergedOutcomes ∅ (asked.map Prod.snd)))⟩ :=
          ⟨hlen, by simpa [Visit.outcomes] using fun o d ha => htruthy (d, o) ha, rfl⟩
        simp only [Prog.runs_bind] at hrest
        rcases hrest with ⟨result, t₃, t₄, rfl, hcall, hrest⟩ | ⟨e, rfl, hcall⟩
        · cases result with
          | none =>
            obtain ⟨vs, hvs, hf⟩ := ih hrest
            exact ⟨_, .skipped hasked hcall hvs, List.forall_mem_cons.2 ⟨hfaithful, hf⟩⟩
          | some result =>
            obtain ⟨rfl, rfl⟩ := hrest
            rw [List.append_nil]
            exact ⟨_, .settled hasked hcall (by simp), by simpa using hfaithful⟩
        · exact ⟨_, .settled hasked hcall (by simp), by simpa using hfaithful⟩
      · cases hres
        have hfaithful : Visit.Faithful ⟨h, asked, data', .missed⟩ := by
          obtain ⟨before, last, rfl, htruthy, hlast⟩ := hmissed
          refine ⟨before.map Prod.snd, last.2, by simp [Visit.outcomes], ?_, hlast⟩
          simpa using fun o d ha => htruthy (d, o) ha
        obtain ⟨vs, hvs, hf⟩ := ih hrest
        exact ⟨_, .missed hasked hvs, List.forall_mem_cons.2 ⟨hfaithful, hf⟩⟩
      · cases hres
    · obtain ⟨asked, left, ⟨-, ⟨-, -, hres⟩ | ⟨-, hres⟩⟩ | ⟨filt, e', t₁, t₂, rfl, hasked, hfilt, hraise, hres⟩⟩ :=
        evalFilters_loops hloop
      · cases hres
      · cases hres
      · cases hres
        exact ⟨_, .raised hasked hfilt hraise, by simp [Visit.Faithful]⟩

/-- The handlers visited are the first of those there are, in their order. -/
theorem Visits.handlers_prefix {res : Except Exn (Option DispatchResult × Data)}
    (h : Visits dispatcher event hs data vs t res) : vs.map Visit.handler <+: hs := by
  induction h with
  | nil => exact List.prefix_rfl
  | raised => simp
  | missed _ _ ih => exact List.cons_prefix_cons.2 ⟨rfl, ih⟩
  | skipped _ _ _ ih => exact List.cons_prefix_cons.2 ⟨rfl, ih⟩
  | settled => simp

/-! ### Filters that leave `data` alone -/

/-- No filter asked in the trace changed the `data` dict it was given. -/
def FiltersKeep (t : List Call) : Prop :=
  ∀ f event data outcome data', (⟨.filter f event data, .ok (outcome, data')⟩ : Call) ∈ t → data' = data

private theorem FiltersKeep.subset (h : FiltersKeep t) (hsub : t₁ ⊆ t) : FiltersKeep t₁ :=
  fun f event data outcome data' hmem => h f event data outcome data' (hsub hmem)

private theorem filtersKeep_append : FiltersKeep (t₁ ++ t₂) ↔ FiltersKeep t₁ ∧ FiltersKeep t₂ := by
  constructor
  · intro h
    exact ⟨h.subset (List.subset_append_left ..), h.subset (List.subset_append_right ..)⟩
  · intro ⟨h₁, h₂⟩ f event data outcome data' hmem
    rcases List.mem_append.1 hmem with hmem | hmem
    · exact h₁ f event data outcome data' hmem
    · exact h₂ f event data outcome data' hmem

private theorem filterCall_keeps {filt : Filter} {data' : Data} {outcome : FilterOutcome}
    (hrun : (filt.call event data).Runs t (.ok (outcome, data'))) (hkeep : FiltersKeep t) : data' = data := by
  cases filt with
  | eventType eventTypes => exact (Prod.mk.inj (Except.ok.inj hrun.2)).2
  | custom f =>
    obtain rfl := runs_ask.1 hrun
    exact hkeep f event data outcome data' (List.mem_singleton_self _)

private theorem Asked.keeps (h : Asked event filters data asked left t) (hkeep : FiltersKeep t) :
    left = data ∧ ∀ a ∈ asked, a.1 = data := by
  induction h with
  | nil => exact ⟨rfl, by simp⟩
  | cons hcall _ ih =>
    obtain ⟨hkeep₁, hkeep₂⟩ := filtersKeep_append.1 hkeep
    obtain rfl := filterCall_keeps hcall hkeep₁
    obtain ⟨hleft, hsaw⟩ := ih hkeep₂
    exact ⟨hleft, List.forall_mem_cons.2 ⟨rfl, hsaw⟩⟩

/-- In such a walk every visit finds the `data` dict as the first did. -/
private theorem Visits.keeps {res : Except Exn (Option DispatchResult × Data)}
    (h : Visits dispatcher event hs data vs t res) (hkeep : FiltersKeep t) :
    (∀ v ∈ vs, v.left = data ∧ ∀ a ∈ v.asked, a.1 = data) ∧ ∀ a, res = .ok a → a.2 = data := by
  induction h with
  | nil => exact ⟨by simp, by intro a ha; cases ha; rfl⟩
  | raised hasked _ _ =>
    exact ⟨by simpa using hasked.keeps (filtersKeep_append.1 hkeep).1, by simp⟩
  | missed hasked _ ih =>
    obtain ⟨hkeep₁, hkeep₂⟩ := filtersKeep_append.1 hkeep
    obtain ⟨rfl, hsaw⟩ := hasked.keeps hkeep₁
    obtain ⟨hvs, hres⟩ := ih hkeep₂
    exact ⟨List.forall_mem_cons.2 ⟨⟨rfl, hsaw⟩, hvs⟩, hres⟩
  | skipped hasked _ _ ih =>
    obtain ⟨hkeep₁, hkeep₂⟩ := filtersKeep_append.1 hkeep
    obtain ⟨rfl, hsaw⟩ := hasked.keeps hkeep₁
    obtain ⟨hvs, hres⟩ := ih (filtersKeep_append.1 hkeep₂).2
    exact ⟨List.forall_mem_cons.2 ⟨⟨rfl, hsaw⟩, hvs⟩, hres⟩
  | @settled _ _ _ _ _ _ _ _ x hasked _ _ =>
    obtain ⟨rfl, hsaw⟩ := hasked.keeps (filtersKeep_append.1 hkeep).1
    refine ⟨by simpa using hsaw, ?_⟩
    intro a ha
    obtain ⟨result, -, rfl⟩ := eq_ok_of_map ha.symm
    rfl

end

/-! ### Outer middleware -/

/-- What a middleware asks for itself: the dedup store, or anything outside the library. -/
def Req.IsOwn : Req → Prop
  | .markIfNew .. | .external .. => True
  | _ => False

/-- The trace is made of pieces, one after the other, and of a middleware's own requests between them. -/
inductive Pieces (Piece : List Call → Prop) : List Call → Prop where
  | nil : Pieces Piece []
  | own {ev : Call} {t : List Call} (hev : ev.1.IsOwn) (ht : Pieces Piece t) : Pieces Piece (ev :: t)
  | piece {t₁ t₂ : List Call} (h₁ : Piece t₁) (h₂ : Pieces Piece t₂) : Pieces Piece (t₁ ++ t₂)

namespace Pieces

variable {P Q : List Call → Prop} {t t₁ t₂ : List Call}

private theorem of_piece (h : P t) : Pieces P t := by
  have := Pieces.piece h .nil
  rwa [List.append_nil] at this

private theorem append (h₁ : Pieces P t₁) (h₂ : Pieces P t₂) : Pieces P (t₁ ++ t₂) := by
  induction h₁ with
  | nil => exact h₂
  | own hev _ ih => exact .own hev ih
  | piece h _ ih =>
    rw [List.append_assoc]
    exact .piece h ih

/-- Each piece is made of pieces itself. -/
private theorem flatMap (h : Pieces P t) (hP : ∀ t', t' ⊆ t → P t' → Pieces Q t') : Pieces Q t := by
  induction h with
  | nil => exact .nil
  | own hev _ ih => exact .own hev (ih fun t' hsub => hP t' (List.subset_cons_of_subset _ hsub))
  | piece h _ ih =>
    have h₁ := hP _ (List.subset_append_left ..) h
    exact h₁.append (ih fun t' hsub => hP t' (List.subset_append_of_subset_right _ hsub))

/-- An event that is no middleware's own belongs to a piece. -/
theorem exists_piece (h : Pieces P t) {ev : Call} (hmem : ev ∈ t) (hev : ¬ ev.1.IsOwn) :
    ∃ t', t' ⊆ t ∧ ev ∈ t' ∧ P t' := by
  induction h with
  | nil => cases hmem
  | own hown _ ih =>
    rcases List.mem_cons.1 hmem with rfl | hmem
    · exact absurd hown hev
    · obtain ⟨t', hsub, hmem', hP⟩ := ih hmem
      exact ⟨t', List.subset_cons_of_subset _ hsub, hmem', hP⟩
  | @piece t₁ t₂ h₁ _ ih =>
    rcases List.mem_append.1 hmem with hmem | hmem
    · exact ⟨t₁, List.subset_append_left .., hmem, h₁⟩
    · obtain ⟨t', hsub, hmem', hP⟩ := ih hmem
      exact ⟨t', List.subset_append_of_subset_right _ hsub, hmem', hP⟩

theorem mono (h : Pieces P t) (hP : ∀ t', t' ⊆ t → P t' → Q t') : Pieces Q t :=
  h.flatMap fun t' hsub ht => of_piece (hP t' hsub ht)

end Pieces

section
variable {ρ : Type} {ms : List (Middleware ρ)} {handler : Handler ρ} {event : ClientEvent} {data : Data}
  {t : List Call} {res : Except Exn (ρ × Data)}

/-- The middleware calls the next link one time after the other, with any event and any `data` dict. -/
def CallsOn (m : Middleware ρ) : Prop :=
  ∀ handler : Handler ρ, ∀ event data t res, (m handler event data).Runs t res →
    Pieces (fun t' => ∃ event' data' res', (handler event' data').Runs t' res') t

theorem chain_callsOn (hms : ∀ m ∈ ms, CallsOn m) (hrun : (chain ms handler event data).Runs t res) :
    Pieces (fun t' => ∃ event' data' res', (handler event' data').Runs t' res') t := by
  induction ms generalizing event data t res with
  | nil => exact .of_piece ⟨event, data, res, hrun⟩
  | cons m ms ih =>
    have hpieces := hms m (List.mem_cons_self ..) (chain ms handler) event data t res hrun
    refine hpieces.flatMap ?_
    intro t' _ ⟨event', data', res', hrun'⟩
    exact ih (fun m' h => hms m' (List.mem_cons_of_mem _ h)) hrun'

/-- Around filters that leave `data` alone, so does the handler. -/
def LeavesData (handler : Handler ρ) : Prop :=
  ∀ event data t a, (handler event data).Runs t (.ok a) → FiltersKeep t → a.2 = data

/-- The middleware does not change the `data` dict, and calls the next link with that same dict. -/
def HandsDataOn (m : Middleware ρ) : Prop :=
  ∀ handler : Handler ρ, LeavesData handler → LeavesData (m handler) ∧
    ∀ event data t res, (m handler event data).Runs t res → FiltersKeep t →
      Pieces (fun t' => ∃ event' res', (handler event' data).Runs t' res') t

private theorem chain_leavesData (hms : ∀ m ∈ ms, HandsDataOn m) (hhandler : LeavesData handler) :
    LeavesData (chain ms handler) := by
  induction ms with
  | nil => exact hhandler
  | cons m ms ih =>
    have hnext : LeavesData (chain ms handler) := ih fun m' h => hms m' (List.mem_cons_of_mem _ h)
    exact (hms m (List.mem_cons_self ..) _ hnext).1

private theorem chain_handsDataOn (hms : ∀ m ∈ ms, HandsDataOn m) (hhandler : LeavesData handler)
    (hrun : (chain ms handler event data).Runs t res) (hkeep : FiltersKeep t) :
    Pieces (fun t' => ∃ event' res', (handler event' data).Runs t' res') t := by
  induction ms generalizing event t res with
  | nil => exact .of_piece ⟨event, res, hrun⟩
  | cons m ms ih =>
    have hms' : ∀ m' ∈ ms, HandsDataOn m' := fun m' h => hms m' (List.mem_cons_of_mem _ h)
    have hpieces := (hms m (List.mem_cons_self ..) _ (chain_leavesData hms' hhandler)).2 event data t res hrun hkeep
    refine hpieces.flatMap ?_
    intro t' hsub ⟨event', res', hrun'⟩
    exact ih hms' hrun' (hkeep.subset hsub)

/-! The middleware of the library calls on, and hands `data` on. -/

theorem callsOn_logging : CallsOn (logging : Middleware ρ) :=
  fun _ event data _ res hrun => .of_piece ⟨event, data, res, hrun⟩

theorem callsOn_errorBoundary : CallsOn (errorBoundary : Middleware ρ) := by
  intro handler event data t res hrun
  obtain ⟨x, hnext, -⟩ := errorBoundary_runs hrun
  exact .of_piece ⟨event, data, x, hnext⟩

theorem handsDataOn_logging : HandsDataOn (logging : Middleware ρ) :=
  fun _ hhandler => ⟨hhandler, fun event _ _ res hrun _ => .of_piece ⟨event, res, hrun⟩⟩

theorem handsDataOn_errorBoundary : HandsDataOn (errorBoundary : Middleware ρ) := by
  intro handler hhandler
  constructor
  · intro event data t a hrun hkeep
    obtain ⟨x, hnext, ⟨b, rfl, hres⟩ | ⟨e, -, hres⟩⟩ := errorBoundary_runs hrun
    · rw [Except.ok.inj hres]
      exact hhandler event data t b hnext hkeep
    · cases hres
  · intro event data t res hrun _
    obtain ⟨x, hnext, -⟩ := errorBoundary_runs hrun
    exact .of_piece ⟨event, x, hnext⟩

end

theorem callsOn_idempotency (m : IdempotencyMiddleware) : CallsOn m.call := by
  intro handler event data t res hrun
  obtain ⟨x, t', rfl, ⟨-, hnext⟩ | ⟨-, rfl, -⟩ | ⟨e, -, rfl, -⟩⟩ := m.runs_cases hrun
  · exact .own trivial (.of_piece ⟨event, data, res, hnext⟩)
  · exact .own trivial .nil
  · exact .own trivial .nil

theorem handsDataOn_idempotency (m : IdempotencyMiddleware) : HandsDataOn m.call := by
  intro handler hhandler
  constructor
  · intro event data t a hrun hkeep
    obtain ⟨x, t', rfl, ⟨-, hnext⟩ | ⟨-, -, hres⟩ | ⟨e, -, -, hres⟩⟩ := m.runs_cases hrun
    · exact hhandler event data t' a hnext (hkeep.subset (List.subset_cons_self ..))
    · rw [Except.ok.inj hres]
    · cases hres
  · intro event data t res hrun _
    obtain ⟨x, t', rfl, ⟨-, hnext⟩ | ⟨-, rfl, -⟩ | ⟨e, -, rfl, -⟩⟩ := m.runs_cases hrun
    · exact .own trivial (.of_piece ⟨event, res, hnext⟩)
    · exact .own trivial .nil
    · exact .own trivial .nil

/-! ### A feed -/

section
variable {dispatcher : Dispatcher} {event : ClientEvent} {ctx : AccountContext} {data : Data} {t : List Call}

/-- A walk over the handlers of the dispatcher, each visit of which is as `P` says. -/
def WalkOf (dispatcher : Dispatcher) (P : Visit → Prop) (t : List Call) : Prop :=
  ∃ event data visits res, Visits dispatcher event dispatcher.root.handlersInOrder data visits t res ∧ ∀ v ∈ visits, P v

/-- The trace of a feed: the payload is parsed; then come walks, if the middleware asks for any, over handlers each
visit of which is as `P` says, given the `data` dict the feed starts with. -/
def Routes (dispatcher : Dispatcher) (event : ClientEvent) (ctx : AccountContext) (P : Data → Visit → Prop)
    (t : List Call) : Prop :=
  ∃ t₁ t₂ x, t = t₁ ++ t₂ ∧ (dispatcher.registry.parse event.eventType event.data).Runs t₁ x ∧
    (((∃ e, x = .error e) ∧ t₂ = []) ∨ ∃ payload, x = .ok payload ∧
      Pieces (WalkOf dispatcher (P (Dispatcher.withPayload (Dispatcher.baseData ctx) payload))) t₂)

theorem Routes.mono {P Q : Data → Visit → Prop} (h : Routes dispatcher event ctx P t)
    (hPQ : ∀ base v, P base v → Q base v) : Routes dispatcher event ctx Q t := by
  obtain ⟨t₁, t₂, x, rfl, hparse, hend | ⟨payload, rfl, hpieces⟩⟩ := h
  · exact ⟨t₁, t₂, x, rfl, hparse, Or.inl hend⟩
  · refine ⟨t₁, t₂, _, rfl, hparse, Or.inr ⟨payload, rfl, hpieces.mono ?_⟩⟩
    intro t' _ ⟨event', data, visits, res, hvisits, hP⟩
    exact ⟨event', data, visits, res, hvisits, fun v hv => hPQ _ v (hP v hv)⟩

/-- A run of `feed` parses the payload, and runs the outer chain on what it starts with if that does not raise. -/
theorem feed_split {res : Except Exn DispatchResult} (hrun : (dispatcher.feed event ctx).Runs t res) :
    ∃ t₁ t₂ x, t = t₁ ++ t₂ ∧ (dispatcher.registry.parse event.eventType event.data).Runs t₁ x ∧
      (((∃ e, x = .error e) ∧ t₂ = []) ∨ ∃ payload res', x = .ok payload ∧
        (chain dispatcher.outer dispatcher.walkAndHandle event
          (Dispatcher.withPayload (Dispatcher.baseData ctx) payload)).Runs t₂ res') := by
  simp only [Dispatcher.feed, Prog.bind_eq, Prog.runs_bind, Prog.runs_ret] at hrun
  rcases hrun with ⟨payload, t₁, t₂, rfl, hparse, hrest⟩ | ⟨e, -, hparse⟩
  · refine ⟨t₁, t₂, .ok payload, rfl, hparse, Or.inr ⟨payload, ?_⟩⟩
    rcases hrest with ⟨a, t₃, t₄, rfl, hchain, rfl, -⟩ | ⟨e, -, hchain⟩
    · exact ⟨.ok a, rfl, by rwa [List.append_nil]⟩
    · exact ⟨.error e, rfl, hchain⟩
  · exact ⟨t, [], .error e, by simp, hparse, Or.inl ⟨⟨e, rfl⟩, rfl⟩⟩

theorem walkAndHandle_visits {res : Except Exn (DispatchResult × Data)}
    (hrun : (dispatcher.walkAndHandle event data).Runs t res) :
    ∃ visits res', Visits dispatcher event dispatcher.root.handlersInOrder data visits t res' ∧
      (∀ v ∈ visits, v.Faithful) ∧ ∀ a, res = .ok a → ∃ a', res' = .ok a' ∧ a.2 = a'.2 := by
  rw [Dispatcher.walkAndHandle, Dispatcher.tryRouters_eq, Router.flatMap_handlers_walk, Prog.runs_bind] at hrun
  rcases hrun with ⟨a, t₁, t₂, rfl, hwalk, rfl, rfl⟩ | ⟨e, rfl, hwalk⟩
  · obtain ⟨visits, hvisits, hfaithful⟩ := tryHandlers_visits hwalk
    rw [List.append_nil]
    exact ⟨visits, _, hvisits, hfaithful, fun b hb => ⟨a, rfl, by cases hb; rfl⟩⟩
  · obtain ⟨visits, hvisits, hfaithful⟩ := tryHandlers_visits hwalk
    exact ⟨visits, _, hvisits, hfaithful, by simp⟩

private theorem leavesData_walkAndHandle (dispatcher : Dispatcher) : LeavesData dispatcher.walkAndHandle := by
  intro event data t a hrun hkeep
  obtain ⟨visits, res', hvisits, -, hres⟩ := walkAndHandle_visits hrun
  obtain ⟨a', rfl, ha⟩ := hres a rfl
  rw [ha]
  exact (hvisits.keeps hkeep).2 a' rfl

/-- Whatever the outer middleware hands on, every feed routes through faithful visits. -/
theorem feed_routes {res : Except Exn DispatchResult} (houter : ∀ m ∈ dispatcher.outer, CallsOn m)
    (hrun : (dispatcher.feed event ctx).Runs t res) :
    Routes dispatcher event ctx (fun _ v => v.Faithful) t := by
  obtain ⟨t₁, t₂, x, rfl, hparse, hend | ⟨payload, res', rfl, hchain⟩⟩ := feed_split hrun
  · exact ⟨t₁, t₂, x, rfl, hparse, Or.inl hend⟩
  · refine ⟨t₁, t₂, _, rfl, hparse, Or.inr ⟨payload, rfl, (chain_callsOn houter hchain).mono ?_⟩⟩
    intro t' _ ⟨event', data', res', hwalk⟩
    obtain ⟨visits, res'', hvisits, hfaithful, -⟩ := walkAndHandle_visits hwalk
    exact ⟨event', data', visits, res'', hvisits, hfaithful⟩

/-- Where the outer middleware hands `data` on and the filters leave it alone, every visit finds what the feed started
with. -/
theorem feed_routes_keeping {res : Except Exn DispatchResult} (houter : ∀ m ∈ dispatcher.outer, HandsDataOn m)
    (hrun : (dispatcher.feed event ctx).Runs t res) (hkeep : FiltersKeep t) :
    Routes dispatcher event ctx (fun base v => v.Faithful ∧ v.left = base ∧ ∀ a ∈ v.asked, a.1 = base) t := by
  obtain ⟨t₁, t₂, x, rfl, hparse, hend | ⟨payload, res', rfl, hchain⟩⟩ := feed_split hrun
  · exact ⟨t₁, t₂, x, rfl, hparse, Or.inl hend⟩
  · have hkeep₂ := (filtersKeep_append.1 hkeep).2
    have hpieces := chain_handsDataOn houter (leavesData_walkAndHandle dispatcher) hchain hkeep₂
    refine ⟨t₁, t₂, _, rfl, hparse, Or.inr ⟨payload, rfl, hpieces.mono ?_⟩⟩
    intro t' hsub ⟨event', res', hwalk⟩
    obtain ⟨visits, res'', hvisits, hfaithful, -⟩ := walkAndHandle_visits hwalk
    have hleft := (hvisits.keeps (hkeep₂.subset hsub)).1
    exact ⟨event', _, visits, res'', hvisits, fun v hv => ⟨hfaithful v hv, hleft v hv⟩⟩

end

end EventusSdk
