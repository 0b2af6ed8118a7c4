import EventusSdk.Visits

/-!
# What a filter's result means

A `Filter` documents that returning a dict means "passed, and merge these keys into `data`", and that any other value
is a plain pass or fail.  The loop tests the truth of the outcome before it asks whether it is a dict, so the empty dict
fails the filter.  A visit goes as documented exactly when no filter that is asked returns the empty dict.
-/

namespace EventusSdk

/-- The filter passed, by its documentation. -/
def FilterOutcome.Passes : FilterOutcome → Prop
  | .plain truth => truth = true
  | .dict _ => True

/-- The visit is as documented: the handler is matched if and only if every one of its filters passed, a filter that
passes does not end the visit, and the handler gets `data` updated by all the dicts. -/
structure Visit.AsDocumented (v : Visit) : Prop where
  matched_iff : (∃ data, v.ending = .entered data) ↔
    v.asked.length = v.handler.filters.length ∧ ∀ o ∈ v.outcomes, o.Passes
  goes_on : (∀ o ∈ v.outcomes, o.Passes) → v.ending ≠ .missed
  merged : ∀ data, v.ending = .entered data → ∀ key,
    data.lookup key = (mergedOutcomes v.left v.outcomes).lookup key

private theorem FilterOutcome.truthy_iff_passes {o : FilterOutcome} (ho : o ≠ .dict ∅) : o.truthy = true ↔
    o.Passes := by
  cases o with
  | plain truth => exact Iff.rfl
  | dict d =>
    have hd : d.entries ≠ [] := by
      intro h
      exact ho (congrArg FilterOutcome.dict (AList.ext h))
    simp [truthy, Passes, hd]

private theorem FilterOutcome.passes_of_truthy {o : FilterOutcome} (ho : o.truthy = true) : o.Passes := by
  cases o with
  | plain truth => exact ho
  | dict d => trivial

private theorem FilterOutcome.truthy_empty : (FilterOutcome.dict ∅).truthy = false := rfl

/-- An outcome that ends a visit, though its filter passed, is the empty dict. -/
private theorem Visit.Faithful.exists_fails {v : Visit} (hv : v.Faithful) (hmissed : v.ending = .missed)
    (hne : ∀ o ∈ v.outcomes, o ≠ .dict ∅) : ∃ o ∈ v.outcomes, ¬ o.Passes := by
  obtain ⟨before, last, houtcomes, -, hlast⟩ := hv.missed hmissed
  have hmem : last ∈ v.outcomes := by simp [houtcomes]
  refine ⟨last, hmem, ?_⟩
  rw [← FilterOutcome.truthy_iff_passes (hne last hmem), hlast]
  exact Bool.false_ne_true

private theorem Visit.Faithful.missed_of_empty {v : Visit} (hv : v.Faithful) (hraised : v.ending ≠ .raised)
    (hempty : .dict ∅ ∈ v.outcomes) : v.ending = .missed ∧ ∀ o ∈ v.outcomes, o.Passes := by
  cases hend : v.ending with
  | raised => exact absurd hend hraised
  | entered data =>
    have htruthy := (hv.entered hend).2.1 _ hempty
    rw [FilterOutcome.truthy_empty] at htruthy
    cases htruthy
  | missed =>
    refine ⟨rfl, ?_⟩
    obtain ⟨before, last, houtcomes, htruthy, hlast⟩ := hv.missed hend
    rw [houtcomes, List.mem_append, List.mem_singleton] at hempty
    -- the empty dict is false, so it is the last outcome
    have hlast' : last = .dict ∅ := by
      rcases hempty with hbefore | hlast'
      · have := htruthy _ hbefore
        rw [FilterOutcome.truthy_empty] at this
        cases this
      · exact hlast'.symm
    rw [houtcomes, hlast']
    intro o ho
    rcases List.mem_append.1 ho with ho | ho
    · exact FilterOutcome.passes_of_truthy (htruthy o ho)
    · rw [List.mem_singleton.1 ho]
      trivial

/-- A faithful visit in which no filter raises is as documented if and only if no filter returned the empty dict. -/
private theorem Visit.Faithful.asDocumented_iff {v : Visit} (hv : v.Faithful) (hraised : v.ending ≠ .raised) :
    v.AsDocumented ↔ ∀ o ∈ v.outcomes, o ≠ .dict ∅ := by
  constructor
  · intro h o ho hempty
    obtain ⟨hmissed, hpass⟩ := hv.missed_of_empty hraised (hempty ▸ ho)
    exact h.goes_on hpass hmissed
  · intro hne
    have hfails : v.ending = .missed → ¬ ∀ o ∈ v.outcomes, o.Passes := by
      intro hmissed hpass
      obtain ⟨o, ho, hfails⟩ := hv.exists_fails hmissed hne
      exact hfails (hpass o ho)
    refine ⟨⟨?_, ?_⟩, fun hpass hmissed => hfails hmissed hpass, fun data hend => (hv.entered hend).2.2⟩
    · intro ⟨data, hend⟩
      obtain ⟨hlen, htruthy, -⟩ := hv.entered hend
      exact ⟨hlen, fun o ho => FilterOutcome.passes_of_truthy (htruthy o ho)⟩
    · intro hmatched
      cases hend : v.ending with
      | raised => exact absurd hend hraised
      | missed => exact absurd hmatched.2 (hfails hend)
      | entered data => exact ⟨data, rfl⟩

/-- In every feed, the visits in which no filter raises are as documented exactly where no filter returned the empty
dict. -/
theorem feed_filters_documented_iff {dispatcher : Dispatcher} {event : ClientEvent} {ctx : AccountContext}
    {t : List Call} {res : Except Exn DispatchResult} (houter : ∀ m ∈ dispatcher.outer, CallsOn m)
    (hrun : (dispatcher.feed event ctx).Runs t res) :
    Routes dispatcher event ctx
      (fun _ v => v.ending ≠ .raised → (v.AsDocumented ↔ ∀ o ∈ v.outcomes, o ≠ .dict ∅)) t :=
  (feed_routes houter hrun).mono fun _ _ hv hraised => hv.asDocumented_iff hraised

/-! The handler `greet` behind a filter of the application, which returns a dict. -/

/-- The filter. -/
def lotFilter : CustomFilter := ⟨0⟩

def lotDispatcher : Dispatcher := { root := (Router.mk [] []).on [.filter (.custom lotFilter)] greet }

/-- The filter is asked for `newLot` and returns the dict `d`. -/
def lotAsked (d : Data) : Call :=
  ⟨.filter lotFilter newLot (Dispatcher.baseData seller), .ok (.dict d, Dispatcher.baseData seller)⟩

theorem feed_filters_documented_lot :
    Routes lotDispatcher newLot seller
      (fun _ v => v.ending ≠ .raised → (v.AsDocumented ↔ ∀ o ∈ v.outcomes, o ≠ .dict ∅))
      [lotAsked (AList.singleton "lot" (.object 7)), ⟨.callback greet ∅, .ok .none⟩] := by
  have hrun : (lotDispatcher.feed newLot seller).Runs
      [lotAsked (AList.singleton "lot" (.object 7)), ⟨.callback greet ∅, .ok .none⟩]
      (.ok ⟨.handled, newLot, none⟩) := ⟨_, _, rfl, _, _, rfl, rfl, rfl⟩
  exact feed_filters_documented_iff (by simp [lotDispatcher]) hrun

/-- In a visit that asks nothing but `lotAsked ∅`, the filter passes and the handler is not entered. -/
private theorem not_asDocumented_of_lotAsked {event : ClientEvent} {data : Data} {visits : List Visit} {t : List Call}
    {res : Except Exn (Option DispatchResult × Data)}
    (hvisits : Visits lotDispatcher event lotDispatcher.root.handlersInOrder data visits t res)
    (ht : ∀ ev ∈ t, ev = lotAsked ∅) : ∃ v ∈ visits, v.ending ≠ .raised ∧ ¬ v.AsDocumented := by
  have hnot_called : ∀ {t' entered x}, t' ⊆ t → ¬ (lotDispatcher.runHandler greet event entered).Runs t' x := by
    intro t' entered x hsub hrun
    obtain ⟨y, rfl, -⟩ := runHandler_runs rfl hrun
    have := ht _ (hsub (List.mem_singleton_self _))
    cases this
  have hcall : ∀ {data t' x}, t' ⊆ t → ((Filter.custom lotFilter).call event data).Runs t' x →
      x = .ok (.dict ∅, Dispatcher.baseData seller) := by
    intro data t' x hsub hrun
    obtain rfl := runs_ask.1 hrun
    have := ht _ (hsub (List.mem_singleton_self _))
    cases this
    rfl
  have hpasses : ∀ {data asked left t'}, t' ⊆ t → Asked event [.custom lotFilter] data asked left t' →
      ∀ a ∈ asked, a.2.Passes := by
    intro data asked left t' hsub hasked
    cases hasked with
    | nil => simp
    | cons hanswer hrest =>
      cases hrest with
      | nil =>
        obtain ⟨rfl, -⟩ := Prod.mk.inj (Except.ok.inj (hcall (by simpa using hsub) hanswer))
        simp [FilterOutcome.Passes]
  cases hvisits with
  | @raised h hs _ left asked filt t₁ t₂ e hasked hfilt hraise =>
    obtain rfl : filt = .custom lotFilter := by
      have hmem := List.mem_of_getElem? hfilt
      exact List.mem_singleton.1 hmem
    cases hcall (List.subset_append_right ..) hraise
  | @missed h hs _ left asked vs t₁ t₂ _ hasked hrest =>
    refine ⟨_, List.mem_cons_self .., by simp, fun h => h.goes_on ?_ rfl⟩
    simpa [Visit.outcomes] using fun o d ha => hpasses (List.subset_append_left ..) hasked (d, o) ha
  | skipped hasked hrun hrest => exact absurd hrun (hnot_called (by simp))
  | settled hasked hrun hx => exact absurd hrun (hnot_called (by simp))

/-- Where the filter returns the empty dict, the handler is not matched. -/
theorem feed_not_filters_documented :
    ∃ t res, (lotDispatcher.feed newLot seller).Runs t res ∧
      ¬ Routes lotDispatcher newLot seller (fun _ v => v.ending ≠ .raised → v.AsDocumented) t := by
  refine ⟨[lotAsked ∅], .ok ⟨.skipped, newLot, none⟩, ⟨_, _, rfl, rfl, rfl⟩, ?_⟩
  intro ⟨t₁, t₂, x, ht, hparse, hroutes⟩
  obtain ⟨rfl, rfl⟩ := hparse
  obtain ⟨⟨e, he⟩, -⟩ | ⟨payload, -, hpieces⟩ := hroutes
  · cases he
  · rw [List.nil_append] at ht
    subst ht
    obtain ⟨t', hsub, -, event, data, visits, res, hvisits, hdocumented⟩ :=
      hpieces.exists_piece (List.mem_singleton_self _) fun h => h
    obtain ⟨v, hv, hraised, hnot⟩ :=
      not_asDocumented_of_lotAsked hvisits fun ev hev => List.mem_singleton.1 (hsub hev)
    exact hnot (hdocumented v hv hraised)

end EventusSdk
