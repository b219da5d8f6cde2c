import McKube.CpuUtil.BusyFlag

/-!
# The published usage

The loop does not publish every sample, but the usage on the node is always on
the side of 90 % on which the last sample was.

* `usageRecorded_stateAfter`: a usage above 90 on the node is `lastAnnUsage`.
* `carriesUsage_iff`: a tick that did not fail leaves a usage above 90 on the
  node iff its sample is above 90, and then it is this sample.
-/

namespace McKube.CpuUtil

open GoLib

/-- The node carries the usage `v`. -/
def CarriesUsage (s : LoopState) (v : Int) : Prop :=
  s.published.bind NodeAnnotationRequest.cpuUsage = some (itoa v)

/-- A usage above 90 is on the node iff it is the last one that was sent with
success. -/
def UsageRecorded (s : LoopState) : Prop :=
  ∀ v, 90 < v → (CarriesUsage s v ↔ s.lastAnnUsage = v)

theorem carriesUsage_of_published {s : LoopState} {node : GoString} {u v : Int}
    {over90time : Int64} {flag : GoString}
    (hpublished : s.published = some (annotateViaHTTP node u over90time flag)) :
    CarriesUsage s v ↔ u = v := by
  rw [CarriesUsage, hpublished, Option.bind_some, cpuUsage_annotateViaHTTP, Option.some.injEq]
  exact itoa_injective.eq_iff

theorem usageRecorded_of_published {s : LoopState} {node : GoString} {over90time : Int64}
    {flag : GoString}
    (hpublished : s.published = some (annotateViaHTTP node s.lastAnnUsage over90time flag)) :
    UsageRecorded s := fun _ _ => carriesUsage_of_published hpublished

/-! ## The invariant -/

theorem usageRecorded_tick (node : GoString) {s : LoopState} (h : UsageRecorded s) (t : Tick) :
    UsageRecorded (tick node s t).1 := by
  have hcase := tick_cases node s t
  generalize tick node s t = result at hcase
  cases hcase with
  | readError => exact h
  | steady => exact h
  | rise _ _ _ hrequest =>
      apply outcome_rule
      · exact fun _ => h
      · exact fun _ => usageRecorded_of_published (congrArg some hrequest)
  | drop _ _ _ hrequest =>
      apply outcome_rule
      · exact fun _ => h
      · exact fun _ => usageRecorded_of_published (congrArg some hrequest)
  | reset _ _ _ _ _ hrequest =>
      apply outcome_rule
      · exact fun _ => h
      · exact fun _ => usageRecorded_of_published (congrArg some hrequest)
  | calm => exact h

theorem usageRecorded_stateAfter (node : GoString) (ticks : List Tick) :
    UsageRecorded ((annotationLoop node).stateAfter ticks) := by
  refine (annotationLoop node).invariant (I := UsageRecorded) ?_ ?_ ticks
  · -- no usage is on the node, and `lastAnnUsage` is -1
    intro v hv
    have hlast : (annotationLoop node).init.lastAnnUsage = -1 := rfl
    refine iff_of_false (fun hcarries => nomatch hcarries) ?_
    omega
  · exact fun _ t h => usageRecorded_tick node h t

/-! ## After a tick -/

/-- A tick that did not fail has recorded its sample, or it found and left the
usage at most 90. -/
theorem lastAnnUsage_tick (node : GoString) {s : LoopState} {t : Tick} {u : Int}
    (hread : t.usage = some u) (hsent : (tick node s t).2 = none ∨ t.delivered = true) :
    (tick node s t).1.lastAnnUsage = u ∨ ((tick node s t).1.lastAnnUsage ≤ 90 ∧ u ≤ 90) := by
  have hcase := tick_cases node s t
  generalize tick node s t = result at hcase hsent
  have hsample : ∀ {u'}, t.usage = some u' → u' = u := by
    intro u' hread'
    rw [hread] at hread'
    exact (Option.some.inj hread').symm
  -- a tick that sent something sent it with success
  have hdelivered : result.2 ≠ none → t.delivered = true := hsent.resolve_left
  cases hcase with
  | readError hnone =>
      rw [hread] at hnone
      cases hnone
  | steady hread' _ hsame => exact Or.inl (hsame.symm.trans (hsample hread'))
  | rise hread' =>
      rw [Tick.outcome, hdelivered (Option.some_ne_none _)]
      exact Or.inl (hsample hread')
  | drop hread' =>
      rw [Tick.outcome, hdelivered (Option.some_ne_none _)]
      exact Or.inl (hsample hread')
  | reset hread' =>
      rw [Tick.outcome, hdelivered (Option.some_ne_none _)]
      exact Or.inl (hsample hread')
  | calm hread' hlow hlast =>
      refine Or.inr ⟨hlast, ?_⟩
      rw [← hsample hread']
      exact hlow

/-- After a tick whose sample was read, and that sent nothing or with success, a
usage above 90 is on the node iff the sample is above 90; and then the node
carries the sample. -/
theorem carriesUsage_iff {node : GoString} {ticks : List Tick} {t : Tick} {u : Int}
    (hread : t.usage = some u)
    (hsent : (annotationLoop node).outputAt ticks t = none ∨ t.delivered = true) :
    ((∃ v, 90 < v ∧ CarriesUsage ((annotationLoop node).stateAfter (ticks ++ [t])) v) ↔ 90 < u) ∧
      (90 < u → CarriesUsage ((annotationLoop node).stateAfter (ticks ++ [t])) u) := by
  have hrecorded := usageRecorded_stateAfter node (ticks ++ [t])
  have hlast := lastAnnUsage_tick node hread hsent
  rw [Trace.Machine.stateAfter_concat] at *
  have hcarries : 90 < u →
      CarriesUsage ((annotationLoop node).step ((annotationLoop node).stateAfter ticks) t).1 u := by
    intro hhigh
    apply (hrecorded u hhigh).mpr
    rcases hlast with hsame | ⟨-, hlow⟩
    · exact hsame
    · omega
  refine ⟨⟨?_, fun hhigh => ⟨u, hhigh, hcarries hhigh⟩⟩, hcarries⟩
  rintro ⟨v, hv, hnode⟩
  have hlast' := (hrecorded v hv).mp hnode
  rcases hlast with hsame | ⟨hlow, -⟩
  · rw [← hsame]
    exact hlast' ▸ hv
  · exact absurd hv (Int.not_lt.mpr (hlast' ▸ hlow))

/-- A failed request does not count, but the next one does. -/
theorem carriesUsage_iff_sample :
    ((∃ v, 90 < v ∧ CarriesUsage ((annotationLoop "worker-1").stateAfter (lostRise ++
        [{ usage := some 96, now := 13 * second, annTime := 13 * second, dropTime := 0,
           delivered := true }])) v) ↔ (90 : Int) < 96) ∧
      ((90 : Int) < 96 → CarriesUsage ((annotationLoop "worker-1").stateAfter (lostRise ++
        [{ usage := some 96, now := 13 * second, annTime := 13 * second, dropTime := 0,
           delivered := true }])) 96) :=
  carriesUsage_iff rfl (Or.inr rfl)

end McKube.CpuUtil
