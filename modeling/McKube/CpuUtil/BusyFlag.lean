import McKube.CpuUtil.AnnotationLoop

/-!
# The busy flag

While the node carries `isCpuBusy = "true"`, the loop should still be on its way
to reset it: the last published usage is above 90, or the loop waits for five
calm seconds.

* `waitingInvariant_stateAfter`: what is true while the loop waits.
* `always_notStuck_iff`: the flag never gets stuck iff no rise is lost while the
  loop waits.
* `published_of_stuck`: a stuck flag stays as long as the node is calm.
-/

namespace McKube.CpuUtil

open GoLib

/-! ## States -/

/-- The node carries `isCpuBusy = "true"`. -/
def Busy (s : LoopState) : Prop :=
  s.published.bind NodeAnnotationRequest.isCpuBusy = some ("true" : GoString)

/-- The loop will reset the flag when the node has been calm for long enough. -/
def ResetPending (s : LoopState) : Prop :=
  90 < s.lastAnnUsage ∨ s.waitingForBusyFalse = true

def NotStuck (s : LoopState) : Prop := Busy s → ResetPending s

/-- The sample rises above 90 while the loop waits, and the request fails. -/
def LosesReset (s : LoopState) (t : Tick) : Prop :=
  s.waitingForBusyFalse = true ∧ t.delivered = false ∧ ∃ u ∈ t.usage, 90 < u

/-- While the loop waits, the last published usage is at most 90, and the flag
is set. -/
def WaitingInvariant (s : LoopState) : Prop :=
  s.waitingForBusyFalse = true → s.lastAnnUsage ≤ 90 ∧ Busy s

theorem busy_of_published {s : LoopState} {node : GoString} {u : Int} {over90time : Int64}
    {flag : GoString}
    (hpublished : s.published = some (annotateViaHTTP node u over90time flag)) :
    Busy s ↔ flag = ("true" : GoString) := by
  rw [Busy, hpublished, Option.bind_some, isCpuBusy_annotateViaHTTP, Option.some.injEq]

/-- A property of the state after a tick, by the outcome of its request. -/
theorem outcome_rule {t : Tick} {s sent : LoopState} {P : LoopState → Prop}
    (hfailed : t.delivered = false → P s) (hsent : t.delivered = true → P sent) :
    P (t.outcome s sent) := by
  cases hdelivered : t.delivered with
  | false =>
      rw [Tick.outcome, hdelivered]
      exact hfailed hdelivered
  | true =>
      rw [Tick.outcome, hdelivered]
      exact hsent hdelivered

theorem outcome_inv {t : Tick} {s sent : LoopState} {P : LoopState → Prop}
    (h : P (t.outcome s sent)) :
    (t.delivered = false ∧ P s) ∨ (t.delivered = true ∧ P sent) := by
  cases hdelivered : t.delivered with
  | false =>
      rw [Tick.outcome, hdelivered] at h
      exact Or.inl ⟨rfl, h⟩
  | true =>
      rw [Tick.outcome, hdelivered] at h
      exact Or.inr ⟨rfl, h⟩

/-! ## The invariant -/

theorem waitingInvariant_tick (node : GoString) {s : LoopState} (h : WaitingInvariant s)
    (t : Tick) : WaitingInvariant (tick node s t).1 := by
  have hcase := tick_cases node s t
  generalize tick node s t = result at hcase
  cases hcase with
  | readError => exact h
  | steady => exact fun hwaiting => nomatch hwaiting
  | rise =>
      apply outcome_rule
      · exact fun _ hwaiting => nomatch hwaiting
      · exact fun _ hwaiting => nomatch hwaiting
  | drop hread hlow hlast hrequest =>
      apply outcome_rule
      · exact fun _ => h
      · intro _ _
        subst hrequest
        exact ⟨hlow, (busy_of_published rfl).mpr rfl⟩
  | reset =>
      apply outcome_rule
      · exact fun _ => h
      · exact fun _ hwaiting => nomatch hwaiting
  | calm => exact h

theorem waitingInvariant_stateAfter (node : GoString) (ticks : List Tick) :
    WaitingInvariant ((annotationLoop node).stateAfter ticks) := by
  refine (annotationLoop node).invariant (I := WaitingInvariant) ?_ ?_ ticks
  · intro hwaiting
    cases hwaiting
  · exact fun _ t h => waitingInvariant_tick node h t

/-! ## When the flag gets stuck -/

theorem not_losesReset_of_low {s : LoopState} {t : Tick} {u : Int} (hread : t.usage = some u)
    (hlow : u ≤ 90) : ¬ LosesReset s t := by
  rintro ⟨-, -, u', hu', hhigh⟩
  rw [hread, Option.mem_some_iff] at hu'
  omega

/-- One tick: only a lost rise makes a flag stuck that was not. -/
theorem notStuck_tick_iff (node : GoString) {s : LoopState} (hwaiting : WaitingInvariant s)
    (h : NotStuck s) (t : Tick) : NotStuck (tick node s t).1 ↔ ¬ LosesReset s t := by
  have hcase := tick_cases node s t
  generalize tick node s t = result at hcase
  cases hcase with
  | readError hread =>
      refine iff_of_true h ?_
      rintro ⟨-, -, u, hu, -⟩
      rw [hread] at hu
      cases hu
  | steady hread hhigh hsame =>
      subst hsame
      refine iff_of_true (fun _ => Or.inl hhigh) ?_
      rintro ⟨hset, -, -⟩
      have hlast := (hwaiting hset).1
      omega
  | rise hread hhigh =>
      apply outcome_rule (P := fun s' => NotStuck s' ↔ ¬ LosesReset s t)
      · -- the flag `waitingForBusyFalse` is cleared although nothing was published
        intro hdelivered
        by_cases hset : s.waitingForBusyFalse = true
        · obtain ⟨hlast, hbusy⟩ := hwaiting hset
          have hloses : LosesReset s t := ⟨hset, hdelivered, _, hread, hhigh⟩
          refine iff_of_false ?_ (fun hkeeps => hkeeps hloses)
          intro hpending
          rcases hpending hbusy with hlast' | hset'
          · exact absurd hlast' (Int.not_lt.mpr hlast)
          · cases hset'
        · refine iff_of_true ?_ (fun hloses => hset hloses.1)
          intro hbusy
          rcases h hbusy with hlast | hset'
          · exact Or.inl hlast
          · exact absurd hset' hset
      · intro hdelivered
        refine iff_of_true (fun _ => Or.inl hhigh) ?_
        rintro ⟨-, hlost, -⟩
        rw [hdelivered] at hlost
        cases hlost
  | drop hread hlow =>
      refine iff_of_true ?_ (not_losesReset_of_low hread hlow)
      apply outcome_rule
      · exact fun _ => h
      · exact fun _ _ => Or.inr rfl
  | reset hread hlow _ _ _ hrequest =>
      refine iff_of_true ?_ (not_losesReset_of_low hread hlow)
      apply outcome_rule
      · exact fun _ => h
      · intro _ hbusy
        subst hrequest
        rw [busy_of_published rfl] at hbusy
        exact absurd hbusy (by decide)
  | calm hread hlow => exact iff_of_true h (not_losesReset_of_low hread hlow)

/-- The flag is not stuck in any state of a run iff no tick of the run loses a
rise while the loop waits. -/
theorem always_notStuck_iff (node : GoString) (ticks : List Tick) :
    (∀ p q, ticks = p ++ q → NotStuck ((annotationLoop node).stateAfter p)) ↔
      ∀ p t q, ticks = p ++ t :: q → ¬ LosesReset ((annotationLoop node).stateAfter p) t := by
  have hinit : NotStuck (annotationLoop node).init := by
    intro hbusy
    cases hbusy
  exact (annotationLoop node).always_iff (waitingInvariant_stateAfter node) hinit
    (fun _ t hwaiting h => notStuck_tick_iff node hwaiting h t) ticks

/-- The node is busy, then calm, and becomes busy again while the API server
cannot be reached. -/
def lostRise : List Tick :=
  [{ usage := some 95, now := 10 * second, annTime := 10 * second, dropTime := 0,
     delivered := true },
   { usage := some 40, now := 11 * second, annTime := 11 * second, dropTime := 11 * second,
     delivered := true },
   { usage := some 96, now := 12 * second, annTime := 0, dropTime := 0, delivered := false }]

theorem always_notStuck_fails :
    ¬ ∀ p q, lostRise = p ++ q → NotStuck ((annotationLoop "worker-1").stateAfter p) := by
  intro h
  have hbusy : Busy ((annotationLoop "worker-1").stateAfter lostRise) := by
    unfold Busy
    decide +kernel
  rcases h lostRise [] rfl hbusy with hlast | hset
  · exact absurd hlast (by decide +kernel)
  · exact absurd hset (by decide +kernel)

/-! ## What a stuck flag means -/

/-- Without a pending reset, a calm tick changes neither the node nor that. -/
theorem published_tick_of_stuck (node : GoString) {s : LoopState} (h : ¬ ResetPending s)
    {t : Tick} (hcalm : ∀ u ∈ t.usage, u ≤ 90) :
    (tick node s t).1.published = s.published ∧ ¬ ResetPending (tick node s t).1 := by
  have hcase := tick_cases node s t
  generalize tick node s t = result at hcase
  have hnot_high : ∀ {u}, t.usage = some u → ¬ 90 < u := by
    intro u hread hhigh
    have hlow := hcalm u hread
    omega
  cases hcase with
  | readError => exact ⟨rfl, h⟩
  | steady hread hhigh => exact absurd hhigh (hnot_high hread)
  | rise hread hhigh => exact absurd hhigh (hnot_high hread)
  | drop _ _ hlast => exact absurd (Or.inl hlast) h
  | reset _ _ _ hset => exact absurd (Or.inr hset) h
  | calm => exact ⟨rfl, h⟩

/-- Without a pending reset, the loop leaves the node alone until the usage rises
above 90. -/
theorem published_of_calm (node : GoString) (found : Option NodeAnnotationRequest)
    {ticks calm : List Tick}
    (h : ¬ ResetPending ((annotationLoopFrom node found).stateAfter ticks))
    (hcalm : ∀ t ∈ calm, ∀ u ∈ t.usage, u ≤ 90) :
    ((annotationLoopFrom node found).stateAfter (ticks ++ calm)).published =
        ((annotationLoopFrom node found).stateAfter ticks).published ∧
      ¬ ResetPending ((annotationLoopFrom node found).stateAfter (ticks ++ calm)) := by
  induction calm using List.reverseRecOn with
  | nil =>
      rw [List.append_nil]
      exact ⟨rfl, h⟩
  | append_singleton calm t ih =>
      obtain ⟨hpublished, hstuck⟩ := ih fun t' ht' => hcalm t' (List.mem_append_left _ ht')
      rw [← List.append_assoc, Trace.Machine.stateAfter_concat, ← hpublished]
      exact published_tick_of_stuck node hstuck (hcalm t (by simp))

/-- A stuck flag stays on the node until the usage rises above 90 again. -/
theorem published_of_stuck (node : GoString) {ticks calm : List Tick}
    (h : ¬ ResetPending ((annotationLoop node).stateAfter ticks))
    (hcalm : ∀ t ∈ calm, ∀ u ∈ t.usage, u ≤ 90) :
    ((annotationLoop node).stateAfter (ticks ++ calm)).published =
        ((annotationLoop node).stateAfter ticks).published ∧
      ¬ ResetPending ((annotationLoop node).stateAfter (ticks ++ calm)) :=
  published_of_calm node none h hcalm

end McKube.CpuUtil
