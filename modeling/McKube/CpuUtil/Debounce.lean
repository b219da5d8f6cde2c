import McKube.CpuUtil.BusyFlag
import McKube.Trace.Since

/-!
# Five calm seconds

The flag is reset at the end of a calm stretch that started with a successful
request, at least five seconds ago.

* `waitsFrom_tick`: what brings about that the loop waits.
* `not_resetPending_tick`: what brings about that it can reset the flag again.
* `sends_false`: the calm stretch before a reset, and the sample above 90 before
  it.
-/

namespace McKube.CpuUtil

open GoLib

/-- The sample of the tick was read, and is above 90. -/
def Tick.Above (t : Tick) : Prop := ∃ u ∈ t.usage, 90 < u

/-- The sample of the tick, if it was read, is at most 90. -/
def Tick.Calm (t : Tick) : Prop := ∀ u ∈ t.usage, u ≤ 90

theorem Tick.calm_of_read {t : Tick} {u : Int} (hread : t.usage = some u) (hlow : u ≤ 90) :
    t.Calm := by
  intro u' hu'
  rw [hread, Option.mem_some_iff] at hu'
  omega

/-- After the ticks `p`, the tick `t` publishes the flag. -/
def PublishesFlag (node : GoString) (p : List Tick) (t : Tick) (flag : GoString) : Prop :=
  ∃ request, Publishes node p t request ∧ request.isCpuBusy = some flag

/-- After the ticks `p`, the tick `t` publishes a sample above 90. -/
def PublishesAbove (node : GoString) (p : List Tick) (t : Tick) : Prop :=
  t.Above ∧ ∃ request, Publishes node p t request

/-- After the ticks `p`, the loop starts to wait at the time `dropTime`. -/
structure Drops (node : GoString) (dropTime : Int) (p : List Tick) (t : Tick) : Prop where
  flag : PublishesFlag node p t "true"
  low : ∃ u ∈ t.usage, u ≤ 90
  time : t.dropTime = dropTime

/-! ## The calm stretch -/

/-- The loop has been waiting since `dropTime`. -/
def WaitsFrom (dropTime : Int) (s : LoopState) : Prop :=
  s.waitingForBusyFalse = true ∧ s.droppedBelowTime = dropTime

/-- The loop waits because it started to at this tick, or did so before and the
tick is calm. -/
theorem waitsFrom_tick {node : GoString} {dropTime : Int} {p : List Tick} {t : Tick}
    (h : WaitsFrom dropTime ((annotationLoop node).stateAfter (p ++ [t]))) :
    Drops node dropTime p t ∨
      (WaitsFrom dropTime ((annotationLoop node).stateAfter p) ∧ t.Calm) := by
  have hcase := moment_cases node p t
  generalize (annotationLoop node).stateAfter (p ++ [t]) = s' at hcase h
  generalize hsends : (annotationLoop node).outputAt p t = sent at hcase
  cases hcase with
  | readError hread =>
      refine Or.inr ⟨h, fun u hu => ?_⟩
      rw [hread] at hu
      cases hu
  | steady => exact absurd h.1 Bool.false_ne_true
  | rise =>
      rcases outcome_inv (P := WaitsFrom dropTime) h with ⟨-, hwaits⟩ | ⟨-, hwaits⟩
      · exact absurd hwaits.1 Bool.false_ne_true
      · exact absurd hwaits.1 Bool.false_ne_true
  | drop hread hlow _ hrequest =>
      subst hrequest
      rcases outcome_inv (P := WaitsFrom dropTime) h with ⟨-, hwaits⟩ | ⟨hdelivered, hwaits⟩
      · exact Or.inr ⟨hwaits, Tick.calm_of_read hread hlow⟩
      · exact Or.inl
          { flag := ⟨_, ⟨hsends, hdelivered⟩, rfl⟩
            low := ⟨_, hread, hlow⟩
            time := hwaits.2 }
  | reset hread hlow =>
      rcases outcome_inv (P := WaitsFrom dropTime) h with ⟨-, hwaits⟩ | ⟨-, hwaits⟩
      · exact Or.inr ⟨hwaits, Tick.calm_of_read hread hlow⟩
      · exact absurd hwaits.1 Bool.false_ne_true
  | calm hread hlow => exact Or.inr ⟨h, Tick.calm_of_read hread hlow⟩

/-- While the loop waits, all samples since it started to wait are calm. -/
theorem since_drops {node : GoString} {dropTime : Int} {ticks : List Tick}
    (h : WaitsFrom dropTime ((annotationLoop node).stateAfter ticks)) :
    Trace.Since (Drops node dropTime) (fun _ t => t.Calm) ticks :=
  (annotationLoop node).since_of_state (fun hwaits => nomatch hwaits.1)
    (fun _ _ hwaits => waitsFrom_tick hwaits) h

/-! ## Between two resets -/

/-- Only a published sample above 90 makes a reset pending. -/
theorem not_resetPending_tick {node : GoString} {p : List Tick} {t : Tick}
    (h : ¬ ResetPending ((annotationLoop node).stateAfter p)) (hbelow : ¬ PublishesAbove node p t) :
    ¬ ResetPending ((annotationLoop node).stateAfter (p ++ [t])) := by
  have hcase := moment_cases node p t
  generalize (annotationLoop node).stateAfter (p ++ [t]) = s' at hcase ⊢
  generalize hsends : (annotationLoop node).outputAt p t = sent at hcase
  cases hcase with
  | readError => exact h
  | steady _ hhigh hsame =>
      rw [hsame] at hhigh
      exact absurd (Or.inl hhigh) h
  | rise hread hhigh =>
      apply outcome_rule (P := fun s' => ¬ ResetPending s')
      · rintro - (hlast | hset)
        · exact h (Or.inl hlast)
        · cases hset
      · exact fun hdelivered =>
          absurd ⟨⟨_, hread, hhigh⟩, _, hsends, hdelivered⟩ hbelow
  | drop _ _ hlast => exact absurd (Or.inl hlast) h
  | reset _ _ _ hset => exact absurd (Or.inr hset) h
  | calm => exact h

/-- The flag is only reset by a calm tick, five seconds after the loop started
to wait; and if that succeeds, no reset is pending any more. -/
theorem reset_tick {node : GoString} {s : LoopState} {t : Tick} {request : NodeAnnotationRequest}
    (hrequest : (tick node s t).2 = some request)
    (hflag : request.isCpuBusy = some ("false" : GoString)) :
    t.Calm ∧ s.waitingForBusyFalse = true ∧ 5 * second ≤ t.now - s.droppedBelowTime ∧
      (t.delivered = true → ¬ ResetPending (tick node s t).1) := by
  have hcase := tick_cases node s t
  generalize tick node s t = result at hcase hrequest ⊢
  -- all requests but the one of `reset` carry `"true"`
  have hfalse : ("true" : GoString) ≠ "false" := by decide
  cases hcase with
  | readError => cases hrequest
  | steady => cases hrequest
  | rise _ _ _ htrue =>
      cases hrequest
      subst htrue
      exact absurd (Option.some.inj hflag) hfalse
  | drop _ _ _ htrue =>
      cases hrequest
      subst htrue
      exact absurd (Option.some.inj hflag) hfalse
  | reset hread hlow _ hset hcalm =>
      refine ⟨Tick.calm_of_read hread hlow, hset, ?_, fun hdelivered => ?_⟩
      · exact (le_timeSub_iff (by decide) (by decide)).mp hcalm
      · rw [Tick.outcome, hdelivered]
        rintro (hlast | hset')
        · exact absurd hlast (Int.not_lt.mpr hlow)
        · cases hset'
  | calm => cases hrequest

/-- Before a request that resets the flag, the loop published a sample at most
90, at least five seconds ago; all samples since then are at most 90; and since
any earlier reset a sample above 90 was published. -/
theorem sends_false {node : GoString} {p : List Tick} {t : Tick} {request : NodeAnnotationRequest}
    (hsends : Sends node p t request) (hflag : request.isCpuBusy = some ("false" : GoString)) :
    (∃ p₁ d p₂, p = p₁ ++ d :: p₂ ∧ PublishesFlag node p₁ d "true" ∧ (∃ u ∈ d.usage, u ≤ 90) ∧
        5 * second ≤ t.now - d.dropTime ∧ ∀ t' ∈ p₂ ++ [t], t'.Calm) ∧
      ∀ p₁ f p₂, p = p₁ ++ f :: p₂ → PublishesFlag node p₁ f "false" →
        ∃ q₁ r q₂, p₂ = q₁ ++ r :: q₂ ∧ PublishesAbove node (p₁ ++ f :: q₁) r := by
  obtain ⟨hcalm, hset, hlong, -⟩ := reset_tick hsends hflag
  constructor
  · -- the loop waits, so it started to at some tick, and all was calm since then
    obtain ⟨p₁, d, p₂, rfl, hdrops, hsince⟩ := since_drops ⟨hset, rfl⟩
    refine ⟨p₁, d, p₂, rfl, hdrops.flag, hdrops.low, ?_, fun t' ht' => ?_⟩
    · rw [hdrops.time]
      exact hlong
    · rcases List.mem_append.mp ht' with hbefore | hlast
      · obtain ⟨q₁, q₂, hsplit⟩ := List.append_of_mem hbefore
        exact hsince q₁ t' q₂ hsplit
      · rw [List.mem_singleton.mp hlast]
        exact hcalm
  · rintro p₁ f p₂ rfl hfalse
    refine Trace.exists_not_of_not_since
      (P := fun q x => PublishesFlag node q x "false") hfalse fun hsince => ?_
    -- otherwise no reset would be pending now
    refine (annotationLoop node).state_of_since (J := fun s => ¬ ResetPending s) ?_ ?_ hsince
      (Or.inr hset)
    · rintro q f' ⟨request', ⟨hsends', hdelivered⟩, hflag'⟩
      rw [Trace.Machine.stateAfter_concat]
      exact (reset_tick hsends' hflag').2.2.2 hdelivered
    · exact fun q x => not_resetPending_tick

/-- The node was busy, and has been calm for five seconds. -/
def fiveCalmSeconds : List Tick :=
  [{ usage := some 95, now := 10 * second, annTime := 10 * second, dropTime := 0,
     delivered := true },
   { usage := some 40, now := 11 * second, annTime := 11 * second, dropTime := 11 * second,
     delivered := true }]

def sixteenth : Tick :=
  { usage := some 30, now := 16 * second, annTime := 16 * second, dropTime := 0,
    delivered := true }

theorem sends_false_sample :
    (∃ p₁ d p₂, fiveCalmSeconds = p₁ ++ d :: p₂ ∧ PublishesFlag "worker-1" p₁ d "true" ∧
        (∃ u ∈ d.usage, u ≤ 90) ∧ 5 * second ≤ sixteenth.now - d.dropTime ∧
        ∀ t' ∈ p₂ ++ [sixteenth], t'.Calm) ∧
      ∀ p₁ f p₂, fiveCalmSeconds = p₁ ++ f :: p₂ → PublishesFlag "worker-1" p₁ f "false" →
        ∃ q₁ r q₂, p₂ = q₁ ++ r :: q₂ ∧ PublishesAbove "worker-1" (p₁ ++ f :: q₁) r := by
  have hsends : Sends "worker-1" fiveCalmSeconds sixteenth
      (annotateViaHTTP "worker-1" 30 0 "false") := by
    unfold Sends
    decide +kernel
  exact sends_false hsends rfl

end McKube.CpuUtil
