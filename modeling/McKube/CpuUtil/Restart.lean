import McKube.CpuUtil.PublishedUsage
import McKube.CpuUtil.Debounce

/-!
# After a restart

The loop never reads the annotations of its node.  It resets a flag that an
earlier instance left only after it has seen a sample above 90 itself.

* `engaged_tick`, `waitsBy_tick`: the loop stays on its way to a reset.
* `settled_tick`: the reset comes at the deadline.
* `settled_iff`: which runs with a calm end leave the flag reset.
-/

namespace McKube.CpuUtil

open GoLib

/-! ## States -/

/-- The node carries `isCpuBusy = "false"`, and a usage of at most 90. -/
def Settled (s : LoopState) : Prop :=
  s.published.bind NodeAnnotationRequest.isCpuBusy = some ("false" : GoString) ∧
    ∃ v, v ≤ 90 ∧ CarriesUsage s v

/-- The flag is reset, or will be. -/
def Engaged (s : LoopState) : Prop := ResetPending s ∨ Settled s

/-- If the loop waits, it started to by the deadline. -/
def WaitsBy (deadline : Int) (s : LoopState) : Prop :=
  s.waitingForBusyFalse = true → s.droppedBelowTime ≤ deadline

theorem settled_congr {s s' : LoopState} (h : s.published = s'.published) :
    Settled s ↔ Settled s' := by
  unfold Settled CarriesUsage
  rw [h]

theorem settled_of_published {s : LoopState} {node : GoString} {u : Int} {over90time : Int64}
    (hlow : u ≤ 90) (hpublished : s.published = some (annotateViaHTTP node u over90time "false")) :
    Settled s := by
  refine ⟨?_, u, hlow, ?_⟩
  · rw [hpublished, Option.bind_some, isCpuBusy_annotateViaHTTP]
  · exact (carriesUsage_of_published hpublished).mpr rfl

/-! ## One tick -/

/-- With a request that succeeds, a sample above 90 sets the loop on its way to a
reset, and every sample keeps it there. -/
theorem engaged_tick (node : GoString) {s : LoopState} {t : Tick} (hdelivered : t.delivered = true)
    (h : t.Above ∨ Engaged s) : Engaged (tick node s t).1 := by
  have hcase := tick_cases node s t
  generalize tick node s t = result at hcase ⊢
  have hsettled : ∀ {u}, t.usage = some u → u ≤ 90 → Engaged s := by
    intro u hread hlow
    apply h.resolve_left
    rintro ⟨u', hread', hhigh⟩
    have hle := Tick.calm_of_read hread hlow u' hread'
    omega
  cases hcase with
  | readError hread =>
      apply h.resolve_left
      rintro ⟨u, hu, -⟩
      rw [hread] at hu
      cases hu
  | steady hread hhigh hsame =>
      subst hsame
      exact Or.inl (Or.inl hhigh)
  | rise _ hhigh =>
      rw [Tick.outcome, hdelivered]
      exact Or.inl (Or.inl hhigh)
  | drop =>
      rw [Tick.outcome, hdelivered]
      exact Or.inl (Or.inr rfl)
  | reset _ hlow _ _ _ hrequest =>
      subst hrequest
      rw [Tick.outcome, hdelivered]
      exact Or.inr (settled_of_published hlow rfl)
  | calm hread hlow => exact hsettled hread hlow

theorem waitsBy_tick (node : GoString) {s : LoopState} {t : Tick} {deadline : Int}
    (h : WaitsBy deadline s) (hdrop : t.dropTime ≤ deadline ∨ s.lastAnnUsage ≤ 90) :
    WaitsBy deadline (tick node s t).1 := by
  have hcase := tick_cases node s t
  generalize tick node s t = result at hcase
  cases hcase with
  | readError => exact h
  | steady => exact fun hwaiting => nomatch hwaiting
  | rise =>
      apply outcome_rule (P := WaitsBy deadline)
      · exact fun _ hwaiting => nomatch hwaiting
      · exact fun _ hwaiting => nomatch hwaiting
  | drop _ _ hlast =>
      apply outcome_rule (P := WaitsBy deadline)
      · exact fun _ => h
      · exact fun _ _ => hdrop.resolve_right (Int.not_le.mpr hlast)
  | reset =>
      apply outcome_rule (P := WaitsBy deadline)
      · exact fun _ => h
      · exact fun _ hwaiting => nomatch hwaiting
  | calm => exact h

/-- The loop in a calm stretch, on its way to a reset. -/
structure Resetting (deadline : Int) (s : LoopState) : Prop where
  engaged : Engaged s
  last : s.lastAnnUsage ≤ 90
  waits : WaitsBy deadline s

/-- A calm tick brings the loop on its way, or keeps it there. -/
theorem resetting_tick (node : GoString) {s : LoopState} {t : Tick} {deadline : Int}
    (hengaged : Engaged s) (hwaits : WaitsBy deadline s)
    (hdrop : t.dropTime ≤ deadline ∨ s.lastAnnUsage ≤ 90)
    (hread : t.usage.isSome = true) (hcalm : t.Calm) (hdelivered : t.delivered = true) :
    Resetting deadline (tick node s t).1 where
  engaged := engaged_tick node hdelivered (Or.inr hengaged)
  last := by
    obtain ⟨u, hu⟩ := Option.isSome_iff_exists.mp hread
    have hlow : u ≤ 90 := hcalm u hu
    rcases lastAnnUsage_tick node hu (Or.inr hdelivered) with hsample | ⟨hlast, -⟩
    · rw [hsample]
      exact hlow
    · exact hlast
  waits := waitsBy_tick node hwaits hdrop

/-- A calm tick that comes five seconds after the deadline finds the flag reset,
or resets it. -/
theorem settled_tick (node : GoString) {s : LoopState} {t : Tick} {deadline : Int}
    (h : Resetting deadline s) (hread : t.usage.isSome = true) (hcalm : t.Calm)
    (hdelivered : t.delivered = true) (hlate : deadline + 5 * second ≤ t.now) :
    Settled (tick node s t).1 := by
  have hcase := tick_cases node s t
  generalize tick node s t = result at hcase
  cases hcase with
  | readError hnone =>
      rw [hnone] at hread
      cases hread
  | steady hread' hhigh => exact absurd hhigh (Int.not_lt.mpr (hcalm _ hread'))
  | rise hread' hhigh => exact absurd hhigh (Int.not_lt.mpr (hcalm _ hread'))
  | drop _ _ hhigh => exact absurd hhigh (Int.not_lt.mpr h.last)
  | reset _ hlow _ _ _ hrequest =>
      subst hrequest
      rw [Tick.outcome, hdelivered]
      exact settled_of_published hlow rfl
  | calm _ _ _ hnot_due =>
      rcases h.engaged with (hhigh | hset) | hsettled
      · exact absurd hhigh (Int.not_lt.mpr h.last)
      · -- the loop waits, and five seconds have passed
        have hdue : 5 * second ≤ timeSub t.now s.droppedBelowTime := by
          have hdropped := h.waits hset
          rw [le_timeSub_iff (by decide) (by decide)]
          omega
        exact absurd ⟨hset, hdue⟩ hnot_due
      · exact (settled_congr rfl).mp hsettled

/-! ## Runs -/

/-- All reads and requests of the run succeed, the clock does not go back, and a
request has returned within five seconds of its tick: it gives up after three. -/
structure Undisturbed (ticks : List Tick) : Prop where
  read : ∀ t ∈ ticks, t.usage.isSome = true
  delivered : ∀ t ∈ ticks, t.delivered = true
  returned : ∀ t ∈ ticks, t.dropTime ≤ t.now + 5 * second
  clock : ticks.Pairwise fun t t' => t.now ≤ t'.now

instance (ticks : List Tick) : Decidable (Undisturbed ticks) :=
  decidable_of_iff ((∀ t ∈ ticks, t.usage.isSome = true) ∧ (∀ t ∈ ticks, t.delivered = true) ∧
      (∀ t ∈ ticks, t.dropTime ≤ t.now + 5 * second) ∧
      ticks.Pairwise fun t t' => t.now ≤ t'.now)
    ⟨fun ⟨hread, hdelivered, hreturned, hclock⟩ => ⟨hread, hdelivered, hreturned, hclock⟩,
      fun ⟨hread, hdelivered, hreturned, hclock⟩ => ⟨hread, hdelivered, hreturned, hclock⟩⟩

section Runs

variable {node : GoString} {found : Option NodeAnnotationRequest}

theorem engaged_stateAfter {ticks : List Tick} (hdelivered : ∀ t ∈ ticks, t.delivered = true)
    (h : (∃ t ∈ ticks, t.Above) ∨ Settled (annotationLoopFrom node found).init) :
    Engaged ((annotationLoopFrom node found).stateAfter ticks) := by
  induction ticks using List.reverseRecOn with
  | nil =>
      rcases h with ⟨t, ht, -⟩ | hsettled
      · cases ht
      · exact Or.inr hsettled
  | append_singleton ticks t ih =>
      simp only [List.mem_append, List.mem_singleton] at h hdelivered
      rw [Trace.Machine.stateAfter_concat]
      apply engaged_tick node (hdelivered t (Or.inr rfl))
      have hbefore := ih fun t' ht' => hdelivered t' (Or.inl ht')
      rcases h with ⟨t', ht' | rfl, habove⟩ | hsettled
      · exact Or.inr (hbefore (Or.inl ⟨t', ht', habove⟩))
      · exact Or.inl habove
      · exact Or.inr (hbefore (Or.inr hsettled))

theorem waitsBy_stateAfter {ticks : List Tick} {deadline : Int}
    (hdrop : ∀ t ∈ ticks, t.dropTime ≤ deadline) :
    WaitsBy deadline ((annotationLoopFrom node found).stateAfter ticks) := by
  induction ticks using List.reverseRecOn with
  | nil => exact fun hwaiting => nomatch hwaiting
  | append_singleton ticks t ih =>
      rw [Trace.Machine.stateAfter_concat]
      apply waitsBy_tick node
      · exact ih fun t' ht' => hdrop t' (List.mem_append_left _ ht')
      · exact Or.inl (hdrop t (by simp))

theorem resetting_stateAfter {ticks calm : List Tick} {deadline : Int}
    (h : Resetting deadline ((annotationLoopFrom node found).stateAfter ticks))
    (hread : ∀ t ∈ calm, t.usage.isSome = true) (hdelivered : ∀ t ∈ calm, t.delivered = true)
    (hcalm : ∀ t ∈ calm, t.Calm) :
    Resetting deadline ((annotationLoopFrom node found).stateAfter (ticks ++ calm)) := by
  induction calm using List.reverseRecOn with
  | nil =>
      rw [List.append_nil]
      exact h
  | append_singleton calm t ih =>
      simp only [List.mem_append, List.mem_singleton] at hread hdelivered hcalm
      have hbefore := ih (fun t' ht' => hread t' (Or.inl ht'))
        (fun t' ht' => hdelivered t' (Or.inl ht')) (fun t' ht' => hcalm t' (Or.inl ht'))
      rw [← List.append_assoc, Trace.Machine.stateAfter_concat]
      exact resetting_tick node hbefore.engaged hbefore.waits (Or.inr hbefore.last)
        (hread t (Or.inr rfl)) (hcalm t (Or.inr rfl)) (hdelivered t (Or.inr rfl))

/-- Before its first sample above 90, the loop leaves the node alone. -/
theorem published_of_all_calm {ticks : List Tick} (hcalm : ∀ t ∈ ticks, t.Calm) :
    ((annotationLoopFrom node found).stateAfter ticks).published = found := by
  have hinit : ¬ ResetPending ((annotationLoopFrom node found).stateAfter []) := by
    have hlast : ((annotationLoopFrom node found).stateAfter []).lastAnnUsage = -1 := rfl
    rintro (hhigh | hset)
    · omega
    · cases hset
  exact (published_of_calm node found hinit hcalm).1

/-- The flag is reset in the calm end of a run, if the loop is on its way to that. -/
theorem settled_of_calm_end {pre mid : List Tick} {f l : Tick}
    (hrun : Undisturbed (pre ++ f :: mid ++ [l])) (hcalm : ∀ t ∈ f :: mid ++ [l], t.Calm)
    (hspan : 10 * second < l.now - f.now)
    (hstart : (∃ t ∈ pre, t.Above) ∨ Settled (annotationLoopFrom node found).init) :
    Settled ((annotationLoopFrom node found).stateAfter (pre ++ f :: mid ++ [l])) := by
  obtain ⟨hread, hdelivered, hreturned, hordered⟩ := hrun
  -- what the loop waits for after `pre` is due by the deadline of `f`
  have hpre : ∀ t ∈ pre, t.dropTime ≤ f.now + 5 * second := by
    intro t ht
    rw [List.append_assoc, List.pairwise_append] at hordered
    have hnow := hordered.2.2 t ht f (by simp)
    have hdrop := hreturned t (by simp [ht])
    omega
  have hfirst : Resetting (f.now + 5 * second)
      ((annotationLoopFrom node found).stateAfter (pre ++ [f])) := by
    rw [Trace.Machine.stateAfter_concat]
    exact resetting_tick node
      (engaged_stateAfter (fun t ht => hdelivered t (by simp [ht])) hstart)
      (waitsBy_stateAfter hpre) (Or.inl (hreturned f (by simp))) (hread f (by simp))
      (hcalm f (by simp)) (hdelivered f (by simp))
  have hmid : Resetting (f.now + 5 * second)
      ((annotationLoopFrom node found).stateAfter (pre ++ [f] ++ mid)) :=
    resetting_stateAfter hfirst (fun t ht => hread t (by simp [ht]))
      (fun t ht => hdelivered t (by simp [ht])) (fun t ht => hcalm t (by simp [ht]))
  have hlate : f.now + 5 * second + 5 * second ≤ l.now := by omega
  rw [List.append_assoc, List.singleton_append] at hmid
  rw [Trace.Machine.stateAfter_concat]
  exact settled_tick node hmid (hread l (by simp)) (hcalm l (by simp)) (hdelivered l (by simp))
    hlate

/-- A run that ends with more than ten calm seconds leaves the flag reset iff a
sample above 90 came before them, or the node was found with the flag reset.  If
there was no such sample, the node is left as it was found. -/
theorem settled_iff {pre mid : List Tick} {f l : Tick}
    (hrun : Undisturbed (pre ++ f :: mid ++ [l])) (hcalm : ∀ t ∈ f :: mid ++ [l], t.Calm)
    (hspan : 10 * second < l.now - f.now) :
    (Settled ((annotationLoopFrom node found).stateAfter (pre ++ f :: mid ++ [l])) ↔
        (∃ t ∈ pre, t.Above) ∨ Settled (annotationLoopFrom node found).init) ∧
      ((∀ t ∈ pre, t.Calm) →
        ((annotationLoopFrom node found).stateAfter (pre ++ f :: mid ++ [l])).published =
          found) := by
  have hleaves : (∀ t ∈ pre, t.Calm) →
      ((annotationLoopFrom node found).stateAfter (pre ++ f :: mid ++ [l])).published = found := by
    intro hpre
    apply published_of_all_calm
    intro t ht
    rw [List.append_assoc, List.mem_append] at ht
    exact ht.elim (hpre t) (hcalm t)
  refine ⟨⟨fun hend => ?_, settled_of_calm_end hrun hcalm hspan⟩, hleaves⟩
  by_cases habove : ∃ t ∈ pre, t.Above
  · exact Or.inl habove
  · have hpre : ∀ t ∈ pre, t.Calm := fun t ht u hu =>
      Int.not_lt.mp fun hhigh => habove ⟨t, ht, u, hu, hhigh⟩
    exact Or.inr ((settled_congr (hleaves hpre)).mp hend)

end Runs

/-! ## A node that was left busy -/

/-- What an instance left that stopped while the node was busy. -/
def leftBusy : NodeAnnotationRequest := annotateViaHTTP "worker-1" 95 3 "true"

/-- The `n`-th second of a run. -/
def nthSecond (usage : Int) (n : Nat) : Tick where
  usage := some usage
  now := n * second
  annTime := n * second
  dropTime := n * second
  delivered := true

def twelveCalmSeconds : List Tick := (List.range 12).map (nthSecond 20)

/-- Twelve calm seconds after a restart, the flag of the earlier instance is still
on the node. -/
theorem settled_fails :
    Undisturbed twelveCalmSeconds ∧ (∀ t ∈ twelveCalmSeconds, t.Calm) ∧
      10 * second < (nthSecond 20 11).now - (nthSecond 20 0).now ∧
      ¬ Settled ((annotationLoopFrom "worker-1" (some leftBusy)).stateAfter
        twelveCalmSeconds) := by
  have hcalm : ∀ t ∈ twelveCalmSeconds, t.Calm := by
    intro t ht
    obtain ⟨n, -, rfl⟩ := List.mem_map.mp ht
    exact Tick.calm_of_read rfl (by omega)
  refine ⟨by decide, hcalm, by decide, fun hsettled => ?_⟩
  have hbusy : ((annotationLoopFrom "worker-1" (some leftBusy)).stateAfter
      twelveCalmSeconds).published = some leftBusy := by
    decide +kernel
  have hflag := hsettled.1
  rw [hbusy] at hflag
  exact absurd hflag (by decide)

/-- Once this instance has seen a sample above 90, it resets the flag. -/
theorem settled_iff_sample :
    (Settled ((annotationLoopFrom "worker-1" (some leftBusy)).stateAfter
        ([nthSecond 97 1] ++ nthSecond 20 2 :: [nthSecond 30 8] ++ [nthSecond 20 13])) ↔
        (∃ t ∈ [nthSecond 97 1], t.Above) ∨
          Settled (annotationLoopFrom "worker-1" (some leftBusy)).init) ∧
      ((∀ t ∈ [nthSecond 97 1], t.Calm) →
        ((annotationLoopFrom "worker-1" (some leftBusy)).stateAfter
          ([nthSecond 97 1] ++ nthSecond 20 2 :: [nthSecond 30 8] ++
            [nthSecond 20 13])).published = some leftBusy) := by
  have hcalm : ∀ t ∈ nthSecond 20 2 :: [nthSecond 30 8] ++ [nthSecond 20 13], t.Calm := by
    simp only [List.cons_append, List.nil_append, List.forall_mem_cons]
    exact ⟨Tick.calm_of_read rfl (by decide), Tick.calm_of_read rfl (by decide),
      Tick.calm_of_read rfl (by decide), by simp⟩
  exact settled_iff (by decide) hcalm (by decide)

end McKube.CpuUtil
