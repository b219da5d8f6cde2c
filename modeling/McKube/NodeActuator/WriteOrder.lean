import Mathlib.Tactic.Linarith
import McKube.NodeActuator.Outcome
import McKube.NodeActuator.WritePlan

/-!
# Does the container stay within the pod during a request?

The order of the writes is chosen so that the container never exceeds the pod
while a request is under way.  This module states such a rule for the files
after every single write (`AfterEveryWrite`).

* `afterEveryWrite_of_stages`: from the writes to the stages of `requestPlan`.
* `bandwidth_after_every_write_iff`: which changes of period and runtime of the
  whole cgroup keep the ratio runtime/period of the container within that of
  the pod.
-/

namespace McKube
namespace NodeActuator

open AtomicProgram GoLib
open GoLib.filepath (join components rootPath Plain)

/-! ## After every write -/

namespace CgroupRequest

/-- `I` holds after every file write of a run of the request. -/
def AfterEveryWrite (k : Kernel) (host : Host) (req : CgroupRequest) (files : Files)
    (I : Files → Prop) : Prop :=
  ∀ event ∈ Program.trace k.exec (req.apply host).run files, event.op.IsWrite → I event.after

instance (k : Kernel) (host : Host) (req : CgroupRequest) (files : Files) (I : Files → Prop)
    [DecidablePred I] : Decidable (req.AfterEveryWrite k host files I) :=
  inferInstanceAs (Decidable (∀ event ∈ Program.trace k.exec (req.apply host).run files, _))

variable {k : Kernel} {host : Host} {req : CgroupRequest} {files : Files}
  {containerCgPath podCgPath : GoString}

/-- The rule for the files after every write, and the rule for the stages of
the plan: the stages decide, and after a success the writes have shown them
all. -/
theorem afterEveryWrite_of_stages
    (hresolves : Resolves host req.containerID containerCgPath podCgPath)
    (hdistinct : components containerCgPath ≠ components podCgPath)
    {plan : List ((Member → Settings) → Member → Settings)}
    (hplan : ∀ current, Preflight host files req.containerID req.period req.core current →
      requestPlan k current req.period req.runtime req.core req.onlyRuntime = plan)
    {safe : (Member → Settings) → Prop}
    (hstart : safe (settingsOf (pairPath containerCgPath podCgPath) files)) :
    ((∀ v ∈ stages plan (settingsOf (pairPath containerCgPath podCgPath) files), safe v) →
      req.AfterEveryWrite k host files
        fun s => safe (settingsOf (pairPath containerCgPath podCgPath) s)) ∧
    (req.Succeeds k host files →
      req.AfterEveryWrite k host files
        (fun s => safe (settingsOf (pairPath containerCgPath podCgPath) s)) →
      ∀ v ∈ stages plan (settingsOf (pairPath containerCgPath podCgPath) files), safe v) := by
  have hfollows := follows_apply (k := k) hresolves (hresolves.distinctCgroups hdistinct) hplan
  constructor
  · intro hsafe event hevent _
    exact hfollows.forall_after hsafe event hevent
  · intro hok hwrites
    have hsuccess : Fallible.Succeeded (Program.run k.exec (req.apply host).run files).1 := by
      rw [hok]
      trivial
    have hquiet : ∀ op, ¬ FileOp.IsWrite op → ∀ s, (k.exec op s).2 = s :=
      fun op hop s => k.exec_state_of_not_write hop s
    apply hfollows.forall_stages hsuccess hstart
    exact Program.forall_after_of_changing
      (I := fun s => safe (settingsOf (pairPath containerCgPath podCgPath) s))
      hquiet hstart hwrites

/-- The rule for the stages of the plan, and the rule for the state in which
the request stops, with or without an error. -/
theorem finish_of_stages
    (hresolves : Resolves host req.containerID containerCgPath podCgPath)
    (hdistinct : components containerCgPath ≠ components podCgPath)
    {plan : List ((Member → Settings) → Member → Settings)}
    (hplan : ∀ current, Preflight host files req.containerID req.period req.core current →
      requestPlan k current req.period req.runtime req.core req.onlyRuntime = plan)
    {safe : (Member → Settings) → Prop}
    (hsafe : ∀ v ∈ stages plan (settingsOf (pairPath containerCgPath podCgPath) files), safe v) :
    safe (settingsOf (pairPath containerCgPath podCgPath) (req.finish k host files)) :=
  hsafe _ (follows_apply (k := k) hresolves (hresolves.distinctCgroups hdistinct)
    hplan).run_mem_stages

end CgroupRequest

/-! ## The bandwidth of a cgroup -/

/-- The bandwidth runtime/period of the container is at most that of the pod,
compared by cross-multiplication. -/
def BandwidthLe (v : Member → Settings) : Prop :=
  (do
    let containerPeriod ← (v .container).period
    let containerRuntime ← (v .container).runtime
    let podPeriod ← (v .pod).period
    let podRuntime ← (v .pod).runtime
    some (decide (containerRuntime * podPeriod ≤ podRuntime * containerPeriod))) = some true

instance (v : Member → Settings) : Decidable (BandwidthLe v) :=
  inferInstanceAs (Decidable (_ = some true))

/-- The values that `BandwidthLe` looks at. -/
structure Shown (v : Member → Settings)
    (containerPeriod containerRuntime podPeriod podRuntime : Int) : Prop where
  containerPeriod : (v .container).period = some containerPeriod
  containerRuntime : (v .container).runtime = some containerRuntime
  podPeriod : (v .pod).period = some podPeriod
  podRuntime : (v .pod).runtime = some podRuntime

namespace Shown

variable {v : Member → Settings} {cp cr pp pr : Int}

theorem bandwidthLe_iff (h : Shown v cp cr pp pr) : BandwidthLe v ↔ cr * pp ≤ pr * cp := by
  unfold BandwidthLe
  rw [h.containerPeriod, h.containerRuntime, h.podPeriod, h.podRuntime]
  simp only [Option.bind_eq_bind, Option.bind_some, Option.some.injEq, decide_eq_true_eq]

theorem setContainerPeriod (h : Shown v cp cr pp pr) (p : Int) :
    Shown (onMember .container (Settings.setPeriod p) v) p cr pp pr :=
  ⟨rfl, h.containerRuntime, h.podPeriod, h.podRuntime⟩

theorem setPodPeriod (h : Shown v cp cr pp pr) (p : Int) :
    Shown (onMember .pod (Settings.setPeriod p) v) cp cr p pr :=
  ⟨h.containerPeriod, h.containerRuntime, rfl, h.podRuntime⟩

theorem grantContainer (h : Shown v cp cr pp pr) (k : Kernel) (r : Int) :
    Shown (onMember .container (Settings.grant k r none) v) cp r pp pr :=
  ⟨h.containerPeriod, rfl, h.podPeriod, h.podRuntime⟩

theorem grantPod (h : Shown v cp cr pp pr) (k : Kernel) (r : Int) :
    Shown (onMember .pod (Settings.grant k r none) v) cp cr pp r :=
  ⟨h.containerPeriod, h.containerRuntime, h.podPeriod, rfl⟩

end Shown

/-! ## The stages of a change of period and runtime -/

/-- Runtime before period, container before pod. -/
def decreasePlan (k : Kernel) (period runtime : Int) :
    List ((Member → Settings) → Member → Settings) :=
  [onMember .container (Settings.grant k (max runtime 0) none),
    onMember .container (Settings.setPeriod period),
    onMember .pod (Settings.grant k (max runtime 0) none),
    onMember .pod (Settings.setPeriod period)]

/-- Period before runtime, pod before container. -/
def increasePlan (k : Kernel) (period runtime : Int) :
    List ((Member → Settings) → Member → Settings) :=
  [onMember .pod (Settings.setPeriod period),
    onMember .pod (Settings.grant k (max runtime 0) none),
    onMember .container (Settings.setPeriod period),
    onMember .container (Settings.grant k (max runtime 0) none)]

theorem requestPlan_budget (k : Kernel) (current : Current) (period runtime : Int) :
    requestPlan k current period runtime none false =
      if isRuntimeDecrease current.podRuntime runtime || isDecrease current.podPeriod period then
        decreasePlan k period runtime
      else
        increasePlan k period runtime := by
  have hflag : current.containerFirst period runtime none false =
      (isRuntimeDecrease current.podRuntime runtime || isDecrease current.podPeriod period) := by
    simp [Current.containerFirst]
  unfold requestPlan
  rw [hflag]
  cases isRuntimeDecrease current.podRuntime runtime || isDecrease current.podPeriod period
  · rfl
  · rfl

section Budget

variable {k : Kernel} {v : Member → Settings} {P R p r : Int}

theorem decreasePlan_safe_iff (h : Shown v P R P R) :
    (∀ w ∈ stages (decreasePlan k p r) v, BandwidthLe w) ↔
      max r 0 * P ≤ R * P ∧ max r 0 * P ≤ R * p ∧ max r 0 * P ≤ max r 0 * p := by
  have h₁ := h.grantContainer k (max r 0)
  have h₂ := h₁.setContainerPeriod p
  have h₃ := h₂.grantPod k (max r 0)
  have h₄ := h₃.setPodPeriod p
  simp only [decreasePlan, stages_cons, stages_nil, List.forall_mem_cons, List.not_mem_nil,
    false_implies, implies_true, and_true, h.bandwidthLe_iff, h₁.bandwidthLe_iff,
    h₂.bandwidthLe_iff, h₃.bandwidthLe_iff, h₄.bandwidthLe_iff, le_refl, true_and]

theorem increasePlan_safe_iff (h : Shown v P R P R) :
    (∀ w ∈ stages (increasePlan k p r) v, BandwidthLe w) ↔
      R * p ≤ R * P ∧ R * p ≤ max r 0 * P ∧ R * p ≤ max r 0 * p := by
  have h₁ := h.setPodPeriod p
  have h₂ := h₁.grantPod k (max r 0)
  have h₃ := h₂.setContainerPeriod p
  have h₄ := h₃.grantContainer k (max r 0)
  simp only [increasePlan, stages_cons, stages_nil, List.forall_mem_cons, List.not_mem_nil,
    false_implies, implies_true, and_true, h.bandwidthLe_iff, h₁.bandwidthLe_iff,
    h₂.bandwidthLe_iff, h₃.bandwidthLe_iff, h₄.bandwidthLe_iff, le_refl, true_and]

end Budget

/-- The changes of a budget `(P, R)` to the period `period` and the runtime
`runtime` that keep the container within the pod. -/
def SafeBudgetStep (P R period runtime : Int) : Prop :=
  (period < P ∧ runtime ≤ 0) ∨ (period = P ∧ (0 ≤ runtime ∨ R = 0)) ∨
    (P < period ∧ (R = 0 ∨ (0 ≤ runtime ∧ runtime < R)))

instance (P R period runtime : Int) : Decidable (SafeBudgetStep P R period runtime) :=
  inferInstanceAs (Decidable (_ ∨ _ ∨ _))

theorem isRuntimeDecrease_iff {R : Int} (hR : 0 ≤ R) (r : Int) :
    isRuntimeDecrease R r = true ↔ 0 ≤ r ∧ r < R := by
  unfold isRuntimeDecrease
  split
  · constructor
    · intro h
      cases h
    · intro h
      omega
  · split
    · omega
    · rw [decide_eq_true_eq]
      omega

/-- The arithmetic of the four stages, for a change that lowers the period or
the runtime. -/
theorem safeBudgetStep_iff_decrease {P R p r : Int} (hP : 0 < P) (hR : 0 ≤ R) (hp : 0 < p)
    (hdecrease : (0 ≤ r ∧ r < R) ∨ p < P) :
    SafeBudgetStep P R p r ↔
      max r 0 * P ≤ R * P ∧ max r 0 * P ≤ R * p ∧ max r 0 * P ≤ max r 0 * p := by
  unfold SafeBudgetStep
  rcases le_or_gt r 0 with hr | hr
  · -- nothing is granted, and the period must have fallen
    have hw : max r 0 = 0 := by omega
    have hRP : 0 ≤ R * P := by positivity
    have hRp : 0 ≤ R * p := by positivity
    rw [hw]
    constructor
    · intro _
      exact ⟨by omega, by omega, by omega⟩
    · intro _
      omega
  · have hw : max r 0 = r := by omega
    rw [hw]
    constructor
    · intro hcases
      have hrR : r < R := by omega
      have hPp : P ≤ p := by omega
      have hfirst : r * P ≤ R * P := by nlinarith
      have hlast : r * P ≤ r * p := by nlinarith
      have hmiddle : r * P ≤ R * p := by nlinarith
      exact ⟨hfirst, hmiddle, hlast⟩
    · -- the last stage alone rules out a shorter period
      rintro ⟨-, -, hlast⟩
      have hPp : P ≤ p := by nlinarith
      omega

/-- The arithmetic of the four stages, for a change that lowers neither. -/
theorem safeBudgetStep_iff_increase {P R p r : Int} (hP : 0 < P) (hR : 0 ≤ R)
    (hincrease : ¬ ((0 ≤ r ∧ r < R) ∨ p < P)) :
    SafeBudgetStep P R p r ↔
      R * p ≤ R * P ∧ R * p ≤ max r 0 * P ∧ R * p ≤ max r 0 * p := by
  unfold SafeBudgetStep
  have hPp : P ≤ p := by omega
  constructor
  · intro hcases
    rcases eq_or_lt_of_le hR with hzero | hpos
    · subst hzero
      have hw : 0 ≤ max r 0 := by omega
      have hmiddle : 0 ≤ max r 0 * P := by positivity
      have hlast : 0 ≤ max r 0 * p := by nlinarith
      exact ⟨by omega, by omega, by omega⟩
    · have heq : p = P := by omega
      have hRr : R ≤ max r 0 := by omega
      subst heq
      have hlast : R * p ≤ max r 0 * p := by nlinarith
      exact ⟨le_refl _, hlast, hlast⟩
  · rintro ⟨hfirst, hmiddle, -⟩
    rcases eq_or_lt_of_le hPp with heq | hlt
    · subst heq
      have hRr : R ≤ max r 0 := by nlinarith
      omega
    · -- the first stage gives the pod a longer period for its old runtime
      have hzero : R = 0 := by nlinarith
      omega

/-- The stages of the plan for a budget that both cgroups hold. -/
theorem requestPlan_safe_iff {k : Kernel} {current : Current} {v : Member → Settings}
    {P R p r : Int} (h : Shown v P R P R) (hP : 0 < P) (hR : 0 ≤ R) (hp : 0 < p)
    (hperiod : current.podPeriod = P) (hruntime : current.podRuntime = R) :
    (∀ w ∈ stages (requestPlan k current p r none false) v, BandwidthLe w) ↔
      SafeBudgetStep P R p r := by
  have hflag : (isRuntimeDecrease R r || isDecrease P p) = true ↔ (0 ≤ r ∧ r < R) ∨ p < P := by
    rw [Bool.or_eq_true, isRuntimeDecrease_iff hR, isDecrease, decide_eq_true_eq]
  rw [requestPlan_budget, hperiod, hruntime]
  by_cases hdecrease : (isRuntimeDecrease R r || isDecrease P p) = true
  · rw [if_pos hdecrease, decreasePlan_safe_iff h]
    exact (safeBudgetStep_iff_decrease hP hR hp (hflag.mp hdecrease)).symm
  · rw [if_neg hdecrease, increasePlan_safe_iff h]
    exact (safeBudgetStep_iff_increase hP hR (fun hlow => hdecrease (hflag.mpr hlow))).symm

namespace CgroupRequest

variable {k : Kernel} {host : Host} {req : CgroupRequest} {files : Files}
  {containerCgPath podCgPath : GoString}

/-- The plan of a request for the whole cgroup depends on the files only by the
period and the runtime of the pod. -/
theorem requestPlan_of_preflight (k : Kernel) {pp pr : Int}
    (hresolves : Resolves host req.containerID containerCgPath podCgPath)
    (hcore : req.core = none)
    (hperiod : intAt files (join [podCgPath, cgroupRTPeriod]) = some pp)
    (hruntime : intAt files (join [podCgPath, cgroupRTRuntime]) = some pr) :
    ∀ read, Preflight host files req.containerID req.period req.core read →
      requestPlan k read req.period req.runtime req.core req.onlyRuntime =
        requestPlan k ⟨containerCgPath, podCgPath, pp, pr, 0⟩ req.period req.runtime none
          req.onlyRuntime := by
  intro read hread
  rw [hcore]
  apply requestPlan_congr
  unfold Current.containerFirst
  rw [hread.podPeriod_eq hresolves hperiod, hread.podRuntime_eq hresolves hruntime]
  rfl

/-- A change of period and runtime of the whole cgroup, from a budget that
the pod and the container hold.  The requests of `SafeBudgetStep` keep the
container within the pod after every write, whatever the kernel does; every
other request that is carried out to its end breaks the rule on the way. -/
theorem bandwidth_after_every_write_iff {P R : Int}
    (hresolves : Resolves host req.containerID containerCgPath podCgPath)
    (hdistinct : components containerCgPath ≠ components podCgPath)
    (haccepted : req.Accepted) (hcore : req.core = none) (hmode : req.onlyRuntime = false)
    (hP : 0 < P) (hR : 0 ≤ R)
    (hperiod : ∀ m, intAt files (join [pairPath containerCgPath podCgPath m, cgroupRTPeriod]) =
      some P)
    (hruntime : ∀ m, intAt files (join [pairPath containerCgPath podCgPath m, cgroupRTRuntime]) =
      some R) :
    (SafeBudgetStep P R req.period req.runtime → req.AfterEveryWrite k host files
      fun s => BandwidthLe (settingsOf (pairPath containerCgPath podCgPath) s)) ∧
    (req.Succeeds k host files → req.AfterEveryWrite k host files
      (fun s => BandwidthLe (settingsOf (pairPath containerCgPath podCgPath) s)) →
      SafeBudgetStep P R req.period req.runtime) := by
  have hp : 0 < req.period := (req.accepted_iff.mp haccepted).2.1
  have hshown : Shown (settingsOf (pairPath containerCgPath podCgPath) files) P R P R :=
    ⟨hperiod .container, hruntime .container, hperiod .pod, hruntime .pod⟩
  have hstart : BandwidthLe (settingsOf (pairPath containerCgPath podCgPath) files) :=
    hshown.bandwidthLe_iff.mpr (le_refl _)
  -- the preflight checks read the budget of the pod, or there is no write at all
  let current : Current := ⟨containerCgPath, podCgPath, P, R, 0⟩
  have hplan : ∀ read, Preflight host files req.containerID req.period req.core read →
      requestPlan k read req.period req.runtime req.core req.onlyRuntime =
        requestPlan k current req.period req.runtime none false := by
    rw [← hmode]
    exact requestPlan_of_preflight k hresolves hcore (hperiod .pod) (hruntime .pod)
  have hstages : (∀ w ∈ stages (requestPlan k current req.period req.runtime none false)
      (settingsOf (pairPath containerCgPath podCgPath) files), BandwidthLe w) ↔
      SafeBudgetStep P R req.period req.runtime :=
    requestPlan_safe_iff hshown hP hR hp rfl rfl
  obtain ⟨hkeep, hbreak⟩ := afterEveryWrite_of_stages hresolves hdistinct hplan hstart
  constructor
  · intro hsafe
    exact hkeep (hstages.mpr hsafe)
  · intro hok hwrites
    exact hstages.mp (hbreak hok hwrites)

theorem components_sample_ne : components sampleContainerPath ≠ components samplePodPath := by
  decide +kernel

theorem bandwidth_after_every_write_iff_sample :
    (sampleBudget 1000000 300000 (by decide) (by decide)).AfterEveryWrite Kernel.permissive
      Host.sample (sampleFiles 1000000 500000 "0 0")
      fun s => BandwidthLe (settingsOf (pairPath sampleContainerPath samplePodPath) s) :=
  (bandwidth_after_every_write_iff (resolves_sample _) components_sample_ne (by decide) rfl rfl
    (by decide : (0 : Int) < 1000000) (by decide : (0 : Int) ≤ 500000)
    (fun m => by cases m <;> decide +kernel) (fun m => by cases m <;> decide +kernel)).1
    (by decide)

/-- Shortening the period from 1 s to 0.9 s while raising the runtime from
0.5 s to 0.6 s: after the first write the container has more than the pod. -/
theorem bandwidth_after_every_write_fails :
    (sampleBudget 900000 600000 (by decide) (by decide)).Accepted ∧
    Resolves Host.sample (sampleBudget 900000 600000 (by decide) (by decide)).containerID
      sampleContainerPath samplePodPath ∧
    (∀ m, intAt (sampleFiles 1000000 500000 "0 0")
        (join [pairPath sampleContainerPath samplePodPath m, cgroupRTPeriod]) = some 1000000 ∧
      intAt (sampleFiles 1000000 500000 "0 0")
        (join [pairPath sampleContainerPath samplePodPath m, cgroupRTRuntime]) = some 500000) ∧
    ¬ (sampleBudget 900000 600000 (by decide) (by decide)).AfterEveryWrite Kernel.permissive
      Host.sample (sampleFiles 1000000 500000 "0 0")
      fun s => BandwidthLe (settingsOf (pairPath sampleContainerPath samplePodPath) s) := by
  refine ⟨by decide, resolves_sample _, fun m => ?_, by decide +kernel⟩
  cases m <;> decide +kernel

end CgroupRequest

end NodeActuator
end McKube
