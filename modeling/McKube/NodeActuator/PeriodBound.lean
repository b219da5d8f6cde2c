import McKube.NodeActuator.Escalation

/-!
# Runtime and period of one cgroup

The kernel wants the runtime of a cgroup to be at most its own period, or to be
negative.  `handleCgroup` compares the two numbers of the request, and the order
of the files is chosen by the old values of the pod.

* `withinPeriods_after_every_write_iff`: which requests keep the rule in both
  cgroups after every write (`FitsPeriods`).
* `fitsPeriods_of_succeeds`: the others are not carried out by a kernel that
  insists on the rule.
-/

namespace McKube
namespace NodeActuator

open AtomicProgram GoLib
open GoLib.filepath (join components rootPath Plain)

/-! ## The rule -/

/-- The period is positive, and the runtime is negative or at most the period. -/
def WithinPeriod (period runtime : Int) : Prop := 0 < period ∧ (runtime < 0 ∨ runtime ≤ period)

instance (period runtime : Int) : Decidable (WithinPeriod period runtime) :=
  inferInstanceAs (Decidable (_ ∧ _))

/-- Both cgroups keep the rule. -/
def WithinPeriods (v : Member → Settings) : Prop :=
  (do
    let containerPeriod ← (v .container).period
    let containerRuntime ← (v .container).runtime
    let podPeriod ← (v .pod).period
    let podRuntime ← (v .pod).runtime
    some (decide (WithinPeriod containerPeriod containerRuntime ∧
      WithinPeriod podPeriod podRuntime))) = some true

instance (v : Member → Settings) : Decidable (WithinPeriods v) :=
  inferInstanceAs (Decidable (_ = some true))

theorem Shown.withinPeriods_iff {v : Member → Settings} {cp cr pp pr : Int}
    (h : Shown v cp cr pp pr) :
    WithinPeriods v ↔ WithinPeriod cp cr ∧ WithinPeriod pp pr := by
  unfold WithinPeriods
  rw [h.containerPeriod, h.containerRuntime, h.podPeriod, h.podRuntime]
  simp only [Option.bind_eq_bind, Option.bind_some, Option.some.injEq, decide_eq_true_eq]

/-! ## The stages -/

/-- The requests that fit the periods in force while they are carried out: the
container holds `(cp, cr)` and the pod `(pp, pr)`.  Where the runtime is written
first it must fit the old periods, and where the period is written first the old
runtime must fit the new one. -/
def FitsPeriods (onlyRuntime : Bool) (cp cr pp pr period runtime : Int) : Prop :=
  if onlyRuntime || isRuntimeDecrease pr runtime || isDecrease pp period then
    runtime ≤ cp ∧ runtime ≤ pp
  else
    cr ≤ period

instance (onlyRuntime : Bool) (cp cr pp pr period runtime : Int) :
    Decidable (FitsPeriods onlyRuntime cp cr pp pr period runtime) :=
  inferInstanceAs (Decidable (ite _ _ _))

section Stages

variable {k : Kernel} {v : Member → Settings} {cp cr pp pr p r : Int}

theorem decreasePlan_within_iff (h : Shown v cp cr pp pr) (hc : WithinPeriod cp cr)
    (hp : WithinPeriod pp pr) (hperiod : 0 < p) (hle : r ≤ p) :
    (∀ w ∈ stages (decreasePlan k p r) v, WithinPeriods w) ↔ r ≤ cp ∧ r ≤ pp := by
  have h₁ := h.grantContainer k (max r 0)
  have h₂ := h₁.setContainerPeriod p
  have h₃ := h₂.grantPod k (max r 0)
  have h₄ := h₃.setPodPeriod p
  have hnew : WithinPeriod p (max r 0) := ⟨hperiod, Or.inr (by omega)⟩
  -- the first write in each of the two cgroups meets the old period
  have hold : ∀ {q}, 0 < q → (WithinPeriod q (max r 0) ↔ r ≤ q) := by
    intro q hq
    unfold WithinPeriod
    omega
  simp only [decreasePlan, stages_cons, stages_nil, List.forall_mem_cons, List.not_mem_nil,
    false_implies, implies_true, and_true, h.withinPeriods_iff, h₁.withinPeriods_iff,
    h₂.withinPeriods_iff, h₃.withinPeriods_iff, h₄.withinPeriods_iff, hc, hp, hnew, true_and,
    hold hc.1, hold hp.1]

theorem increasePlan_within_iff (h : Shown v cp cr pp pr) (hc : WithinPeriod cp cr)
    (hp : WithinPeriod pp pr) (hperiod : 0 < p) (hle : r ≤ p) :
    (∀ w ∈ stages (increasePlan k p r) v, WithinPeriods w) ↔ pr ≤ p ∧ cr ≤ p := by
  have h₁ := h.setPodPeriod p
  have h₂ := h₁.grantPod k (max r 0)
  have h₃ := h₂.setContainerPeriod p
  have h₄ := h₃.grantContainer k (max r 0)
  have hnew : WithinPeriod p (max r 0) := ⟨hperiod, Or.inr (by omega)⟩
  -- the second write in each cgroup meets the new period, the first one the old runtime
  have hold : ∀ {q}, WithinPeriod p q ↔ q ≤ p := by
    intro q
    unfold WithinPeriod
    omega
  simp only [increasePlan, stages_cons, stages_nil, List.forall_mem_cons, List.not_mem_nil,
    false_implies, implies_true, and_true, h.withinPeriods_iff, h₁.withinPeriods_iff,
    h₂.withinPeriods_iff, h₃.withinPeriods_iff, h₄.withinPeriods_iff, hc, hp, hnew, true_and,
    hold]

theorem runtimeOnlyPlan_within_iff (h : Shown v cp cr pp pr) (hc : WithinPeriod cp cr)
    (hp : WithinPeriod pp pr) (decreasing : Bool) :
    (∀ w ∈ stages (runtimeOnlyPlan k r none decreasing) v, WithinPeriods w) ↔
      r ≤ cp ∧ r ≤ pp := by
  have hcontainer := h.grantContainer k r
  have hpod := h.grantPod k r
  have hboth := hcontainer.grantPod k r
  have hboth' := hpod.grantContainer k r
  have hnew : ∀ {q}, 0 < q → (WithinPeriod q r ↔ r ≤ q) := by
    intro q hq
    unfold WithinPeriod
    omega
  cases decreasing with
  | true =>
      simp only [runtimeOnlyPlan, if_true, stages_cons, stages_nil, List.forall_mem_cons,
        List.not_mem_nil, false_implies, implies_true, and_true, h.withinPeriods_iff,
        hcontainer.withinPeriods_iff, hboth.withinPeriods_iff, hc, hp, true_and, hnew hc.1,
        hnew hp.1]
      tauto
  | false =>
      simp only [runtimeOnlyPlan, Bool.false_eq_true, if_false, stages_cons, stages_nil,
        List.forall_mem_cons, List.not_mem_nil, false_implies, implies_true, and_true,
        h.withinPeriods_iff, hpod.withinPeriods_iff, hboth'.withinPeriods_iff, hc, hp, true_and,
        hnew hc.1, hnew hp.1]
      tauto

/-- The stages of a request for the whole cgroup, in either mode. -/
theorem requestPlan_within_iff {current : Current} {onlyRuntime : Bool}
    (h : Shown v cp cr pp pr) (hc : WithinPeriod cp cr) (hp : WithinPeriod pp pr)
    (hperiod : 0 < p) (hle : r ≤ p) (hreadPeriod : current.podPeriod = pp)
    (hreadRuntime : current.podRuntime = pr) :
    (∀ w ∈ stages (requestPlan k current p r none onlyRuntime) v, WithinPeriods w) ↔
      FitsPeriods onlyRuntime cp cr pp pr p r := by
  unfold FitsPeriods
  cases onlyRuntime with
  | true =>
      rw [requestPlan_runtimeOnly, runtimeOnlyPlan_within_iff h hc hp, Bool.true_or, Bool.true_or,
        if_pos rfl]
  | false =>
      rw [requestPlan_budget, hreadPeriod, hreadRuntime, Bool.false_or]
      by_cases hdecrease : (isRuntimeDecrease pr r || isDecrease pp p) = true
      · rw [if_pos hdecrease, if_pos hdecrease, decreasePlan_within_iff h hc hp hperiod hle]
      · rw [if_neg hdecrease, if_neg hdecrease, increasePlan_within_iff h hc hp hperiod hle]
        -- the period of the pod does not fall, so that its runtime still fits
        have hlonger : ¬ p < pp := by
          intro hlt
          apply hdecrease
          rw [Bool.or_eq_true, isDecrease, decide_eq_true_eq]
          exact Or.inr hlt
        have hpod := hp.2
        have hpositive := hp.1
        omega

end Stages

namespace CgroupRequest

variable {k : Kernel} {host : Host} {req : CgroupRequest} {files : Files}
  {containerCgPath podCgPath : GoString} {cp cr pp pr : Int}

section Request

variable (hresolves : Resolves host req.containerID containerCgPath podCgPath)
  (hdistinct : components containerCgPath ≠ components podCgPath)
  (haccepted : req.Accepted) (hcore : req.core = none)
  (hshown : Shown (settingsOf (pairPath containerCgPath podCgPath) files) cp cr pp pr)
  (hcontainer : WithinPeriod cp cr) (hpod : WithinPeriod pp pr)

include hresolves hdistinct haccepted hcore hshown hcontainer hpod

theorem withinPeriods_of_fitsPeriods
    (hfits : FitsPeriods req.onlyRuntime cp cr pp pr req.period req.runtime) :
    req.AfterEveryWrite k host files
      fun s => WithinPeriods (settingsOf (pairPath containerCgPath podCgPath) s) := by
  obtain ⟨-, hperiod, hle⟩ := req.accepted_iff.mp haccepted
  have hplan := requestPlan_of_preflight k hresolves hcore hshown.podPeriod hshown.podRuntime
  apply (afterEveryWrite_of_stages hresolves hdistinct hplan
    (hshown.withinPeriods_iff.mpr ⟨hcontainer, hpod⟩)).1
  exact (requestPlan_within_iff hshown hcontainer hpod hperiod hle rfl rfl).mpr hfits

theorem fitsPeriods_of_withinPeriods (hok : req.Succeeds k host files)
    (hwrites : req.AfterEveryWrite k host files
      fun s => WithinPeriods (settingsOf (pairPath containerCgPath podCgPath) s)) :
    FitsPeriods req.onlyRuntime cp cr pp pr req.period req.runtime := by
  obtain ⟨-, hperiod, hle⟩ := req.accepted_iff.mp haccepted
  have hplan := requestPlan_of_preflight k hresolves hcore hshown.podPeriod hshown.podRuntime
  have hstages := (afterEveryWrite_of_stages hresolves hdistinct hplan
    (hshown.withinPeriods_iff.mpr ⟨hcontainer, hpod⟩)).2 hok hwrites
  exact (requestPlan_within_iff hshown hcontainer hpod hperiod hle rfl rfl).mp hstages

/-- A request for the whole cgroup, in either mode, from a state in which both
cgroups keep the rule.  The requests of `FitsPeriods` keep it after every write,
whatever the kernel does; every other request that is carried out to its end
breaks it on the way. -/
theorem withinPeriods_after_every_write_iff :
    (FitsPeriods req.onlyRuntime cp cr pp pr req.period req.runtime →
      req.AfterEveryWrite k host files
        fun s => WithinPeriods (settingsOf (pairPath containerCgPath podCgPath) s)) ∧
    (req.Succeeds k host files → req.AfterEveryWrite k host files
      (fun s => WithinPeriods (settingsOf (pairPath containerCgPath podCgPath) s)) →
      FitsPeriods req.onlyRuntime cp cr pp pr req.period req.runtime) := by
  constructor
  · exact withinPeriods_of_fitsPeriods hresolves hdistinct haccepted hcore hshown hcontainer hpod
  · exact fitsPeriods_of_withinPeriods hresolves hdistinct haccepted hcore hshown hcontainer hpod

/-- A kernel that refuses every write that breaks the rule carries out only
requests of `FitsPeriods`. -/
theorem fitsPeriods_of_succeeds
    (hinsists : ∀ s path value s', k.write s path value = .ok s' →
      WithinPeriods (settingsOf (pairPath containerCgPath podCgPath) s'))
    (hok : req.Succeeds k host files) :
    FitsPeriods req.onlyRuntime cp cr pp pr req.period req.runtime := by
  apply fitsPeriods_of_withinPeriods hresolves hdistinct haccepted hcore hshown hcontainer hpod hok
  have hkeep : ∀ op s, WithinPeriods (settingsOf (pairPath containerCgPath podCgPath) s) →
      WithinPeriods (settingsOf (pairPath containerCgPath podCgPath) (k.exec op s).2) := by
    intro op s hs
    by_cases hop : op.IsWrite
    · cases op with
      | stat path => exact hop.elim
      | readFile path => exact hop.elim
      | writeFile path value =>
          simp only [Kernel.exec]
          cases hwrite : k.write s path value with
          | error failure => exact hs
          | ok s' => exact hinsists s path value s' hwrite
    · rw [k.exec_state_of_not_write hop]
      exact hs
  intro event hevent _
  exact Program.forall_after_of_invariant hkeep
    (hshown.withinPeriods_iff.mpr ⟨hcontainer, hpod⟩) event hevent

end Request

/-- A request of the escalation mode for the whole of the sample container. -/
def sampleWhole (runtime : Int) (hruntime : InInt runtime) : CgroupRequest :=
  { sampleBudget 1000000 runtime inInt_samplePeriod hruntime with onlyRuntime := true }

theorem shown_sample :
    Shown (settingsOf (pairPath sampleContainerPath samplePodPath) (sampleFiles 100000 50000 "0 0"))
      100000 50000 100000 50000 := by
  constructor
  · decide +kernel
  · decide +kernel
  · decide +kernel
  · decide +kernel

theorem inInt_sampleShort : InInt 80000 := by decide

theorem withinPeriods_after_every_write_iff_sample :
    (FitsPeriods true 100000 50000 100000 50000 1000000 80000 →
      (sampleWhole 80000 inInt_sampleShort).AfterEveryWrite Kernel.permissive Host.sample
        (sampleFiles 100000 50000 "0 0")
        fun s => WithinPeriods (settingsOf (pairPath sampleContainerPath samplePodPath) s)) ∧
    ((sampleWhole 80000 inInt_sampleShort).Succeeds Kernel.permissive Host.sample
        (sampleFiles 100000 50000 "0 0") →
      (sampleWhole 80000 inInt_sampleShort).AfterEveryWrite Kernel.permissive Host.sample
        (sampleFiles 100000 50000 "0 0")
        (fun s => WithinPeriods (settingsOf (pairPath sampleContainerPath samplePodPath) s)) →
      FitsPeriods true 100000 50000 100000 50000 1000000 80000) :=
  withinPeriods_after_every_write_iff (resolves_sample _) components_sample_ne
    (by decide : (sampleWhole 80000 inInt_sampleShort).Accepted) rfl shown_sample (by decide)
    (by decide)

/-- The kernel that refuses the writes that break the rule, and no others. -/
def insisting : Kernel :=
  { Kernel.permissive with
    reject := fun files path value =>
      if WithinPeriods (settingsOf (pairPath sampleContainerPath samplePodPath)
          (Function.update files path (some value))) then
        none
      else
        some "invalid argument" }

/-- Raising the runtime alone to 0.2 s, which is less than the period of the
request, in cgroups whose period is 0.1 s: the rule is broken after the first
write, and a kernel that insists on it refuses that write. -/
theorem withinPeriods_after_every_write_fails :
    (sampleWhole 200000 inInt_sampleRuntime).Accepted ∧
    Shown (settingsOf (pairPath sampleContainerPath samplePodPath) (sampleFiles 100000 50000 "0 0"))
      100000 50000 100000 50000 ∧
    ¬ (sampleWhole 200000 inInt_sampleRuntime).AfterEveryWrite Kernel.permissive Host.sample
      (sampleFiles 100000 50000 "0 0")
      (fun s => WithinPeriods (settingsOf (pairPath sampleContainerPath samplePodPath) s)) ∧
    ¬ (sampleWhole 200000 inInt_sampleRuntime).Succeeds insisting Host.sample
      (sampleFiles 100000 50000 "0 0") :=
  ⟨by decide, shown_sample, by decide +kernel, by decide +kernel⟩

end CgroupRequest

end NodeActuator
end McKube
