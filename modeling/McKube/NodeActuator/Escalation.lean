import Mathlib.Order.WithBot
import McKube.NodeActuator.CoreWriteOrder

/-!
# The escalation mode

A request with `only_runtime` writes one runtime to the container and to the
pod.  Here a negative runtime is no limit at all, above every other: runtimes
are compared as elements of `WithTop ℕ` (`limit`), and `isRuntimeDecrease` is
the strict order of these limits (`isRuntimeDecrease_iff_limit`).

* `runtimeOnlyPlan_safe`: the order of the two writes keeps the limits of the
  container within those of the pod.
* `limits_after_every_write`: so does every request of this mode, after every
  write and wherever it stops.
-/

namespace McKube
namespace NodeActuator

open AtomicProgram GoLib
open GoLib.filepath (join components rootPath Plain)

/-! ## Limits -/

/-- The limit that a runtime sets: a negative one sets none. -/
def limit (runtime : Int) : WithTop ℕ := if runtime < 0 then ⊤ else WithTop.some runtime.toNat

theorem limit_of_neg {runtime : Int} (h : runtime < 0) : limit runtime = ⊤ := if_pos h

theorem limit_of_nonneg {runtime : Int} (h : 0 ≤ runtime) :
    limit runtime = WithTop.some runtime.toNat := if_neg (by omega)

/-- The comparison of the source is the strict order of the limits. -/
theorem isRuntimeDecrease_iff_limit (old new : Int) :
    isRuntimeDecrease old new = true ↔ limit new < limit old := by
  unfold isRuntimeDecrease
  split
  · rename_i hnew
    simp [limit_of_neg hnew]
  · rename_i hnew
    rw [limit_of_nonneg (by omega : 0 ≤ new)]
    split
    · rename_i hold
      simp [limit_of_neg hold.1]
    · have hold : 0 ≤ old := by omega
      rw [limit_of_nonneg hold, WithTop.coe_lt_coe, decide_eq_true_eq]
      omega

/-! ## What a request of this mode sets -/

/-- The position among the limits that a request sets: the limit of the whole
cgroup, or that of one CPU. -/
inductive Target : Option GoString → Nat → Prop
  | whole : Target none 0
  | cpu {i : Nat} (hcpu : InInt i) : Target (some (itoa i)) i

namespace Settings

/-- The limits that a request for `core` is about: that of the whole cgroup, or
those of the single CPUs. -/
def limits (core : Option GoString) (s : Settings) : Option (List (WithTop ℕ)) :=
  match core with
  | none => s.runtime.map fun runtime => [limit runtime]
  | some _ => s.entries.map (List.map limit)

/-- The word in one slot of `cpu.rt_multi_runtime_us`. -/
def slot (s : Settings) (j : Nat) : Option GoString := s.slots.bind fun words => words[j]?

theorem limits_grant (k : Kernel) {core : Option GoString} {i : Nat} (htarget : Target core i)
    {s : Settings} {ls : List (WithTop ℕ)} {r : Int} (hr : InInt r)
    (hls : s.limits core = some ls) :
    (s.grant k r core).limits core = some (ls.set i (limit r)) := by
  cases htarget with
  | whole =>
      obtain ⟨old, -, rfl⟩ := Option.map_eq_some_iff.mp hls
      rfl
  | cpu hcpu =>
      obtain ⟨es, hes, rfl⟩ := Option.map_eq_some_iff.mp hls
      show Option.map _ _ = _
      rw [entries_grant k hr hes, Option.map_some, List.map_set]

/-- Granting a runtime leaves the slots of the other CPUs alone. -/
theorem slot_grant (k : Kernel) {core : Option GoString} {i : Nat} (htarget : Target core i)
    (s : Settings) (r : Int) {j : Nat} (hj : core ≠ some (itoa j)) :
    (s.grant k r core).slot j = s.slot j := by
  cases htarget with
  | whole => rfl
  | cpu hcpu =>
      have hne : i ≠ j := by
        rintro rfl
        exact hj rfl
      have hslots : (s.grant k r (some (itoa i))).slots = s.slots.map (setSlots [i] (itoa r)) := by
        simp only [grant, k.cpulist_itoa, Option.getD_some]
      unfold slot
      rw [hslots]
      cases s.slots with
      | none => rfl
      | some words =>
          rw [Option.map_some, Option.bind_some, Option.bind_some, setSlots_singleton,
            List.getElem?_set_ne hne]

end Settings

/-! ## The rule -/

/-- Each limit of the container is at most that of the pod. -/
def LimitsLe (core : Option GoString) (v : Member → Settings) : Prop :=
  ∃ container pod, (v .container).limits core = some container ∧
    (v .pod).limits core = some pod ∧ List.Forall₂ (fun c p => c ≤ p) container pod

/-- The container is within the pod, and the slots of the CPUs that the request
does not name are those of `v`. -/
structure Kept (core : Option GoString) (v w : Member → Settings) : Prop where
  within : LimitsLe core w
  others : ∀ m (j : ℕ), core ≠ some (itoa j) → (w m).slot j = (v m).slot j

/-! ## The two stages -/

/-- The two writes, in the order given by the flag. -/
def runtimeOnlyPlan (k : Kernel) (r : Int) (core : Option GoString) (decreasing : Bool) :
    List ((Member → Settings) → Member → Settings) :=
  if decreasing then
    [onMember .container (Settings.grant k r core), onMember .pod (Settings.grant k r core)]
  else
    [onMember .pod (Settings.grant k r core), onMember .container (Settings.grant k r core)]

theorem requestPlan_runtimeOnly (k : Kernel) (current : Current) (p r : Int)
    (core : Option GoString) :
    requestPlan k current p r core true =
      runtimeOnlyPlan k r core (current.containerFirst p r core true) := by
  unfold requestPlan runtimeOnlyPlan
  cases current.containerFirst p r core true <;> rfl

section Stages

variable {k : Kernel} {core : Option GoString} {i : Nat} {r : Int}
  {v : Member → Settings} {cs ps : List (WithTop ℕ)}

theorem slot_onMember (htarget : Target core i) (m m' : Member) {j : Nat}
    (hj : core ≠ some (itoa j)) (w : Member → Settings) :
    (onMember m (Settings.grant k r core) w m').slot j = (w m').slot j := by
  by_cases hm : m' = m
  · subst hm
    rw [onMember_self, Settings.slot_grant k htarget _ r hj]
  · rw [onMember_of_ne hm]

/-- Setting one limit of the container to at most that of the pod. -/
theorem forall₂_set_left (hle : List.Forall₂ (fun c p => c ≤ p) cs ps) (hi : i < ps.length)
    {l : WithTop ℕ} (hl : l ≤ ps[i]) : List.Forall₂ (fun c p => c ≤ p) (cs.set i l) ps := by
  have hset := forall₂_set hle hl i
  rwa [List.set_getElem_self] at hset

/-- Setting one limit of the pod to at least that of the container. -/
theorem forall₂_set_right (hle : List.Forall₂ (fun c p => c ≤ p) cs ps) (hi : i < cs.length)
    {l : WithTop ℕ} (hl : cs[i] ≤ l) : List.Forall₂ (fun c p => c ≤ p) cs (ps.set i l) := by
  have hset := forall₂_set hle hl i
  rwa [List.set_getElem_self] at hset

/-- The order of the two writes: the child first if its new limit is below the
old one of the parent, and the parent first if it is not. -/
theorem runtimeOnlyPlan_safe (htarget : Target core i) (hr : InInt r)
    (hcontainer : (v .container).limits core = some cs) (hpod : (v .pod).limits core = some ps)
    (hle : List.Forall₂ (fun c p => c ≤ p) cs ps) (hi : i < ps.length) {decreasing : Bool}
    (hflag : decreasing = true ↔ limit r < ps[i]) :
    ∀ w ∈ stages (runtimeOnlyPlan k r core decreasing) v, Kept core v w := by
  have hi' : i < cs.length := by
    rw [hle.length_eq]
    exact hi
  have hcontainer' := Settings.limits_grant k htarget hr hcontainer
  have hpod' := Settings.limits_grant k htarget hr hpod
  have hstart : Kept core v v := ⟨⟨cs, ps, hcontainer, hpod, hle⟩, fun _ _ _ => rfl⟩
  have hboth : List.Forall₂ (fun c p => c ≤ p) (cs.set i (limit r)) (ps.set i (limit r)) :=
    forall₂_set hle (le_refl _) i
  cases decreasing with
  | true =>
      have hfirst : List.Forall₂ (fun c p => c ≤ p) (cs.set i (limit r)) ps :=
        forall₂_set_left hle hi (le_of_lt (hflag.mp rfl))
      intro w hw
      simp only [runtimeOnlyPlan, if_true, stages_cons, stages_nil, List.mem_cons,
        List.not_mem_nil, or_false] at hw
      rcases hw with rfl | rfl | rfl
      · exact hstart
      · refine ⟨⟨_, _, hcontainer', hpod, hfirst⟩, fun m j hj => ?_⟩
        rw [slot_onMember htarget _ _ hj]
      · refine ⟨⟨_, _, hcontainer', hpod', hboth⟩, fun m j hj => ?_⟩
        rw [slot_onMember htarget _ _ hj, slot_onMember htarget _ _ hj]
  | false =>
      have hge : ps[i] ≤ limit r := not_lt.mp fun hlt => nomatch hflag.mpr hlt
      have hfirst : List.Forall₂ (fun c p => c ≤ p) cs (ps.set i (limit r)) :=
        forall₂_set_right hle hi' (le_trans (hle.get hi' hi) hge)
      intro w hw
      simp only [runtimeOnlyPlan, Bool.false_eq_true, if_false, stages_cons, stages_nil,
        List.mem_cons, List.not_mem_nil, or_false] at hw
      rcases hw with rfl | rfl | rfl
      · exact hstart
      · refine ⟨⟨_, _, hcontainer, hpod', hfirst⟩, fun m j hj => ?_⟩
        rw [slot_onMember htarget _ _ hj]
      · refine ⟨⟨_, _, hcontainer', hpod', hboth⟩, fun m j hj => ?_⟩
        rw [slot_onMember htarget _ _ hj, slot_onMember htarget _ _ hj]

end Stages

/-! ## The flag that a request reads -/

theorem settingsAt_limits_none {files : Files} {cgPath : GoString} {ls : List (WithTop ℕ)}
    (h : (settingsAt files cgPath).limits none = some ls) :
    ∃ R, intAt files (join [cgPath, cgroupRTRuntime]) = some R ∧ ls = [limit R] := by
  obtain ⟨R, hR, rfl⟩ := Option.map_eq_some_iff.mp h
  exact ⟨R, hR, rfl⟩

theorem settingsAt_limits_some {files : Files} {cgPath core : GoString} {ls : List (WithTop ℕ)}
    (h : (settingsAt files cgPath).limits (some core) = some ls) :
    ∃ es, intsAt files (join [cgPath, cgroupRTMultiRuntime]) = some es ∧ ls = es.map limit := by
  obtain ⟨es, hes, rfl⟩ := Option.map_eq_some_iff.mp h
  rw [Settings.entries_settingsAt] at hes
  exact ⟨es, hes, rfl⟩

/-- The flag compares the new limit with the one of the pod that it is about to
replace. -/
theorem containerFirst_runtimeOnly_iff {host : Host} {files : Files}
    {containerID containerCgPath podCgPath : GoString} {p r : Int} {core : Option GoString}
    {i : Nat} {current : Current} {ps : List (WithTop ℕ)} (htarget : Target core i)
    (hread : Preflight host files containerID p core current)
    (hresolves : Resolves host containerID containerCgPath podCgPath)
    (hpod : (settingsAt files podCgPath).limits core = some ps) (hi : i < ps.length) :
    current.containerFirst p r core true = true ↔ limit r < ps[i] := by
  cases htarget with
  | whole =>
      obtain ⟨R, hR, rfl⟩ := settingsAt_limits_none hpod
      show isRuntimeDecrease current.podRuntime r = true ↔ _
      rw [hread.podRuntime_eq hresolves hR, isRuntimeDecrease_iff_limit]
      rfl
  | cpu hcpu =>
      obtain ⟨es, hes, rfl⟩ := settingsAt_limits_some hpod
      have hi' : i < es.length := by simpa using hi
      show isRuntimeDecrease current.podMultiRuntime r = true ↔ _
      rw [hread.podMultiRuntime_eq hresolves, multiRuntimeAt_itoa hes hcpu hi',
        isRuntimeDecrease_iff_limit, List.getElem_map]

namespace CgroupRequest

variable {k : Kernel} {host : Host} {req : CgroupRequest} {files : Files}
  {containerCgPath podCgPath : GoString}

/-- A request of the escalation mode, for the whole cgroup or for one CPU, from
a state in which the container is within the pod.  After every write, and in
the state in which the request stops for whatever reason, the container is
still within the pod, and the entries of the other CPUs are the old ones. -/
theorem limits_after_every_write {cs ps : List (WithTop ℕ)} {i : Nat}
    (hresolves : Resolves host req.containerID containerCgPath podCgPath)
    (hdistinct : components containerCgPath ≠ components podCgPath)
    (hmode : req.onlyRuntime = true) (htarget : Target req.core i) (hi : i < ps.length)
    (hcontainer : (settingsAt files containerCgPath).limits req.core = some cs)
    (hpod : (settingsAt files podCgPath).limits req.core = some ps)
    (hle : List.Forall₂ (fun c p => c ≤ p) cs ps) :
    req.AfterEveryWrite k host files (fun s =>
      Kept req.core (settingsOf (pairPath containerCgPath podCgPath) files)
        (settingsOf (pairPath containerCgPath podCgPath) s)) ∧
    Kept req.core (settingsOf (pairPath containerCgPath podCgPath) files)
      (settingsOf (pairPath containerCgPath podCgPath) (req.finish k host files)) := by
  have hplan : ∀ read, Preflight host files req.containerID req.period req.core read →
      requestPlan k read req.period req.runtime req.core req.onlyRuntime =
        runtimeOnlyPlan k req.runtime req.core (decide (limit req.runtime < ps[i])) := by
    intro read hread
    have hflag := containerFirst_runtimeOnly_iff (r := req.runtime) htarget hread hresolves
      hpod hi
    rw [hmode, requestPlan_runtimeOnly, Bool.eq_iff_iff.mpr (hflag.trans decide_eq_true_iff.symm)]
  have hsafe := runtimeOnlyPlan_safe (k := k)
    (v := settingsOf (pairPath containerCgPath podCgPath) files) htarget req.runtime_inInt
    hcontainer hpod hle hi (decide_eq_true_iff (p := limit req.runtime < ps[i]))
  constructor
  · exact (afterEveryWrite_of_stages hresolves hdistinct hplan
      (hsafe _ (mem_stages_self _ _))).1 hsafe
  · exact finish_of_stages hresolves hdistinct hplan hsafe

/-- A request of the escalation mode for CPU 0 of the sample container. -/
def sampleEscalation (runtime : Int) (hruntime : InInt runtime) : CgroupRequest :=
  { sampleCore runtime hruntime with onlyRuntime := true }

theorem limits_after_every_write_sample :
    (sampleEscalation 200000 inInt_sampleRuntime).AfterEveryWrite Kernel.permissive Host.sample
      (sampleFiles 1000000 0 "100000 -1") (fun s => Kept (some (itoa 0))
        (settingsOf (pairPath sampleContainerPath samplePodPath)
          (sampleFiles 1000000 0 "100000 -1"))
        (settingsOf (pairPath sampleContainerPath samplePodPath) s)) ∧
    Kept (some (itoa 0))
      (settingsOf (pairPath sampleContainerPath samplePodPath) (sampleFiles 1000000 0 "100000 -1"))
      (settingsOf (pairPath sampleContainerPath samplePodPath)
        ((sampleEscalation 200000 inInt_sampleRuntime).finish Kernel.permissive Host.sample
          (sampleFiles 1000000 0 "100000 -1"))) :=
  limits_after_every_write (i := 0) (resolves_sample _) components_sample_ne rfl
    (.cpu (by decide)) (by decide : 0 < [limit 100000, limit (-1)].length)
    (by decide +kernel : _ = some [limit 100000, limit (-1)]) (by decide +kernel)
    (.cons (le_refl _) (.cons (le_refl _) .nil))

end CgroupRequest

end NodeActuator
end McKube
