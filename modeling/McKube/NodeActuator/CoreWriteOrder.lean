import Mathlib.Data.List.Forall2
import McKube.NodeActuator.WriteOrder

/-!
# The entries of single cores during a request

For a request that names one core, the rule compares the entries of
`cpu.rt_multi_runtime_us` core by core.  `entries_after_every_write_iff` says
which of these requests keep the entries of the container within those of the
pod after every write.  The direction of the writes also looks at
`cpu.rt_runtime_us`, a file that such a request does not write: this is where
the rule can break.
-/

namespace McKube
namespace NodeActuator

open AtomicProgram GoLib
open GoLib.filepath (join components rootPath Plain)

/-! ## Lists of entries -/

theorem setSlots_singleton (i : Nat) (value : GoString) (slots : List GoString) :
    setSlots [i] value slots = slots.set i value := by
  apply List.ext_getElem?
  intro j
  rw [getElem?_setSlots, List.getElem?_set]
  by_cases hij : i = j
  · subst hij
    by_cases hi : i < slots.length
    · simp [hi]
    · simp [hi]
  · have hji : j ≠ i := fun h => hij h.symm
    simp [hij, hji]

/-- A list that is parsed word by word. -/
theorem mapM_eq_some_iff {α β : Type} {f : α → Option β} {as : List α} {bs : List β} :
    as.mapM f = some bs ↔ List.Forall₂ (fun a b => f a = some b) as bs := by
  induction as generalizing bs with
  | nil =>
      rw [List.mapM_nil, List.forall₂_nil_left_iff]
      constructor
      · intro h
        cases h
        rfl
      · rintro rfl
        rfl
  | cons a as ih =>
      rw [List.mapM_cons, List.forall₂_cons_left_iff]
      constructor
      · intro h
        obtain ⟨b, hb, hrest⟩ := Option.bind_eq_some_iff.mp h
        obtain ⟨bs', hbs', heq⟩ := Option.bind_eq_some_iff.mp hrest
        cases heq
        exact ⟨b, bs', hb, ih.mp hbs', rfl⟩
      · rintro ⟨b, bs', hb, hbs', rfl⟩
        simp [hb, ih.mpr hbs']

/-- Setting the same position on both sides to related values. -/
theorem forall₂_set {α β : Type} {R : α → β → Prop} {as : List α} {bs : List β}
    (h : List.Forall₂ R as bs) {a : α} {b : β} (hab : R a b) (i : Nat) :
    List.Forall₂ R (as.set i a) (bs.set i b) := by
  induction h generalizing i with
  | nil => exact .nil
  | cons hhead htail ih =>
      cases i with
      | zero => exact .cons hab htail
      | succ i => exact .cons hhead (ih i)

/-! ## The view -/

namespace Settings

/-- The runtimes of the cores. -/
def entries (s : Settings) : Option (List Int) := s.slots.bind fun words => words.mapM atoi

theorem entries_settingsAt (files : Files) (cgPath : GoString) :
    (settingsAt files cgPath).entries = intsAt files (join [cgPath, cgroupRTMultiRuntime]) := by
  unfold entries settingsAt intsAt
  cases files (join [cgPath, cgroupRTMultiRuntime]) <;> rfl

/-- Granting a runtime on one core sets its entry. -/
theorem entries_grant (k : Kernel) {s : Settings} {es : List Int} {r : Int} (hr : InInt r)
    (hes : s.entries = some es) (i : Nat) :
    (s.grant k r (some (itoa i))).entries = some (es.set i r) := by
  obtain ⟨words, hwords, hmap⟩ := Option.bind_eq_some_iff.mp hes
  have hslots : (s.grant k r (some (itoa i))).slots = some (words.set i (itoa r)) := by
    simp only [grant, hwords, Option.map_some, k.cpulist_itoa, Option.getD_some,
      setSlots_singleton]
  rw [entries, hslots, Option.bind_some, mapM_eq_some_iff]
  exact forall₂_set (mapM_eq_some_iff.mp hmap) (atoi_itoa hr) i

end Settings

/-- On every core the entry of the container is at most that of the pod. -/
def EntriesLe (v : Member → Settings) : Prop :=
  (do
    let container ← (v .container).entries
    let pod ← (v .pod).entries
    some (decide (List.Forall₂ (fun c p => c ≤ p) container pod))) = some true

instance (v : Member → Settings) : Decidable (EntriesLe v) :=
  inferInstanceAs (Decidable (_ = some true))

/-- The entries that `EntriesLe` looks at. -/
structure ShownEntries (v : Member → Settings) (container pod : List Int) : Prop where
  container : (v .container).entries = some container
  pod : (v .pod).entries = some pod

namespace ShownEntries

variable {v : Member → Settings} {cs ps : List Int}

theorem entriesLe_iff (h : ShownEntries v cs ps) :
    EntriesLe v ↔ List.Forall₂ (fun c p => c ≤ p) cs ps := by
  unfold EntriesLe
  rw [h.container, h.pod]
  simp only [Option.bind_eq_bind, Option.bind_some, Option.some.injEq, decide_eq_true_eq]

/-- A change that leaves the entries of one cgroup alone. -/
theorem of_entries_eq (h : ShownEntries v cs ps) (m : Member) {change : Settings → Settings}
    (hchange : ∀ s, (change s).entries = s.entries) : ShownEntries (onMember m change v) cs ps := by
  cases m
  · exact ⟨(hchange _).trans h.container, h.pod⟩
  · exact ⟨h.container, (hchange _).trans h.pod⟩

theorem setPeriod (h : ShownEntries v cs ps) (m : Member) (p : Int) :
    ShownEntries (onMember m (Settings.setPeriod p) v) cs ps :=
  h.of_entries_eq m fun _ => rfl

theorem pin (h : ShownEntries v cs ps) (m : Member) (core : GoString) :
    ShownEntries (onMember m (Settings.pin core) v) cs ps :=
  h.of_entries_eq m fun _ => rfl

theorem grantContainer (h : ShownEntries v cs ps) (k : Kernel) {r : Int} (hr : InInt r)
    (i : Nat) :
    ShownEntries (onMember .container (Settings.grant k r (some (itoa i))) v) (cs.set i r) ps :=
  ⟨Settings.entries_grant k hr h.container i, h.pod⟩

theorem grantPod (h : ShownEntries v cs ps) (k : Kernel) {r : Int} (hr : InInt r) (i : Nat) :
    ShownEntries (onMember .pod (Settings.grant k r (some (itoa i))) v) cs (ps.set i r) :=
  ⟨h.container, Settings.entries_grant k hr h.pod i⟩

end ShownEntries

/-! ## The stages of a change of one core -/

/-- Container before pod, and in each the runtime first. -/
def coreDecreasePlan (k : Kernel) (p r : Int) (core : GoString) :
    List ((Member → Settings) → Member → Settings) :=
  [onMember .container (Settings.grant k r (some core)),
    onMember .container (Settings.setPeriod p), onMember .container (Settings.pin core),
    onMember .pod (Settings.grant k r (some core)),
    onMember .pod (Settings.setPeriod p), onMember .pod (Settings.pin core)]

/-- Pod before container, and in each the period first. -/
def coreIncreasePlan (k : Kernel) (p r : Int) (core : GoString) :
    List ((Member → Settings) → Member → Settings) :=
  [onMember .pod (Settings.setPeriod p), onMember .pod (Settings.grant k r (some core)),
    onMember .pod (Settings.pin core), onMember .container (Settings.setPeriod p),
    onMember .container (Settings.grant k r (some core)),
    onMember .container (Settings.pin core)]

theorem requestPlan_core (k : Kernel) (current : Current) {p r : Int} (hr : 0 ≤ r)
    (core : GoString) :
    requestPlan k current p r (some core) false =
      if isRuntimeDecrease current.podRuntime r || isDecrease current.podPeriod p ||
          isRuntimeDecrease current.podMultiRuntime r then
        coreDecreasePlan k p r core
      else
        coreIncreasePlan k p r core := by
  have hflag : current.containerFirst p r (some core) false =
      (isRuntimeDecrease current.podRuntime r || isDecrease current.podPeriod p ||
        isRuntimeDecrease current.podMultiRuntime r) := by
    simp [Current.containerFirst]
  have hmax : max r 0 = r := by omega
  unfold requestPlan memberPlan writtenRuntime
  rw [hflag, if_neg Bool.false_ne_true, hmax]
  cases isRuntimeDecrease current.podRuntime r || isDecrease current.podPeriod p ||
    isRuntimeDecrease current.podMultiRuntime r
  · rfl
  · rfl

section Core

variable {k : Kernel} {v : Member → Settings} {cs ps : List Int} {p r : Int} {i : Nat}

theorem coreDecreasePlan_safe_iff (h : ShownEntries v cs ps)
    (hle : List.Forall₂ (fun c p => c ≤ p) cs ps) (hr : InInt r) (hi : i < ps.length) :
    (∀ w ∈ stages (coreDecreasePlan k p r (itoa i)) v, EntriesLe w) ↔ r ≤ ps[i] := by
  have hi' : i < (cs.set i r).length := by
    rw [List.length_set, hle.length_eq]
    exact hi
  have h₁ := h.grantContainer k hr i
  have h₂ := h₁.setPeriod .container p
  have h₃ := h₂.pin .container (itoa i)
  have h₄ := h₃.grantPod k hr i
  have h₅ := h₄.setPeriod .pod p
  have h₆ := h₅.pin .pod (itoa i)
  have hboth : List.Forall₂ (fun c p => c ≤ p) (cs.set i r) (ps.set i r) :=
    forall₂_set hle (le_refl r) i
  -- of the six stages only those between the two grants can break the rule
  have hfirst : List.Forall₂ (fun c p => c ≤ p) (cs.set i r) ps ↔ r ≤ ps[i] := by
    constructor
    · intro hset
      have hentry : (cs.set i r)[i] ≤ ps[i] := hset.get hi' hi
      rwa [List.getElem_set_self] at hentry
    · intro hentry
      have hset := forall₂_set hle hentry i
      rwa [List.set_getElem_self] at hset
  simp only [coreDecreasePlan, stages_cons, stages_nil, List.forall_mem_cons, List.not_mem_nil,
    false_implies, implies_true, and_true, h.entriesLe_iff, h₁.entriesLe_iff, h₂.entriesLe_iff,
    h₃.entriesLe_iff, h₄.entriesLe_iff, h₅.entriesLe_iff, h₆.entriesLe_iff, hle, hboth, hfirst,
    true_and, and_self]

theorem coreIncreasePlan_safe (h : ShownEntries v cs ps)
    (hle : List.Forall₂ (fun c p => c ≤ p) cs ps) (hr : InInt r) (hi : i < ps.length)
    (hincrease : ps[i] ≤ r) :
    ∀ w ∈ stages (coreIncreasePlan k p r (itoa i)) v, EntriesLe w := by
  have hi' : i < cs.length := by rw [hle.length_eq]; exact hi
  have h₁ := h.setPeriod .pod p
  have h₂ := h₁.grantPod k hr i
  have h₃ := h₂.pin .pod (itoa i)
  have h₄ := h₃.setPeriod .container p
  have h₅ := h₄.grantContainer k hr i
  have h₆ := h₅.pin .container (itoa i)
  have hboth : List.Forall₂ (fun c p => c ≤ p) (cs.set i r) (ps.set i r) :=
    forall₂_set hle (le_refl r) i
  have hpod : List.Forall₂ (fun c p => c ≤ p) cs (ps.set i r) := by
    have hentry : cs[i] ≤ r := by
      have hcore : cs[i] ≤ ps[i] := hle.get hi' hi
      omega
    have hset := forall₂_set hle hentry i
    rwa [List.set_getElem_self] at hset
  simp only [coreIncreasePlan, stages_cons, stages_nil, List.forall_mem_cons, List.not_mem_nil,
    false_implies, implies_true, h.entriesLe_iff, h₁.entriesLe_iff, h₂.entriesLe_iff,
    h₃.entriesLe_iff, h₄.entriesLe_iff, h₅.entriesLe_iff, h₆.entriesLe_iff, hle, hboth, hpod,
    and_self]

end Core

/-- The entry that the preflight checks read for a single core. -/
theorem multiRuntimeAt_itoa {files : Files} {cgPath : GoString} {es : List Int} {i : Nat}
    (hes : intsAt files (join [cgPath, cgroupRTMultiRuntime]) = some es) (hcpu : InInt i)
    (hi : i < es.length) : multiRuntimeAt files cgPath (some (itoa i)) = es[i] := by
  obtain ⟨data, hfile, hmap⟩ := Option.bind_eq_some_iff.mp hes
  have hwords := mapM_eq_some_iff.mp hmap
  have hlength : (fields data).length = es.length := hwords.length_eq
  have hi' : i < (fields data).length := by omega
  have hentry : atoi (fields data)[i] = some es[i] := hwords.get hi' hi
  unfold multiRuntimeAt multiRuntimeOf
  rw [hfile]
  simp only [fields_trimSpace, atoi_itoa hcpu, Int.toNat_natCast, List.getElem?_eq_getElem hi',
    Option.bind_some, hentry]
  rw [if_neg (by omega)]

namespace CgroupRequest

variable {k : Kernel} {host : Host} {req : CgroupRequest} {files : Files}
  {containerCgPath podCgPath : GoString}

/-- In which order a change of one core is written: the direction looks at `G`,
which the request does not write. -/
theorem requestPlan_core_of_preflight (k : Kernel) {P G : Int} {ps : List Int} {i : Nat}
    (hresolves : Resolves host req.containerID containerCgPath podCgPath)
    (hcore : req.core = some (itoa i)) (hmode : req.onlyRuntime = false)
    (hcpu : InInt i) (hi : i < ps.length) (hP : req.period = P) (hr : 0 ≤ req.runtime)
    (hperiod : intAt files (join [podCgPath, cgroupRTPeriod]) = some P)
    (hG : intAt files (join [podCgPath, cgroupRTRuntime]) = some G)
    (hpod : intsAt files (join [podCgPath, cgroupRTMultiRuntime]) = some ps)
    (hentry : 0 ≤ ps[i]) :
    ∀ read, Preflight host files req.containerID req.period req.core read →
      requestPlan k read req.period req.runtime req.core req.onlyRuntime =
        if G < 0 ∨ req.runtime < G ∨ req.runtime < ps[i] then
          coreDecreasePlan k req.period req.runtime (itoa i)
        else
          coreIncreasePlan k req.period req.runtime (itoa i) := by
  intro read hread
  have hreadMulti : read.podMultiRuntime = ps[i] := by
    rw [hread.podMultiRuntime_eq hresolves, hcore]
    exact multiRuntimeAt_itoa hpod hcpu hi
  have hflag : (isRuntimeDecrease read.podRuntime req.runtime ||
      isDecrease read.podPeriod req.period ||
      isRuntimeDecrease read.podMultiRuntime req.runtime) = true ↔
      G < 0 ∨ req.runtime < G ∨ req.runtime < ps[i] := by
    rw [hread.podPeriod_eq hresolves hperiod, hread.podRuntime_eq hresolves hG, hreadMulti,
      hP, Bool.or_eq_true, Bool.or_eq_true, isRuntimeDecrease_iff hentry, isDecrease,
      decide_eq_true_eq]
    unfold isRuntimeDecrease
    rw [if_neg (by omega)]
    split
    · simp only [true_or, true_iff]
      omega
    · rw [decide_eq_true_eq]
      omega
  rw [hcore, hmode, requestPlan_core k read hr]
  simp only [hflag]

/-- A change of one core, from a state in which the container is within the
pod on every core.  With `G` in the pod's `cpu.rt_runtime_us`, a request that
does not raise the entry of the pod, or whose runtime is at least `G` and `G`
is not negative, keeps the rule after every write; every other request that is
carried out to its end breaks it on the way. -/
theorem entries_after_every_write_iff {P G : Int} {cs ps : List Int} {i : Nat}
    (hresolves : Resolves host req.containerID containerCgPath podCgPath)
    (hdistinct : components containerCgPath ≠ components podCgPath)
    (hcore : req.core = some (itoa i)) (hmode : req.onlyRuntime = false)
    (hcpu : InInt i) (hi : i < ps.length) (hP : req.period = P) (hr : 0 ≤ req.runtime)
    (hperiod : ∀ m, intAt files (join [pairPath containerCgPath podCgPath m, cgroupRTPeriod]) =
      some P)
    (hG : intAt files (join [podCgPath, cgroupRTRuntime]) = some G)
    (hcontainer : intsAt files (join [containerCgPath, cgroupRTMultiRuntime]) = some cs)
    (hpod : intsAt files (join [podCgPath, cgroupRTMultiRuntime]) = some ps)
    (hnonneg : ∀ e ∈ ps, 0 ≤ e) (hle : List.Forall₂ (fun c p => c ≤ p) cs ps) :
    (req.runtime ≤ ps[i] ∨ (0 ≤ G ∧ G ≤ req.runtime) → req.AfterEveryWrite k host files
      fun s => EntriesLe (settingsOf (pairPath containerCgPath podCgPath) s)) ∧
    (req.Succeeds k host files → req.AfterEveryWrite k host files
      (fun s => EntriesLe (settingsOf (pairPath containerCgPath podCgPath) s)) →
      req.runtime ≤ ps[i] ∨ (0 ≤ G ∧ G ≤ req.runtime)) := by
  have hentry : 0 ≤ ps[i] := hnonneg _ (List.getElem_mem hi)
  have hshown : ShownEntries (settingsOf (pairPath containerCgPath podCgPath) files) cs ps := by
    constructor
    · exact (Settings.entries_settingsAt files containerCgPath).trans hcontainer
    · exact (Settings.entries_settingsAt files podCgPath).trans hpod
  have hstart : EntriesLe (settingsOf (pairPath containerCgPath podCgPath) files) :=
    hshown.entriesLe_iff.mpr hle
  have hplan := requestPlan_core_of_preflight k hresolves hcore hmode hcpu hi hP hr (hperiod .pod)
    hG hpod hentry
  obtain ⟨hkeep, hbreak⟩ := afterEveryWrite_of_stages hresolves hdistinct hplan hstart
  have hdecrease := coreDecreasePlan_safe_iff (k := k) (p := req.period) hshown hle
    req.runtime_inInt hi
  constructor
  · intro hsafe
    apply hkeep
    split
    · exact hdecrease.mpr (by omega)
    · exact coreIncreasePlan_safe hshown hle req.runtime_inInt hi (by omega)
  · intro hok hwrites
    have hstages := hbreak hok hwrites
    split at hstages
    · exact Or.inl (hdecrease.mp hstages)
    · omega

/-- A request for CPU 0 of the sample container. -/
def sampleCore (runtime : Int) (hruntime : InInt runtime) : CgroupRequest where
  containerID := "containerd://1f"
  period := 1000000
  runtime := runtime
  core := some (itoa 0)
  onlyRuntime := false
  period_inInt := inInt_samplePeriod
  runtime_inInt := hruntime

theorem entries_after_every_write_iff_sample :
    (sampleCore 200000 (by decide)).AfterEveryWrite Kernel.permissive Host.sample
      (sampleFiles 1000000 50000 "100000 0")
      fun s => EntriesLe (settingsOf (pairPath sampleContainerPath samplePodPath) s) :=
  (entries_after_every_write_iff (i := 0) (G := 50000) (P := 1000000) (resolves_sample _)
    components_sample_ne rfl rfl (by decide)
    (by decide : 0 < ([100000, 0] : List Int).length) rfl (by decide)
    (fun m => by cases m <;> decide +kernel) (by decide +kernel)
    (by decide +kernel : intsAt (sampleFiles 1000000 50000 "100000 0")
      (join [sampleContainerPath, cgroupRTMultiRuntime]) = some [100000, 0])
    (by decide +kernel) (by decide) (by decide)).1 (by decide)

/-- With 0.5 s in the pod's `cpu.rt_runtime_us`, raising the runtime of CPU 0
from 0.1 s to 0.2 s writes the container first. -/
theorem entries_after_every_write_fails :
    (sampleCore 200000 (by decide)).Accepted ∧
    Resolves Host.sample (sampleCore 200000 (by decide)).containerID
      sampleContainerPath samplePodPath ∧
    (∀ m, intAt (sampleFiles 1000000 500000 "100000 0")
        (join [pairPath sampleContainerPath samplePodPath m, cgroupRTPeriod]) = some 1000000 ∧
      intsAt (sampleFiles 1000000 500000 "100000 0")
        (join [pairPath sampleContainerPath samplePodPath m, cgroupRTMultiRuntime]) =
          some [100000, 0]) ∧
    ¬ (sampleCore 200000 (by decide)).AfterEveryWrite Kernel.permissive Host.sample
      (sampleFiles 1000000 500000 "100000 0")
      fun s => EntriesLe (settingsOf (pairPath sampleContainerPath samplePodPath) s) := by
  refine ⟨by decide, resolves_sample _, fun m => ?_, by decide +kernel⟩
  cases m <;> decide +kernel

end CgroupRequest

end NodeActuator
end McKube
