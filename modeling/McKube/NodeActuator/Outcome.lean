import McKube.NodeActuator.FileTargets

/-!
# What a successful request has done

If `applyCgroup` returns no error, the files of the two cgroups show the
requested values and no other file has changed, whatever the files showed
before (`apply_reaches_request`).  The proof does not look at the order of
the writes: every successful path passes a point at which a file shows its
value (`establishes_*`), and no later action of the request destroys it.
-/

namespace McKube
namespace NodeActuator

open AtomicProgram GoLib
open GoLib.filepath (join components rootPath Plain)

namespace CgroupRequest

variable {k : Kernel} {host : Host} {req : CgroupRequest}
  {containerCgPath podCgPath cgPath name : GoString} {P : GoString → Prop}

/-- The runtime that ends up in the files. -/
def grantedRuntime (req : CgroupRequest) : Int := writtenRuntime req.runtime req.onlyRuntime

theorem inInt_grantedRuntime (req : CgroupRequest) : InInt req.grantedRuntime :=
  inInt_writtenRuntime req.runtime_inInt req.onlyRuntime

/-! ## The value of each file -/

theorem establishes_period (hpaths : Resolves host req.containerID containerCgPath podCgPath)
    (hcgroup : cgPath = containerCgPath ∨ cgPath = podCgPath)
    (hmode : req.onlyRuntime = false) :
    Program.Establishes k.exec (OnFile (join [cgPath, cgroupRTPeriod]) (Shows req.period))
      Fallible.Succeeded (req.apply host).run := by
  refine establishes_applyCgroup hpaths hcgroup fun current => ?_
  rw [hmode]
  exact establishes_writeRtValues (Or.inr (Or.inl
    (establishes_updatePeriod (hpaths.rooted_of hcgroup) req.period_inInt)))

theorem establishes_cpuSet (hpaths : Resolves host req.containerID containerCgPath podCgPath)
    (hcgroup : cgPath = containerCgPath ∨ cgPath = podCgPath)
    (hmode : req.onlyRuntime = false) {cpus : GoString} (hcore : req.core = some cpus) :
    Program.Establishes k.exec
      (OnFile (join [cgPath, cgroupCPUSet]) fun content => trimSpace content = trimSpace cpus)
      Fallible.Succeeded (req.apply host).run := by
  refine establishes_applyCgroup hpaths hcgroup fun current => ?_
  rw [hmode, hcore]
  exact establishes_writeRtValues
    (Or.inr (Or.inr (establishes_updateCpuSet (hpaths.rooted_of hcgroup) cpus)))

/-- Both modes write the runtime, whatever a write of it leaves. -/
theorem establishes_runtime (hpaths : Resolves host req.containerID containerCgPath podCgPath)
    (hcgroup : cgPath = containerCgPath ∨ cgPath = podCgPath)
    (hnew : ∀ old new, k.stored (join [cgPath, runtimeFile req.core]) old
      (runtimeText req.grantedRuntime req.core) = some new → P new) :
    Program.Establishes k.exec (OnFile (join [cgPath, runtimeFile req.core]) P)
      Fallible.Succeeded (req.apply host).run := by
  refine establishes_applyCgroup hpaths hcgroup fun current => ?_
  unfold grantedRuntime at hnew
  cases hmode : req.onlyRuntime with
  | true =>
      rw [hmode] at hnew
      exact establishes_writeRuntimeFile hnew
  | false =>
      rw [hmode, writtenRuntime, if_neg Bool.false_ne_true, ← clampRuntime_eq_max] at hnew
      exact establishes_writeRtValues (Or.inl (establishes_writeRuntimeFile hnew))

/-! ## The state after a run -/

section Run

variable {files : Files}

/-- The state in which a run of the request ends. -/
def finish (k : Kernel) (host : Host) (req : CgroupRequest) (files : Files) : Files :=
  (Program.run k.exec (req.apply host).run files).2

/-- The request returns no error. -/
def Succeeds (k : Kernel) (host : Host) (req : CgroupRequest) (files : Files) : Prop :=
  (Program.run k.exec (req.apply host).run files).1 = .ok ()

instance (k : Kernel) (host : Host) (req : CgroupRequest) (files : Files) :
    Decidable (req.Succeeds k host files) :=
  inferInstanceAs (Decidable ((Program.run k.exec (req.apply host).run files).1 = .ok ()))

/-- What a request establishes of a file, and leaves there by every write of
its one text, holds at the end of a successful run. -/
theorem onFile_finish (hpaths : Resolves host req.containerID containerCgPath podCgPath)
    (hcgroup : cgPath = containerCgPath ∨ cgPath = podCgPath) {value : GoString}
    (hvalue : (name, value) ∈ controlWrites req.period req.runtime req.core req.onlyRuntime)
    (hnew : ∀ old new, k.stored (join [cgPath, name]) old value = some new → P new)
    (hestablishes : Program.Establishes k.exec (OnFile (join [cgPath, name]) P)
      Fallible.Succeeded (req.apply host).run)
    (hok : req.Succeeds k host files) :
    OnFile (join [cgPath, name]) P (req.finish k host files) := by
  refine hestablishes.run (performs_apply hpaths) (fun op hop s hs => ?_) ?_
  · refine onFile_of_requestAction hpaths.rooted.1 hpaths.rooted.2 (hpaths.rooted_of hcgroup)
      (mem_controlFiles_of_mem_controlWrites hvalue) ?_ hop hs
    intro value' hvalue' old new _ hstored
    rw [controlWrites_unique hvalue' hvalue] at hstored
    exact hnew old new hstored
  · rw [hok]
    trivial

/-- No request changes a file that it does not write. -/
theorem finish_eq_of_ne (hpaths : Resolves host req.containerID containerCgPath podCgPath)
    {path : GoString}
    (hpath : ∀ cgPath, cgPath = containerCgPath ∨ cgPath = podCgPath →
      ∀ name ∈ writtenNames req.core req.onlyRuntime, path ≠ join [cgPath, name]) :
    req.finish k host files path = files path := by
  refine (performs_apply hpaths).run_invariant (I := fun s : Files => s path = files path)
    (fun op hop s hs => ?_) rfl
  refine Eq.trans ?_ hs
  cases op with
  | stat path' => rw [k.exec_stat_state]
  | readFile path' => rw [k.exec_readFile_state]
  | writeFile path' value =>
      apply k.exec_writeFile_other
      rcases hop with hshared | ⟨name, hmem, rfl⟩ | ⟨name, hmem, rfl⟩
      · exact hshared.elim
      · exact hpath _ (Or.inl rfl) name (mem_writtenNames hmem)
      · exact hpath _ (Or.inr rfl) name (mem_writtenNames hmem)

theorem mem_controlWrites_period (hmode : req.onlyRuntime = false) :
    (cgroupRTPeriod, itoa req.period) ∈
      controlWrites req.period req.runtime req.core req.onlyRuntime := by
  simp [controlWrites, hmode]

theorem mem_controlWrites_runtime (hcore : req.core = none) :
    (cgroupRTRuntime, itoa req.grantedRuntime) ∈
      controlWrites req.period req.runtime req.core req.onlyRuntime := by
  simp [controlWrites, hcore, runtimeFile, runtimeText, grantedRuntime]

/-- The text that a request for some CPUs writes to `cpu.rt_multi_runtime_us`. -/
theorem mem_controlWrites_multiRuntime {cpus : GoString} (hcore : req.core = some cpus) :
    (cgroupRTMultiRuntime, cpus ++ ' ' :: itoa req.grantedRuntime) ∈
      controlWrites req.period req.runtime req.core req.onlyRuntime := by
  simp [controlWrites, hcore, runtimeFile, runtimeText, grantedRuntime]

theorem mem_controlWrites_cpuSet (hmode : req.onlyRuntime = false) {cpus : GoString}
    (hcore : req.core = some cpus) :
    (cgroupCPUSet, cpus) ∈ controlWrites req.period req.runtime req.core req.onlyRuntime := by
  simp [controlWrites, hmode, hcore]

theorem intAt_period_finish
    (hpaths : Resolves host req.containerID containerCgPath podCgPath)
    (hcgroup : cgPath = containerCgPath ∨ cgPath = podCgPath)
    (hmode : req.onlyRuntime = false) (hok : req.Succeeds k host files) :
    intAt (req.finish k host files) (join [cgPath, cgroupRTPeriod]) = some req.period := by
  have hnew : ∀ old new, k.stored (join [cgPath, cgroupRTPeriod]) old (itoa req.period) =
      some new → Shows req.period new :=
    shows_of_stored (hpaths.rooted_of hcgroup) (by decide) (by decide) req.period_inInt
  apply onFile_shows.mp
  exact onFile_finish hpaths hcgroup (mem_controlWrites_period hmode) hnew
    (establishes_period hpaths hcgroup hmode) hok

theorem intAt_runtime_finish
    (hpaths : Resolves host req.containerID containerCgPath podCgPath)
    (hcgroup : cgPath = containerCgPath ∨ cgPath = podCgPath)
    (hcore : req.core = none) (hok : req.Succeeds k host files) :
    intAt (req.finish k host files) (join [cgPath, cgroupRTRuntime]) =
      some req.grantedRuntime := by
  have hnew : ∀ old new, k.stored (join [cgPath, cgroupRTRuntime]) old
      (itoa req.grantedRuntime) = some new → Shows req.grantedRuntime new :=
    shows_of_stored (hpaths.rooted_of hcgroup) (by decide) (by decide) req.inInt_grantedRuntime
  have hestablishes := establishes_runtime (k := k) (P := Shows req.grantedRuntime)
    hpaths hcgroup
  rw [hcore] at hestablishes
  apply onFile_shows.mp
  exact onFile_finish hpaths hcgroup (mem_controlWrites_runtime hcore) hnew
    (hestablishes hnew) hok

theorem cpuSet_finish (hpaths : Resolves host req.containerID containerCgPath podCgPath)
    (hcgroup : cgPath = containerCgPath ∨ cgPath = podCgPath)
    (hmode : req.onlyRuntime = false) {cpus : GoString} (hcore : req.core = some cpus)
    (hok : req.Succeeds k host files) :
    ∃ content, req.finish k host files (join [cgPath, cgroupCPUSet]) = some content ∧
      trimSpace content = trimSpace cpus := by
  exact onFile_finish hpaths hcgroup (mem_controlWrites_cpuSet hmode hcore)
    (fun old new => trimSpace_of_stored (hpaths.rooted_of hcgroup))
    (establishes_cpuSet hpaths hcgroup hmode hcore) hok

/-- The named slots hold the runtime at the end. -/
theorem slots_finish_of_mem
    (hpaths : Resolves host req.containerID containerCgPath podCgPath)
    (hcgroup : cgPath = containerCgPath ∨ cgPath = podCgPath)
    {cpus : GoString} (hcore : req.core = some cpus) (hok : req.Succeeds k host files) :
    OnFile (join [cgPath, cgroupRTMultiRuntime])
      (fun content => ∃ named, k.cpulist cpus = some named ∧
        SlotsShow named req.grantedRuntime content) (req.finish k host files) := by
  have hnew : ∀ old new, k.stored (join [cgPath, cgroupRTMultiRuntime]) old
      (cpus ++ ' ' :: itoa req.grantedRuntime) = some new →
      ∃ named, k.cpulist cpus = some named ∧ SlotsShow named req.grantedRuntime new := by
    intro old new hstored
    rw [k.stored_multiRuntime (hpaths.rooted_of hcgroup)] at hstored
    obtain ⟨named, hnamed, hbound, hfields⟩ := k.multiRuntime_eq_some hstored
    refine ⟨named, hnamed, fun i hi => ?_⟩
    have hlt : i < (fields old).length := hbound i hi
    have hslot : (fields old)[i]? = some (fields old)[i] := List.getElem?_eq_getElem hlt
    rw [hfields, getElem?_setSlots, hslot, Option.map_some, if_pos hi]
  have hestablishes := establishes_runtime (k := k)
    (P := fun content => ∃ named, k.cpulist cpus = some named ∧
      SlotsShow named req.grantedRuntime content) hpaths hcgroup
  rw [hcore] at hestablishes
  exact onFile_finish hpaths hcgroup (mem_controlWrites_multiRuntime hcore) hnew
    (hestablishes hnew) hok

/-- A request leaves the slots alone that its core list does not name. -/
theorem slotAt_finish_of_not_mem
    (hpaths : Resolves host req.containerID containerCgPath podCgPath)
    (hcgroup : cgPath = containerCgPath ∨ cgPath = podCgPath)
    {cpus : GoString} (hcore : req.core = some cpus) {named : List Nat}
    (hnamed : k.cpulist cpus = some named) {i : Nat} (hi : i ∉ named) :
    slotAt (req.finish k host files) (join [cgPath, cgroupRTMultiRuntime]) i =
      slotAt files (join [cgPath, cgroupRTMultiRuntime]) i := by
  -- the invariant compares the slot with the one at the start
  refine (performs_apply hpaths).run_invariant
    (I := fun s : Files => slotAt s (join [cgPath, cgroupRTMultiRuntime]) i =
      slotAt files (join [cgPath, cgroupRTMultiRuntime]) i) (fun op hop s hs => ?_) rfl
  refine Eq.trans ?_ hs
  have hname : cgroupRTMultiRuntime ∈ controlFiles := by decide
  rcases requestAction_cases (k := k) hpaths.rooted.1 hpaths.rooted.2
      (hpaths.rooted_of hcgroup) hname hop s with
    hsame | ⟨value, old, new, hvalue, hold, hstored, hnew⟩
  · simp only [slotAt, hsame]
  · rw [controlWrites_unique hvalue (mem_controlWrites_multiRuntime hcore),
      k.stored_multiRuntime (hpaths.rooted_of hcgroup)] at hstored
    obtain ⟨named', hnamed', -, hfields⟩ := k.multiRuntime_eq_some hstored
    obtain rfl : named = named' := Option.some.inj (hnamed.symm.trans hnamed')
    have hslot : (fields new)[i]? = (fields old)[i]? := by
      rw [hfields, getElem?_setSlots]
      simp [hi]
    simp only [slotAt, hnew, hold, Option.bind_some, hslot]

end Run

/-! ## The requested state -/

/-- One cgroup shows what the request asked for. -/
structure Reached (k : Kernel) (req : CgroupRequest) (before after : Files)
    (cgPath : GoString) : Prop where
  period : req.onlyRuntime = false →
    intAt after (join [cgPath, cgroupRTPeriod]) = some req.period
  runtime : req.core = none →
    intAt after (join [cgPath, cgroupRTRuntime]) = some req.grantedRuntime
  slots : ∀ core, req.core = some core → ∃ named, k.cpulist core = some named ∧ ∀ i,
    slotAt after (join [cgPath, cgroupRTMultiRuntime]) i =
      if i ∈ named then some (itoa req.grantedRuntime)
      else slotAt before (join [cgPath, cgroupRTMultiRuntime]) i
  cpuSet : req.onlyRuntime = false → ∀ core, req.core = some core →
    ∃ content, after (join [cgPath, cgroupCPUSet]) = some content ∧
      trimSpace content = trimSpace core

/-- A request that returns no error has reached the requested state in both
cgroups, from whatever state, and changed nothing else. -/
theorem apply_reaches_request {files : Files}
    (hpaths : Resolves host req.containerID containerCgPath podCgPath)
    (hok : req.Succeeds k host files) :
    (∀ cgPath, cgPath = containerCgPath ∨ cgPath = podCgPath →
      Reached k req files (req.finish k host files) cgPath ∧
      (req.onlyRuntime = true → ∀ name ∈ [cgroupRTPeriod, cgroupCPUSet],
        req.finish k host files (join [cgPath, name]) = files (join [cgPath, name]))) ∧
    ∀ path, (∀ cgPath, cgPath = containerCgPath ∨ cgPath = podCgPath →
        ∀ name ∈ writtenNames req.core req.onlyRuntime, path ≠ join [cgPath, name]) →
      req.finish k host files path = files path := by
  refine ⟨fun cgPath hcgroup => ⟨?_, ?_⟩, fun path hpath => finish_eq_of_ne hpaths hpath⟩
  · constructor
    · exact fun hmode => intAt_period_finish hpaths hcgroup hmode hok
    · exact fun hcore => intAt_runtime_finish hpaths hcgroup hcore hok
    · intro core hcore
      obtain ⟨content, hfile, named, hnamed, hslots⟩ :=
        slots_finish_of_mem hpaths hcgroup hcore hok
      refine ⟨named, hnamed, fun i => ?_⟩
      by_cases hi : i ∈ named
      · rw [if_pos hi, slotAt, hfile]
        exact hslots i hi
      · rw [if_neg hi]
        exact slotAt_finish_of_not_mem hpaths hcgroup hcore hnamed hi
    · exact fun hmode core hcore => cpuSet_finish hpaths hcgroup hmode hcore hok
  · -- in this mode the request writes the runtime file and no other
    intro hmode name hname
    apply finish_eq_of_ne hpaths
    intro cgPath' hcgroup' name' hname'
    have hname'' : name' = runtimeFile req.core := by
      simpa [writtenNames, hmode] using hname'
    refine join_ne_join (hpaths.rooted_of hcgroup) (hpaths.rooted_of hcgroup') ?_
      (writtenNames_subset _ _ hname') ?_
    · exact (by decide : [cgroupRTPeriod, cgroupCPUSet] ⊆ controlFiles) hname
    · rw [hname'']
      cases req.core
      · exact (by decide : ∀ n ∈ [cgroupRTPeriod, cgroupCPUSet], n ≠ cgroupRTRuntime) name hname
      · exact (by decide : ∀ n ∈ [cgroupRTPeriod, cgroupCPUSet], n ≠ cgroupRTMultiRuntime)
          name hname

/-- A request for the whole of the sample container. -/
def sampleBudget (period runtime : Int) (hperiod : InInt period) (hruntime : InInt runtime) :
    CgroupRequest where
  containerID := "containerd://1f"
  period := period
  runtime := runtime
  core := none
  onlyRuntime := false
  period_inInt := hperiod
  runtime_inInt := hruntime

/-- The period and the runtime of most requests on fixed inputs. -/
theorem inInt_samplePeriod : InInt 1000000 := by decide

theorem inInt_sampleRuntime : InInt 200000 := by decide

/-- A request that moves the sample container to CPU 1. -/
def sample : CgroupRequest where
  containerID := "containerd://1f"
  period := 500000
  runtime := 200000
  core := some "1"
  onlyRuntime := false
  period_inInt := by decide
  runtime_inInt := inInt_sampleRuntime

theorem apply_reaches_request_sample :
    Reached Kernel.permissive sample (sampleFiles 1000000 100000 "100000 0")
      (sample.finish Kernel.permissive Host.sample (sampleFiles 1000000 100000 "100000 0"))
      samplePodPath :=
  ((apply_reaches_request (resolves_sample _) (by decide +kernel)).1 samplePodPath
    (Or.inr rfl)).1

end CgroupRequest

end NodeActuator
end McKube
