import McKube.NodeActuator.Footprint

/-!
# What the writes of a request leave in a file

For each control file there is one text that a request can write to it, on
whichever of its two cgroups.  This module says which, what the file shows
after a successful write of that text, and that a successful call of
`applyCgroup` has passed, for each file, a point at which the file showed it
(`establishes_period`, `establishes_runtime`, `establishes_slots`,
`establishes_cpuSet`).
-/

namespace McKube
namespace NodeActuator

open AtomicProgram GoLib
open GoLib.filepath (join components rootPath Plain)

/-! ## The paths of control files -/

/-- A rooted path, such as every path under `/sys/fs/cgroup`. -/
def Rooted (path : GoString) : Prop := hasPrefix path ['/'] = true

instance (path : GoString) : Decidable (Rooted path) :=
  inferInstanceAs (Decidable (hasPrefix path ['/'] = true))

theorem rooted_rootPath (cs : List GoString) : Rooted (rootPath cs) :=
  filepath.hasPrefix_rootPath cs

section Paths

variable {cgPath cgPath' name name' : GoString}

theorem components_join (hrooted : Rooted cgPath) (hname : name ∈ controlFiles) :
    components (join [cgPath, name]) = components cgPath ++ [name] := by
  have hplain := plain_of_mem_controlFiles hname
  rw [filepath.join_rooted hrooted hplain, filepath.components_rootPath]
  intro c hc
  rcases List.mem_append.mp hc with hold | hnew
  · exact filepath.plain_of_mem_components hold
  · rw [List.mem_singleton.mp hnew]
    exact hplain

/-- The path of a control file determines the cgroup and the name. -/
theorem join_eq_join (hrooted : Rooted cgPath) (hrooted' : Rooted cgPath')
    (hname : name ∈ controlFiles) (hname' : name' ∈ controlFiles)
    (h : join [cgPath, name] = join [cgPath', name']) :
    components cgPath = components cgPath' ∧ name = name' := by
  have hcomponents := congrArg components h
  rw [components_join hrooted hname, components_join hrooted' hname'] at hcomponents
  obtain ⟨hinit, hlast⟩ := List.append_inj' hcomponents rfl
  exact ⟨hinit, by simpa using hlast⟩

theorem join_ne_join (hrooted : Rooted cgPath) (hrooted' : Rooted cgPath')
    (hname : name ∈ controlFiles) (hname' : name' ∈ controlFiles) (hne : name ≠ name') :
    join [cgPath, name] ≠ join [cgPath', name'] :=
  fun h => hne (join_eq_join hrooted hrooted' hname hname' h).2

/-- Both paths that a container resolves to are rooted. -/
theorem Resolves.rooted {host : Host} {containerID containerCgPath podCgPath : GoString}
    (h : Resolves host containerID containerCgPath podCgPath) :
    Rooted containerCgPath ∧ Rooted podCgPath := by
  have hpaths : ∀ cgroupsPath, cgroupPathsOf cgroupsPath = .ok (containerCgPath, podCgPath) →
      Rooted containerCgPath ∧ Rooted podCgPath := by
    intro cgroupsPath hcgroups
    unfold cgroupPathsOf at hcgroups
    split at hcgroups
    · rename_i sliceGroup runtimeName scopeID hsplit
      dsimp only at hcgroups
      split at hcgroups
      · cases hcgroups
      · have hroot : hasPrefix cgroupV2Root ['/'] = true := by decide
        rw [filepath.join_of_rooted hroot, filepath.join_of_rooted (rooted_rootPath _),
          Except.ok.injEq, Prod.mk.injEq] at hcgroups
        obtain ⟨rfl, rfl⟩ := hcgroups
        exact ⟨rooted_rootPath _, rooted_rootPath _⟩
    · cases hcgroups
  unfold Resolves getCgroupPathsFromInspect at h
  split at h
  · cases h
  · split at h
    · cases h
    · dsimp only at h
      split at h
      · cases h
      · exact hpaths _ h

theorem Resolves.rooted_of {host : Host} {containerID containerCgPath podCgPath : GoString}
    (h : Resolves host containerID containerCgPath podCgPath)
    (hcgroup : cgPath = containerCgPath ∨ cgPath = podCgPath) : Rooted cgPath := by
  rcases hcgroup with rfl | rfl
  · exact h.rooted.1
  · exact h.rooted.2

end Paths

/-! ## What a successful write stores -/

theorem getElem?_setSlots (named : List Nat) (value : GoString) (slots : List GoString)
    (i : Nat) : (setSlots named value slots)[i]? =
      slots[i]?.map fun old => if i ∈ named then value else old := by
  simp [setSlots, List.getElem?_mapIdx]

@[simp] theorem length_setSlots (named : List Nat) (value : GoString)
    (slots : List GoString) : (setSlots named value slots).length = slots.length := by
  simp [setSlots]

theorem isWord_of_mem_setSlots {named : List Nat} {value word : GoString}
    {slots : List GoString} (hvalue : IsWord value) (hslots : ∀ w ∈ slots, IsWord w)
    (hword : word ∈ setSlots named value slots) : IsWord word := by
  obtain ⟨i, hi, heq⟩ := List.mem_mapIdx.mp hword
  rw [← heq]
  split
  · exact hvalue
  · exact hslots _ (List.getElem_mem hi)

namespace Kernel

variable (k : Kernel) {cgPath name : GoString}

theorem stored_oneValue (hrooted : Rooted cgPath) (hname : name ∈ controlFiles)
    (hone : name ≠ cgroupRTMultiRuntime) (old value : GoString) :
    k.stored (join [cgPath, name]) old value = some value := by
  unfold stored
  rw [components_join hrooted hname, List.getLast?_concat, if_neg]
  simpa using hone

theorem stored_multiRuntime (hrooted : Rooted cgPath) (old value : GoString) :
    k.stored (join [cgPath, cgroupRTMultiRuntime]) old value = k.multiRuntime old value := by
  unfold stored
  rw [components_join hrooted (by decide), List.getLast?_concat, if_pos rfl]

/-- What an accepted write `<core> <runtime>` leaves in
`cpu.rt_multi_runtime_us`: the named slots hold the runtime, the others keep
their word. -/
theorem multiRuntime_eq_some {old core new : GoString} {runtime : Int}
    (h : k.multiRuntime old (core ++ ' ' :: itoa runtime) = some new) :
    ∃ named, k.cpulist core = some named ∧ (∀ i ∈ named, i < (fields old).length) ∧
      fields new = setSlots named (itoa runtime) (fields old) := by
  -- the core list may hold blanks, the runtime does not: the last blank parts them
  have hblank : ' ' ∉ itoa runtime := fun hmem =>
    absurd ((isWord_itoa runtime).2 ' ' hmem) (by decide)
  unfold multiRuntime at h
  rw [lastIndex?_append_cons core hblank] at h
  have hdrop : (core ++ ' ' :: itoa runtime).drop (core.length + 1) = itoa runtime := by
    rw [List.drop_append, List.drop_of_length_le (by omega)]
    simp
  simp only [List.take_left, hdrop] at h
  cases hnamed : k.cpulist core with
  | none => simp [hnamed] at h
  | some named =>
      simp only [hnamed] at h
      split at h
      · rename_i hall
        rw [Option.some.injEq] at h
        refine ⟨named, rfl, by simpa using hall, ?_⟩
        rw [← h]
        exact fields_joinWith fun word hword => isWord_of_mem_setSlots (isWord_itoa runtime)
          (fun _ => isWord_of_mem_fields) hword
      · cases h

end Kernel

/-! ## Properties of one file -/

/-- The file exists and `P` holds of its content. -/
def OnFile (path : GoString) (P : GoString → Prop) (files : Files) : Prop :=
  ∃ content, files path = some content ∧ P content

/-- A file of one value that shows the integer `v`. -/
def Shows (v : Int) (content : GoString) : Prop := sscanfInt (trimSpace content) = some v

/-- The named slots hold the integer `v`. -/
def SlotsShow (named : List Nat) (v : Int) (content : GoString) : Prop :=
  ∀ i ∈ named, (fields content)[i]? = some (itoa v)

theorem OnFile.mono {path : GoString} {P Q : GoString → Prop}
    (hweaker : ∀ content, P content → Q content) (files : Files)
    (h : OnFile path P files) : OnFile path Q files := by
  obtain ⟨content, hfile, hP⟩ := h
  exact ⟨content, hfile, hweaker content hP⟩

theorem onFile_shows {path : GoString} {v : Int} {files : Files} :
    OnFile path (Shows v) files ↔ intAt files path = some v := by
  unfold OnFile Shows intAt
  exact Option.bind_eq_some_iff.symm

/-- A file of one value shows the integer that was written to it last. -/
theorem shows_of_stored {k : Kernel} {cgPath name : GoString} {v : Int}
    (hrooted : Rooted cgPath) (hname : name ∈ controlFiles)
    (hone : name ≠ cgroupRTMultiRuntime) (hv : InInt v) (old new : GoString)
    (hstored : k.stored (join [cgPath, name]) old (itoa v) = some new) : Shows v new := by
  rw [k.stored_oneValue hrooted hname hone, Option.some.injEq] at hstored
  rw [← hstored, Shows, trimSpace_itoa, sscanfInt_itoa hv]

/-- The CPU set is stored as it is written. -/
theorem trimSpace_of_stored {k : Kernel} {cgPath cpus old new : GoString}
    (hrooted : Rooted cgPath)
    (hstored : k.stored (join [cgPath, cgroupCPUSet]) old cpus = some new) :
    trimSpace new = trimSpace cpus := by
  rw [k.stored_oneValue hrooted (by decide) (by decide), Option.some.injEq] at hstored
  rw [hstored]

section Rules

variable {k : Kernel} {containerCgPath podCgPath cgPath name : GoString} {period runtime : Int}
  {core : Option GoString} {onlyRuntime : Bool} {P : GoString → Prop}

/-- What one action of a request can do to a control file: nothing, or store
the one text that the request writes to files of that name. -/
theorem requestAction_cases (hcontainer : Rooted containerCgPath) (hpod : Rooted podCgPath)
    (hcgroup : Rooted cgPath) (hname : name ∈ controlFiles) {op : FileOp}
    (hop : RequestAction containerCgPath podCgPath period runtime core onlyRuntime op)
    (files : Files) :
    (k.exec op files).2 (join [cgPath, name]) = files (join [cgPath, name]) ∨
      ∃ value old new, (name, value) ∈ controlWrites period runtime core onlyRuntime ∧
        files (join [cgPath, name]) = some old ∧
        k.stored (join [cgPath, name]) old value = some new ∧
        (k.exec op files).2 (join [cgPath, name]) = some new := by
  cases op with
  | stat path => exact Or.inl (by rw [k.exec_stat_state])
  | readFile path => exact Or.inl (by rw [k.exec_readFile_state])
  | writeFile path value =>
      by_cases hpath : join [cgPath, name] = path
      · -- the path gives away the name, and with it the text
        have hvalue : (name, value) ∈ controlWrites period runtime core onlyRuntime := by
          rcases hop with hshared | ⟨name', hmem, heq⟩ | ⟨name', hmem, heq⟩
          · exact hshared.elim
          · rw [(join_eq_join hcgroup hcontainer hname
              (mem_controlFiles_of_mem_controlWrites hmem) (hpath.trans heq)).2]
            exact hmem
          · rw [(join_eq_join hcgroup hpod hname
              (mem_controlFiles_of_mem_controlWrites hmem) (hpath.trans heq)).2]
            exact hmem
        simp only [Kernel.exec]
        cases hexec : k.write files path value with
        | error failure => exact Or.inl rfl
        | ok files' =>
            obtain ⟨old, new, hold, hnew, rfl⟩ := k.write_eq_ok hexec
            subst hpath
            exact Or.inr ⟨value, old, new, hvalue, hold, hnew, Function.update_self _ _ _⟩
      · exact Or.inl (k.exec_writeFile_other hpath)

/-- The frame rule for one control file: a property of its content survives
a request if it survives the one text that the request can write there. -/
theorem onFile_of_requestAction (hcontainer : Rooted containerCgPath)
    (hpod : Rooted podCgPath) (hcgroup : Rooted cgPath) (hname : name ∈ controlFiles)
    (hwrite : ∀ value, (name, value) ∈ controlWrites period runtime core onlyRuntime →
      ∀ old new, P old → k.stored (join [cgPath, name]) old value = some new → P new)
    {op : FileOp}
    (hop : RequestAction containerCgPath podCgPath period runtime core onlyRuntime op)
    {files : Files} (h : OnFile (join [cgPath, name]) P files) :
    OnFile (join [cgPath, name]) P (k.exec op files).2 := by
  obtain ⟨content, hfile, hcontent⟩ := h
  rcases requestAction_cases (k := k) hcontainer hpod hcgroup hname hop files with
    hsame | ⟨value, old, new, hvalue, hold, hstored, hnew⟩
  · exact ⟨content, hsame.trans hfile, hcontent⟩
  · rw [hfile, Option.some.injEq] at hold
    subst hold
    exact ⟨new, hnew, hwrite value hvalue content new hcontent hstored⟩

/-! ## What each part establishes -/

theorem establishes_writeCgroupFile {path value : GoString}
    (hnew : ∀ old new, k.stored path old value = some new → P new) :
    Program.Establishes k.exec (OnFile path P) Fallible.Succeeded
      (writeCgroupFile path value).run := by
  intro files
  simp only [Kernel.exec]
  cases hexec : k.write files path value with
  | error failure =>
      right
      cases failure <;> exact Fallible.not_succeeded_error _
  | ok files' =>
      left
      obtain ⟨old, new, -, hstored, rfl⟩ := k.write_eq_ok hexec
      exact ⟨new, Function.update_self _ _ _, hnew old new hstored⟩

theorem establishes_wrapError {α : Type} {message : GoString} {call : CgroupM α}
    {I : Files → Prop}
    (h : Program.Establishes k.exec I Fallible.Succeeded call.run) :
    Program.Establishes k.exec I Fallible.Succeeded (wrapError message call).run := by
  refine Program.Establishes.bind h fun result hresult => ?_
  cases result with
  | ok value => exact absurd trivial hresult
  | error e => exact Fallible.not_succeeded_error _

/-- The point at which the period is reached is the write, or the read that
makes `updatePeriod` skip the write. -/
theorem establishes_updatePeriod (hcgroup : Rooted cgPath) (hperiod : InInt period) :
    Program.Establishes k.exec (OnFile (join [cgPath, cgroupRTPeriod]) (Shows period))
      Fallible.Succeeded (updatePeriod cgPath period).run := by
  have hwrite : Program.Establishes k.exec
      (OnFile (join [cgPath, cgroupRTPeriod]) (Shows period)) Fallible.Succeeded
      (writeCgroupFile (join [cgPath, cgroupRTPeriod]) (itoa period)).run := by
    apply establishes_writeCgroupFile
    exact shows_of_stored hcgroup (by decide) (by decide) hperiod
  rw [run_updatePeriod]
  intro files
  cases hfile : files (join [cgPath, cgroupRTPeriod]) with
  | none =>
      -- a period that cannot be read is written like a wrong one
      right
      simpa [Kernel.exec, hfile, Except.toOption] using hwrite
  | some content =>
      by_cases hvalue : sscanfInt (trimSpace content) = some period
      · left
        rw [k.exec_readFile_state]
        exact ⟨content, hfile, hvalue⟩
      · right
        simpa [Kernel.exec, hfile, Except.toOption, hvalue] using hwrite

/-- As for the period: the write, or the read that makes it unnecessary. -/
theorem establishes_updateCpuSet (hcgroup : Rooted cgPath) (cpus : GoString) :
    Program.Establishes k.exec
      (OnFile (join [cgPath, cgroupCPUSet]) fun content => trimSpace content = trimSpace cpus)
      Fallible.Succeeded (updateCpuSet cgPath (some cpus)).run := by
  rw [run_updateCpuSet]
  intro files
  cases hfile : files (join [cgPath, cgroupCPUSet]) with
  | none =>
      -- but a CPU set that cannot be read is an error
      right
      simp [Kernel.exec, hfile, Program.Establishes]
  | some content =>
      by_cases hvalue : trimSpace content = cpus
      · left
        rw [k.exec_readFile_state]
        refine ⟨content, hfile, ?_⟩
        rw [← hvalue, trimSpace_trimSpace]
      · right
        simp only [Kernel.exec, hfile, if_neg hvalue]
        exact establishes_writeCgroupFile fun old new => trimSpace_of_stored hcgroup

/-! ## What a request establishes -/

variable {current : Current} {I : Files → Prop}

theorem establishes_writeRuntimeFile {v : Int}
    (hnew : ∀ old new, k.stored (join [cgPath, runtimeFile core]) old (runtimeText v core) =
      some new → P new) :
    Program.Establishes k.exec (OnFile (join [cgPath, runtimeFile core]) P) Fallible.Succeeded
      (writeRuntimeFile cgPath v core).run := by
  rw [writeRuntimeFile_eq]
  exact establishes_writeCgroupFile hnew

/-- The normal mode establishes what any of its three parts establishes. -/
theorem establishes_writeRtValues
    {periodDecreasing runtimeDecreasing multiRuntimeDecreasing : Bool}
    (h : Program.Establishes k.exec I Fallible.Succeeded
          (writeRuntimeFile cgPath (clampRuntime runtime) core).run ∨
        Program.Establishes k.exec I Fallible.Succeeded (updatePeriod cgPath period).run ∨
        Program.Establishes k.exec I Fallible.Succeeded (updateCpuSet cgPath core).run) :
    Program.Establishes k.exec I Fallible.Succeeded
      (writeRtValues cgPath period runtime core
        periodDecreasing runtimeDecreasing multiRuntimeDecreasing).run := by
  unfold writeRtValues
  rcases h with hruntime | hperiod | hcpuset
  · split
    · exact Fallible.establishes_bind_left hruntime
    · exact Fallible.establishes_bind_right fun _ => Fallible.establishes_bind_left hruntime
  · split
    · exact Fallible.establishes_bind_right fun _ => Fallible.establishes_bind_left hperiod
    · exact Fallible.establishes_bind_left hperiod
  · split
    · exact Fallible.establishes_bind_right fun _ =>
        Fallible.establishes_bind_right fun _ => hcpuset
    · exact Fallible.establishes_bind_right fun _ =>
        Fallible.establishes_bind_right fun _ => hcpuset

/-- A request establishes what it establishes on either of its cgroups. -/
theorem establishes_applyCgroup {host : Host} {containerID : GoString}
    (hpaths : Resolves host containerID containerCgPath podCgPath)
    (hcgroup : cgPath = containerCgPath ∨ cgPath = podCgPath)
    (h : ∀ current : Current, Program.Establishes k.exec I Fallible.Succeeded
      (current.updateOne period runtime core onlyRuntime cgPath).run) :
    Program.Establishes k.exec I Fallible.Succeeded
      (applyCgroup host containerID period runtime core onlyRuntime).run := by
  refine Fallible.establishes_bind_of_yields (yields_preflight host containerID period core)
    fun current hcurrent => ?_
  obtain ⟨rfl, rfl⟩ := hcurrent.unique hpaths
  rw [updateCgroups_eq]
  rcases hcgroup with rfl | rfl
  · have hcontainer : Program.Establishes k.exec I Fallible.Succeeded
        (current.updateContainer period runtime core onlyRuntime).run :=
      establishes_wrapError (h current)
    split
    · exact Fallible.establishes_bind_left hcontainer
    · exact Fallible.establishes_bind_right fun _ => hcontainer
  · have hpod : Program.Establishes k.exec I Fallible.Succeeded
        (current.updatePod period runtime core onlyRuntime).run :=
      establishes_wrapError (h current)
    split
    · exact Fallible.establishes_bind_right fun _ => hpod
    · exact Fallible.establishes_bind_left hpod

end Rules

end NodeActuator
end McKube
