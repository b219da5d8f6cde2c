import Mathlib.Data.List.Nodup
import McKube.NodeActuator.Actuator

/-!
# Which files a request touches

Every file action of `applyCgroup` reads one of four shared files, reads a
control file of the container or of the pod, or is one of the writes
`controlWrites` to these two cgroups (`performs_applyCgroup`).  The bound does
not depend on the state, on the answers of the kernel, or on other programs
that run at the same time.
-/

namespace McKube
namespace NodeActuator

open AtomicProgram GoLib
open GoLib.filepath (join components rootPath Plain)

/-! ## The bound -/

/-- The files that every request reads. -/
def sharedFiles : List GoString :=
  [cgroupControllersFile, procSchedRTPeriod, procSchedRTRuntime,
    join [cgroupKubepodsSlice, cgroupRTPeriod]]

/-- The name of the file that `writeRuntimeFile` writes. -/
def runtimeFile : Option GoString → GoString
  | some _ => cgroupRTMultiRuntime
  | none => cgroupRTRuntime

/-- The text that `writeRuntimeFile` writes. -/
def runtimeText (runtime : Int) : Option GoString → GoString
  | some core => core ++ ' ' :: itoa runtime
  | none => itoa runtime

theorem writeRuntimeFile_eq (cgPath : GoString) (runtime : Int) (core : Option GoString) :
    writeRuntimeFile cgPath runtime core =
      writeCgroupFile (join [cgPath, runtimeFile core]) (runtimeText runtime core) := by
  cases core <;> rfl

/-- The runtime that a request writes: the normal mode clamps it. -/
def writtenRuntime (runtime : Int) (onlyRuntime : Bool) : Int :=
  if onlyRuntime then runtime else max runtime 0

theorem inInt_writtenRuntime {runtime : Int} (hruntime : InInt runtime) (onlyRuntime : Bool) :
    InInt (writtenRuntime runtime onlyRuntime) := by
  unfold writtenRuntime
  unfold InInt at *
  split
  · exact hruntime
  · omega

/-- The control files that a request writes in one cgroup, each with the text
written to it, in no particular order. -/
def controlWrites (period runtime : Int) (core : Option GoString) (onlyRuntime : Bool) :
    List (GoString × GoString) :=
  (runtimeFile core, runtimeText (writtenRuntime runtime onlyRuntime) core) ::
    if onlyRuntime then
      []
    else
      (cgroupRTPeriod, itoa period) ::
        match core with
        | some core => [(cgroupCPUSet, core)]
        | none => []

/-- The names of the control files that a request writes. -/
def writtenNames (core : Option GoString) (onlyRuntime : Bool) : List GoString :=
  runtimeFile core ::
    if onlyRuntime then
      []
    else
      cgroupRTPeriod :: if core.isSome then [cgroupCPUSet] else []

theorem map_fst_controlWrites (period runtime : Int) (core : Option GoString)
    (onlyRuntime : Bool) : (controlWrites period runtime core onlyRuntime).map Prod.fst =
      writtenNames core onlyRuntime := by
  cases onlyRuntime <;> cases core <;> rfl

theorem writtenNames_subset (core : Option GoString) (onlyRuntime : Bool) :
    writtenNames core onlyRuntime ⊆ controlFiles := by
  cases onlyRuntime <;> cases core
  · exact (by decide : [cgroupRTRuntime, cgroupRTPeriod] ⊆ controlFiles)
  · exact (by decide : [cgroupRTMultiRuntime, cgroupRTPeriod, cgroupCPUSet] ⊆ controlFiles)
  · exact (by decide : [cgroupRTRuntime] ⊆ controlFiles)
  · exact (by decide : [cgroupRTMultiRuntime] ⊆ controlFiles)

theorem nodup_writtenNames (core : Option GoString) (onlyRuntime : Bool) :
    (writtenNames core onlyRuntime).Nodup := by
  cases onlyRuntime <;> cases core
  · exact (by decide : [cgroupRTRuntime, cgroupRTPeriod].Nodup)
  · exact (by decide : [cgroupRTMultiRuntime, cgroupRTPeriod, cgroupCPUSet].Nodup)
  · exact (by decide : [cgroupRTRuntime].Nodup)
  · exact (by decide : [cgroupRTMultiRuntime].Nodup)

theorem mem_writtenNames {period runtime : Int} {core : Option GoString} {onlyRuntime : Bool}
    {name value : GoString} (h : (name, value) ∈ controlWrites period runtime core onlyRuntime) :
    name ∈ writtenNames core onlyRuntime := by
  rw [← map_fst_controlWrites period runtime]
  exact List.mem_map_of_mem (f := Prod.fst) h

theorem mem_controlFiles_of_mem_controlWrites {period runtime : Int}
    {core : Option GoString} {onlyRuntime : Bool} {name value : GoString}
    (h : (name, value) ∈ controlWrites period runtime core onlyRuntime) :
    name ∈ controlFiles :=
  writtenNames_subset core onlyRuntime (mem_writtenNames h)

/-- A request writes one text to each control file. -/
theorem controlWrites_unique {period runtime : Int} {core : Option GoString}
    {onlyRuntime : Bool} {name value value' : GoString}
    (h : (name, value) ∈ controlWrites period runtime core onlyRuntime)
    (h' : (name, value') ∈ controlWrites period runtime core onlyRuntime) :
    value = value' := by
  have hnodup : ((controlWrites period runtime core onlyRuntime).map Prod.fst).Nodup := by
    rw [map_fst_controlWrites]
    exact nodup_writtenNames core onlyRuntime
  exact congrArg Prod.snd (List.inj_on_of_nodup_map hnodup h h' rfl)

/-- The actions of a request on one cgroup. -/
def CgroupAction (cgPath : GoString) (period runtime : Int) (core : Option GoString)
    (onlyRuntime : Bool) : FileOp → Prop
  | .stat _ => False
  | .readFile path => ∃ name ∈ controlFiles, path = join [cgPath, name]
  | .writeFile path value => ∃ name, (name, value) ∈
      controlWrites period runtime core onlyRuntime ∧ path = join [cgPath, name]

/-- The actions of a request on the files that it shares with every other. -/
def SharedAction : FileOp → Prop
  | .stat path => path ∈ sharedFiles
  | .readFile path => path ∈ sharedFiles
  | .writeFile _ _ => False

/-- All file actions of a request whose container and pod paths are known. -/
def RequestAction (containerCgPath podCgPath : GoString) (period runtime : Int)
    (core : Option GoString) (onlyRuntime : Bool) (op : FileOp) : Prop :=
  SharedAction op ∨ CgroupAction containerCgPath period runtime core onlyRuntime op ∨
    CgroupAction podCgPath period runtime core onlyRuntime op

/-- The container and the pod path that `applyCgroup` works on. -/
def Resolves (host : Host) (containerID containerCgPath podCgPath : GoString) : Prop :=
  getCgroupPathsFromInspect host (trimPrefix containerID "containerd://") =
    .ok (containerCgPath, podCgPath)

instance (host : Host) (containerID containerCgPath podCgPath : GoString) :
    Decidable (Resolves host containerID containerCgPath podCgPath) :=
  inferInstanceAs (Decidable
    (getCgroupPathsFromInspect host (trimPrefix containerID "containerd://") = .ok _))

theorem resolves_sample (containerID : GoString) :
    Resolves Host.sample containerID sampleContainerPath samplePodPath := by
  show getCgroupPathsFromInspect Host.sample [] = .ok (sampleContainerPath, samplePodPath)
  decide +kernel

/-! ## The functions that may skip a write -/

/-- `updatePeriod` is one read, and a write unless the period matches. -/
theorem run_updatePeriod (cgPath : GoString) (period : Int) :
    (updatePeriod cgPath period).run =
      .act (.readFile (join [cgPath, cgroupRTPeriod])) fun answer =>
        if answer.toOption.bind (fun b => sscanfInt (trimSpace b)) = some period then
          .ret (.ok ())
        else
          (writeCgroupFile (join [cgPath, cgroupRTPeriod]) (itoa period)).run := by
  unfold updatePeriod readIntFromFile
  refine congrArg (Program.act _) (funext fun answer => ?_)
  cases answer with
  | error e => rfl
  | ok b =>
      dsimp only [ExceptT.bindCont, ExceptT.run, Program.bind]
      cases hvalue : sscanfInt (trimSpace b) with
      | none =>
          simp only [Except.toOption, Option.bind_some, hvalue, reduceCtorEq, if_false]
          rfl
      | some current =>
          simp only [Except.toOption, Option.bind_some, hvalue, Option.some.injEq]
          change ExceptT.run (if current = period then pure () else
            writeCgroupFile (join [cgPath, cgroupRTPeriod]) (itoa period)) = _
          split <;> rfl

/-- `updateCpuSet` is one read, and a write unless the CPU set matches. -/
theorem run_updateCpuSet (cgPath core : GoString) :
    (updateCpuSet cgPath (some core)).run =
      .act (.readFile (join [cgPath, cgroupCPUSet])) fun answer =>
        match answer with
        | .error e => .ret (.error (.wrap "failed to read current cpuset" e))
        | .ok current =>
            if trimSpace current = core then
              .ret (.ok ())
            else
              (writeCgroupFile (join [cgPath, cgroupCPUSet]) core).run := by
  refine congrArg (Program.act _) (funext fun answer => ?_)
  cases answer with
  | error e => rfl
  | ok current =>
      change ExceptT.run (if trimSpace current = core then pure () else
        writeCgroupFile (join [cgPath, cgroupCPUSet]) core) = _
      simp only
      split <;> rfl

/-! ## The actions of each function -/

section Performs

variable {allowed : FileOp → Prop} {α : Type}

theorem performs_pure (value : α) :
    Program.Performs allowed (pure value : CgroupM α).run := trivial

theorem performs_throw (e : GoError) :
    Program.Performs allowed (throw e : CgroupM α).run := trivial

theorem performs_wrapError {message : GoString} {call : CgroupM α}
    (h : Program.Performs allowed call.run) :
    Program.Performs allowed (wrapError message call).run :=
  Program.Performs.bind h fun result => by cases result <;> exact trivial

theorem performs_attempt {call : CgroupM α} (h : Program.Performs allowed call.run) :
    Program.Performs allowed (attempt call).run :=
  Program.Performs.bind h fun _ => trivial

theorem performs_stat {path : GoString} (h : allowed (.stat path)) :
    Program.Performs allowed (stat path).run := ⟨h, fun _ => trivial⟩

theorem performs_readFile {path : GoString} (h : allowed (.readFile path)) :
    Program.Performs allowed (readFile path).run := ⟨h, fun _ => trivial⟩

theorem performs_writeCgroupFile {path value : GoString}
    (h : allowed (.writeFile path value)) :
    Program.Performs allowed (writeCgroupFile path value).run :=
  ⟨h, fun answer => by rcases answer with (_ | _) | _ <;> exact trivial⟩

@[simp] theorem wrapError_liftExcept_ok (message : GoString) (value : α) :
    wrapError message (liftExcept (.ok value)) = pure value := rfl

theorem performs_failWhen (failed : Prop) [Decidable failed] (e : GoError) :
    Program.Performs allowed (failWhen failed e).run := by
  unfold failWhen
  split
  · exact performs_throw e
  · exact performs_pure ()

theorem performs_readIntFromFile {path : GoString} (h : allowed (.readFile path)) :
    Program.Performs allowed (readIntFromFile path).run :=
  Fallible.performs_bind (performs_readFile h) fun content => by
    split
    · exact performs_pure _
    · exact performs_throw _

theorem performs_readRtValues {cgPath : GoString}
    (h : ∀ name ∈ controlFiles, allowed (.readFile (join [cgPath, name]))) :
    Program.Performs allowed (readRtValues cgPath).run := by
  have hread : ∀ name ∈ controlFiles,
      Program.Performs allowed (readIntFromFile (join [cgPath, name])).run :=
    fun name hname => performs_readIntFromFile (h name hname)
  refine Fallible.performs_bind (performs_wrapError (hread cgroupRTPeriod (by decide)))
    fun period => ?_
  exact Fallible.performs_bind (performs_wrapError (hread cgroupRTRuntime (by decide)))
    fun runtime => performs_pure _

theorem performs_readMultiRuntime {cgPath : GoString} (core : Option GoString)
    (h : ∀ name ∈ controlFiles, allowed (.readFile (join [cgPath, name]))) :
    Program.Performs allowed (readMultiRuntime cgPath core).run := by
  cases core with
  | none => exact performs_pure _
  | some core =>
      refine Fallible.performs_bind
        (performs_attempt (performs_readFile (h cgroupRTMultiRuntime (by decide))))
        fun result => ?_
      cases result <;> exact performs_pure _

theorem performs_updatePeriod {cgPath : GoString} {period : Int}
    (hread : allowed (.readFile (join [cgPath, cgroupRTPeriod])))
    (hwrite : allowed (.writeFile (join [cgPath, cgroupRTPeriod]) (itoa period))) :
    Program.Performs allowed (updatePeriod cgPath period).run := by
  rw [run_updatePeriod]
  refine ⟨hread, fun answer => ?_⟩
  dsimp only
  split
  · exact trivial
  · exact performs_writeCgroupFile hwrite

theorem performs_updateCpuSet {cgPath : GoString} {core : Option GoString}
    (hread : allowed (.readFile (join [cgPath, cgroupCPUSet])))
    (hwrite : ∀ c, core = some c → allowed (.writeFile (join [cgPath, cgroupCPUSet]) c)) :
    Program.Performs allowed (updateCpuSet cgPath core).run := by
  cases core with
  | none => exact performs_pure _
  | some core =>
      rw [run_updateCpuSet]
      refine ⟨hread, fun answer => ?_⟩
      cases answer with
      | error e => exact trivial
      | ok current =>
          dsimp only
          split
          · exact trivial
          · exact performs_writeCgroupFile (hwrite core rfl)

end Performs

/-! ## The actions of a request -/

section Request

variable {cgPath : GoString} {period runtime : Int} {core : Option GoString}

/-- The normal mode on one cgroup. -/
theorem performs_writeRtValues
    (periodDecreasing runtimeDecreasing multiRuntimeDecreasing : Bool) :
    Program.Performs (CgroupAction cgPath period runtime core false)
      (writeRtValues cgPath period runtime core
        periodDecreasing runtimeDecreasing multiRuntimeDecreasing).run := by
  have hread : ∀ name ∈ controlFiles,
      CgroupAction cgPath period runtime core false (.readFile (join [cgPath, name])) :=
    fun name hname => ⟨name, hname, rfl⟩
  have hruntime : Program.Performs (CgroupAction cgPath period runtime core false)
      (writeRuntimeFile cgPath (clampRuntime runtime) core).run := by
    rw [writeRuntimeFile_eq, clampRuntime_eq_max]
    exact performs_writeCgroupFile ⟨_, List.mem_cons_self, rfl⟩
  have hperiod : Program.Performs (CgroupAction cgPath period runtime core false)
      (updatePeriod cgPath period).run := by
    refine performs_updatePeriod (hread cgroupRTPeriod (by decide)) ?_
    exact ⟨cgroupRTPeriod, by simp [controlWrites], rfl⟩
  have hcpuset : Program.Performs (CgroupAction cgPath period runtime core false)
      (updateCpuSet cgPath core).run := by
    refine performs_updateCpuSet (hread cgroupCPUSet (by decide)) ?_
    rintro c rfl
    exact ⟨cgroupCPUSet, by simp [controlWrites], rfl⟩
  unfold writeRtValues
  split
  · exact Fallible.performs_bind hruntime fun _ =>
      Fallible.performs_bind hperiod fun _ => hcpuset
  · exact Fallible.performs_bind hperiod fun _ =>
      Fallible.performs_bind hruntime fun _ => hcpuset

/-- The escalation mode on one cgroup. -/
theorem performs_writeRuntimeOnly :
    Program.Performs (CgroupAction cgPath period runtime core true)
      (writeRuntimeOnly cgPath runtime core).run := by
  unfold writeRuntimeOnly
  rw [writeRuntimeFile_eq]
  exact performs_writeCgroupFile ⟨_, List.mem_cons_self, rfl⟩

end Request

/-! ## The two halves of `updateCgroups` -/

namespace Current

variable (current : Current) (period runtime : Int) (core : Option GoString)
  (onlyRuntime : Bool)

/-- The flag by which `updateCgroups` orders the two cgroups. -/
def containerFirst : Bool :=
  if onlyRuntime then
    if core.isSome then
      core.isSome && isRuntimeDecrease current.podMultiRuntime runtime
    else
      isRuntimeDecrease current.podRuntime runtime
  else
    isRuntimeDecrease current.podRuntime runtime || isDecrease current.podPeriod period ||
      (core.isSome && isRuntimeDecrease current.podMultiRuntime runtime)

/-- What `updateCgroups` does to one of the two cgroups. -/
def updateOne (cgPath : GoString) : CgroupM Unit :=
  if onlyRuntime then
    writeRuntimeOnly cgPath runtime core
  else
    writeRtValues cgPath period runtime core
      (isDecrease current.podPeriod period) (isRuntimeDecrease current.podRuntime runtime)
      (core.isSome && isRuntimeDecrease current.podMultiRuntime runtime)

def updateContainer : CgroupM Unit :=
  wrapError
    (if onlyRuntime then "failed to update container runtime"
      else "failed to update container cgroup RT")
    (current.updateOne period runtime core onlyRuntime current.containerCgPath)

def updatePod : CgroupM Unit :=
  wrapError
    (if onlyRuntime then "failed to update pod runtime"
      else "failed to update pod cgroup RT")
    (current.updateOne period runtime core onlyRuntime current.podCgPath)

end Current

/-- Both modes update one cgroup and then the other, in the order given by
`containerFirst`. -/
theorem updateCgroups_eq (current : Current) (period runtime : Int)
    (core : Option GoString) (onlyRuntime : Bool) :
    updateCgroups current period runtime core onlyRuntime =
      (if current.containerFirst period runtime core onlyRuntime then do
        current.updateContainer period runtime core onlyRuntime
        current.updatePod period runtime core onlyRuntime
      else do
        current.updatePod period runtime core onlyRuntime
        current.updateContainer period runtime core onlyRuntime) := by
  cases onlyRuntime with
  | true => rfl
  | false => rfl

theorem performs_updateOne (current : Current) (period runtime : Int)
    (core : Option GoString) (onlyRuntime : Bool) (cgPath : GoString) :
    Program.Performs (CgroupAction cgPath period runtime core onlyRuntime)
      (current.updateOne period runtime core onlyRuntime cgPath).run := by
  cases onlyRuntime with
  | true => exact performs_writeRuntimeOnly
  | false => exact performs_writeRtValues _ _ _

/-- Everything after the preflight checks. -/
theorem performs_updateCgroups (current : Current) (period runtime : Int)
    (core : Option GoString) (onlyRuntime : Bool) :
    Program.Performs (RequestAction current.containerCgPath current.podCgPath
        period runtime core onlyRuntime)
      (updateCgroups current period runtime core onlyRuntime).run := by
  have hcontainer : Program.Performs (RequestAction current.containerCgPath
      current.podCgPath period runtime core onlyRuntime)
      (current.updateContainer period runtime core onlyRuntime).run :=
    performs_wrapError ((performs_updateOne current period runtime core onlyRuntime _).mono
      fun _ haction => Or.inr (Or.inl haction))
  have hpod : Program.Performs (RequestAction current.containerCgPath
      current.podCgPath period runtime core onlyRuntime)
      (current.updatePod period runtime core onlyRuntime).run :=
    performs_wrapError ((performs_updateOne current period runtime core onlyRuntime _).mono
      fun _ haction => Or.inr (Or.inr haction))
  rw [updateCgroups_eq]
  split
  · exact Fallible.performs_bind hcontainer fun _ => hpod
  · exact Fallible.performs_bind hpod fun _ => hcontainer

/-- The preflight checks only read: the shared files, and the pod. -/
theorem performs_preflight {allowed : FileOp → Prop} {host : Host} {containerID : GoString}
    (hshared : ∀ op, SharedAction op → allowed op)
    (hpod : ∀ containerCgPath podCgPath, Resolves host containerID containerCgPath podCgPath →
      ∀ name ∈ controlFiles, allowed (.readFile (join [podCgPath, name])))
    (period : Int) (core : Option GoString) :
    Program.Performs allowed (preflight host containerID period core).run := by
  have hcontrollers : cgroupControllersFile ∈ sharedFiles := List.mem_cons_self
  have hread : ∀ (message : GoString), ∀ path ∈ sharedFiles,
      Program.Performs allowed (wrapError message (readIntFromFile path)).run :=
    fun message path hpath =>
      performs_wrapError (performs_readIntFromFile (hshared (.readFile path) hpath))
  unfold preflight
  dsimp only
  refine Fallible.performs_bind
    (performs_wrapError (performs_stat (hshared (.stat _) hcontrollers))) fun _ => ?_
  cases hpaths : getCgroupPathsFromInspect host (trimPrefix containerID "containerd://") with
  | error e => exact performs_throw _
  | ok paths =>
      have hpaths : Resolves host containerID paths.1 paths.2 := hpaths
      rw [wrapError_liftExcept_ok, pure_bind]
      refine Fallible.performs_bind
        (performs_wrapError (performs_readFile (hshared (.readFile _) hcontrollers))) fun _ => ?_
      refine Fallible.performs_bind (performs_failWhen _ _) fun _ => ?_
      refine Fallible.performs_bind (hread _ procSchedRTPeriod (by simp [sharedFiles])) fun _ => ?_
      refine Fallible.performs_bind (hread _ procSchedRTRuntime (by simp [sharedFiles])) fun _ => ?_
      refine Fallible.performs_bind (performs_failWhen _ _) fun _ => ?_
      refine Fallible.performs_bind (performs_failWhen _ _) fun _ => ?_
      refine Fallible.performs_bind (hread _ _ (by simp [sharedFiles])) fun _ => ?_
      refine Fallible.performs_bind (performs_failWhen _ _) fun _ => ?_
      refine Fallible.performs_bind
        (performs_wrapError (performs_readRtValues (hpod _ _ hpaths))) fun _ => ?_
      exact Fallible.performs_bind (performs_readMultiRuntime core (hpod _ _ hpaths))
        fun _ => performs_pure _

/-- The preflight checks hand over the paths that the container resolves to. -/
theorem yields_preflight (host : Host) (containerID : GoString) (period : Int)
    (core : Option GoString) :
    (preflight host containerID period core).Yields fun current =>
      Resolves host containerID current.containerCgPath current.podCgPath := by
  have hskip : ∀ {α β : Type} {possible : β → Prop} (call : CgroupM α) (f : α → CgroupM β),
      (∀ value, (f value).Yields possible) → (call >>= f).Yields possible :=
    fun call f hf => (call.yields_true).bind fun value _ => hf value
  unfold preflight
  dsimp only
  refine hskip _ _ fun _ => ?_
  cases hpaths : getCgroupPathsFromInspect host (trimPrefix containerID "containerd://") with
  | error e =>
      intro value heq
      cases heq
  | ok paths =>
      rw [wrapError_liftExcept_ok, pure_bind]
      iterate 10 refine hskip _ _ fun _ => ?_
      intro value heq
      cases heq
      exact hpaths

/-- The bound on the actions of a whole request. -/
theorem performs_applyCgroup {allowed : FileOp → Prop} {host : Host} {containerID : GoString}
    {period runtime : Int} {core : Option GoString} {onlyRuntime : Bool}
    (hshared : ∀ op, SharedAction op → allowed op)
    (hrequest : ∀ containerCgPath podCgPath,
      Resolves host containerID containerCgPath podCgPath → ∀ op,
        RequestAction containerCgPath podCgPath period runtime core onlyRuntime op → allowed op) :
    Program.Performs allowed
      (applyCgroup host containerID period runtime core onlyRuntime).run := by
  have hpreflight : Program.Performs allowed (preflight host containerID period core).run :=
    performs_preflight hshared
      (fun containerCgPath podCgPath hpaths name hname =>
        hrequest containerCgPath podCgPath hpaths _ (Or.inr (Or.inr ⟨name, hname, rfl⟩)))
      period core
  refine Fallible.performs_bind_of_yields hpreflight
    (yields_preflight host containerID period core) fun current hpaths => ?_
  exact (performs_updateCgroups current period runtime core onlyRuntime).mono
    (hrequest current.containerCgPath current.podCgPath hpaths)

theorem Resolves.unique {host : Host} {containerID c p c' p' : GoString}
    (h : Resolves host containerID c p) (h' : Resolves host containerID c' p') :
    c = c' ∧ p = p' :=
  Prod.mk.inj (Except.ok.inj (h.symm.trans h'))

/-- The bound on the actions of a request whose paths are known. -/
theorem performs_apply {host : Host} {req : CgroupRequest} {containerCgPath podCgPath : GoString}
    (hpaths : Resolves host req.containerID containerCgPath podCgPath) :
    Program.Performs (RequestAction containerCgPath podCgPath
      req.period req.runtime req.core req.onlyRuntime) (req.apply host).run := by
  refine performs_applyCgroup (fun op hop => Or.inl hop) fun c p hresolves op hop => ?_
  obtain ⟨rfl, rfl⟩ := hresolves.unique hpaths
  exact hop

/-- The preflight checks write nothing. -/
theorem performs_preflight_reads (host : Host) (containerID : GoString) (period : Int)
    (core : Option GoString) :
    Program.Performs (fun op => ¬ op.IsWrite) (preflight host containerID period core).run := by
  refine performs_preflight ?_ (fun _ _ _ _ _ => not_false) period core
  rintro (path | path | ⟨path, value⟩) hop
  · exact not_false
  · exact not_false
  · exact hop.elim

end NodeActuator
end McKube
