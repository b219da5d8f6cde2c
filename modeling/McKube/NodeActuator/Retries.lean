import McKube.Atomic.Pool
import McKube.NodeActuator.Outcome

/-!
# Sending a request again

A client that gets no answer sends its request again, perhaps while the first attempt is
still under way.  The attempts share the files and take no lock.

Each control file can only go from what it has shown at first to what the request
makes of it (`settle`): this is the invariant that the attempts guarantee to each other,
`Settling`.  It needs the reads in front of the writes, since a period or a CPU set that
matches already is left as it is written.

* `guarantees_apply`: an attempt guarantees the invariant, whatever the others do.
* `attempts_agree`: once an attempt has succeeded the files are the same, however many
  there were and however they overlapped.
-/

namespace McKube
namespace NodeActuator

open AtomicProgram GoLib
open GoLib.filepath (join components rootPath Plain)

/-! ## Writing the same text twice -/

theorem setSlots_setSlots (named : List Nat) (value : GoString) (slots : List GoString) :
    setSlots named value (setSlots named value slots) = setSlots named value slots := by
  apply List.ext_getElem?
  intro i
  rw [getElem?_setSlots, getElem?_setSlots, Option.map_map]
  congr 1
  funext old
  show (if i ∈ named then value else if i ∈ named then value else old) = _
  split <;> rfl

namespace Kernel

variable (k : Kernel) {cgPath name : GoString}

/-- The content of `cpu.rt_multi_runtime_us` after a write `<core> <runtime>`. -/
theorem multiRuntime_append (old core : GoString) (runtime : Int) :
    k.multiRuntime old (core ++ ' ' :: itoa runtime) =
      (k.cpulist core).bind fun named =>
        if named.all fun cpu => decide (cpu < (fields old).length) then
          some (joinWith ' ' (setSlots named (itoa runtime) (fields old)))
        else none := by
  have hblank : ' ' ∉ itoa runtime := fun hmem =>
    absurd ((isWord_itoa runtime).2 ' ' hmem) (by decide)
  have hdrop : (core ++ ' ' :: itoa runtime).drop (core.length + 1) = itoa runtime := by
    rw [List.drop_append, List.drop_of_length_le (by omega)]
    simp
  unfold multiRuntime
  rw [lastIndex?_append_cons core hblank]
  simp only [List.take_left, hdrop]
  cases k.cpulist core <;> rfl

/-- A runtime that is there already is stored as it is. -/
theorem multiRuntime_multiRuntime {old core new : GoString} {runtime : Int}
    (h : k.multiRuntime old (core ++ ' ' :: itoa runtime) = some new) :
    k.multiRuntime new (core ++ ' ' :: itoa runtime) = some new := by
  obtain ⟨named, hnamed, hbound, hfields⟩ := k.multiRuntime_eq_some h
  rw [multiRuntime_append, hnamed, Option.bind_some] at h ⊢
  have hall : (named.all fun cpu => decide (cpu < (fields new).length)) = true := by
    rw [hfields, length_setSlots]
    simpa using hbound
  split at h
  · rw [Option.some.injEq] at h
    rw [if_pos hall, hfields, setSlots_setSlots, h]
  · cases h

end Kernel

namespace CgroupRequest

variable {k : Kernel} {host : Host} {req : CgroupRequest}
  {containerCgPath podCgPath cgPath name value : GoString} {files : Files}

theorem stored_stored (hrooted : Rooted cgPath)
    (hvalue : (name, value) ∈ controlWrites req.period req.runtime req.core req.onlyRuntime)
    {old new : GoString} (h : k.stored (join [cgPath, name]) old value = some new) :
    k.stored (join [cgPath, name]) new value = some new := by
  have hname := mem_controlFiles_of_mem_controlWrites hvalue
  by_cases hmulti : name = cgroupRTMultiRuntime
  · subst hmulti
    rw [k.stored_multiRuntime hrooted] at h ⊢
    cases hcore : req.core with
    | none =>
        have hother : cgroupRTMultiRuntime ∉ writtenNames req.core req.onlyRuntime := by
          rw [hcore]
          cases req.onlyRuntime <;> decide
        exact absurd (mem_writtenNames hvalue) hother
    | some cpus =>
        rw [controlWrites_unique hvalue (mem_controlWrites_multiRuntime hcore)] at h ⊢
        exact k.multiRuntime_multiRuntime h
  · rw [k.stored_oneValue hrooted hname hmulti] at h ⊢
    exact h

/-! ## What the request makes of a file -/

/-- The request leaves the file as it is, without a write. -/
def Skips (req : CgroupRequest) (name value old : GoString) : Prop :=
  (name = cgroupRTPeriod ∧ sscanfInt (trimSpace old) = some req.period) ∨
    (name = cgroupCPUSet ∧ trimSpace old = value)

instance (req : CgroupRequest) (name value old : GoString) :
    Decidable (req.Skips name value old) :=
  inferInstanceAs (Decidable (_ ∨ _))

/-- The content of a control file after a success of the request, which writes `value` to
files of this name. -/
def settle (k : Kernel) (req : CgroupRequest) (path name value old : GoString) : GoString :=
  if req.Skips name value old then old else (k.stored path old value).getD old

/-- The control files that the request sets, with their names and its texts. -/
def targets (req : CgroupRequest) (containerCgPath podCgPath : GoString) :
    List (GoString × GoString × GoString) :=
  [containerCgPath, podCgPath].flatMap fun cgPath =>
    (controlWrites req.period req.runtime req.core req.onlyRuntime).map fun write =>
      (join [cgPath, write.1], write)

/-- The files after a success of the request. -/
def settled (k : Kernel) (req : CgroupRequest) (containerCgPath podCgPath : GoString)
    (files : Files) : Files := fun path =>
  match (req.targets containerCgPath podCgPath).find? fun target => target.1 = path with
  | some (_, name, value) => (files path).map (req.settle k path name value)
  | none => files path

theorem settled_join (files : Files)
    (hpaths : Resolves host req.containerID containerCgPath podCgPath)
    (hcgroup : cgPath = containerCgPath ∨ cgPath = podCgPath)
    (hvalue : (name, value) ∈ controlWrites req.period req.runtime req.core req.onlyRuntime) :
    req.settled k containerCgPath podCgPath files (join [cgPath, name]) =
      (files (join [cgPath, name])).map (req.settle k (join [cgPath, name]) name value) := by
  have hmem : (join [cgPath, name], name, value) ∈ req.targets containerCgPath podCgPath := by
    refine List.mem_flatMap.mpr ⟨cgPath, by simpa using hcgroup, ?_⟩
    exact List.mem_map.mpr ⟨(name, value), hvalue, rfl⟩
  unfold settled
  cases hfind : (req.targets containerCgPath podCgPath).find?
      fun target => target.1 = join [cgPath, name] with
  | none =>
      have hnone := List.find?_eq_none.mp hfind _ hmem
      simp at hnone
  | some target =>
      -- a path belongs to one name, and a name to one text
      obtain ⟨path, name', value'⟩ := target
      have hpath : path = join [cgPath, name] := by simpa using List.find?_some hfind
      obtain ⟨cgPath', hcgroup', htarget⟩ := List.mem_flatMap.mp (List.mem_of_find?_eq_some hfind)
      obtain ⟨⟨name'', value''⟩, hvalue', heq⟩ := List.mem_map.mp htarget
      simp only [Prod.mk.injEq] at heq
      obtain ⟨hjoin, rfl, rfl⟩ := heq
      have hrooted' : Rooted cgPath' := hpaths.rooted_of (by simpa using hcgroup')
      obtain ⟨-, rfl⟩ := join_eq_join hrooted' (hpaths.rooted_of hcgroup)
        (mem_controlFiles_of_mem_controlWrites hvalue')
        (mem_controlFiles_of_mem_controlWrites hvalue) (hjoin.trans hpath)
      rw [controlWrites_unique hvalue' hvalue]

theorem settled_of_ne (files : Files) {path : GoString}
    (h : ∀ cgPath, cgPath = containerCgPath ∨ cgPath = podCgPath →
      ∀ name ∈ writtenNames req.core req.onlyRuntime, path ≠ join [cgPath, name]) :
    req.settled k containerCgPath podCgPath files path = files path := by
  unfold settled
  cases hfind : (req.targets containerCgPath podCgPath).find? fun target => target.1 = path with
  | none => rfl
  | some target =>
      have hpath : target.1 = path := by simpa using List.find?_some hfind
      obtain ⟨cgPath, hcgroup, htarget⟩ := List.mem_flatMap.mp (List.mem_of_find?_eq_some hfind)
      obtain ⟨write, hwrite, rfl⟩ := List.mem_map.mp htarget
      exact absurd hpath.symm (h cgPath (by simpa using hcgroup) write.1 (mem_writtenNames hwrite))

/-! ## The invariant -/

/-- Every file is as it was at first, or as the request makes it. -/
def Settling (k : Kernel) (req : CgroupRequest) (containerCgPath podCgPath : GoString)
    (files s : Files) : Prop :=
  ∀ path, s path = files path ∨ s path = req.settled k containerCgPath podCgPath files path

/-- A step leaves a file alone, or makes it as the request makes it. -/
def SettlingStep (k : Kernel) (req : CgroupRequest) (containerCgPath podCgPath : GoString)
    (files s t : Files) : Prop :=
  ∀ path, t path = s path ∨ t path = req.settled k containerCgPath podCgPath files path

/-- The program keeps the files between `files` and what the request makes of them. -/
abbrev Settles (k : Kernel) (req : CgroupRequest) (containerCgPath podCgPath : GoString)
    (files : Files) {α : Type} (call : CgroupM α) : Prop :=
  Program.Guarantees k.exec (req.Settling k containerCgPath podCgPath files)
    (req.SettlingStep k containerCgPath podCgPath files) (fun _ => True) call.run

theorem settling_of_same {s t : Files} (hs : req.Settling k containerCgPath podCgPath files s)
    (h : t = s) : req.Settling k containerCgPath podCgPath files t ∧
      req.SettlingStep k containerCgPath podCgPath files s t := by
  subst h
  exact ⟨hs, fun path => Or.inl rfl⟩

/-- The file is not one that the request would leave as it is. -/
def Due (req : CgroupRequest) (files : Files) (path name value : GoString) : Prop :=
  ∀ old, files path = some old → ¬ req.Skips name value old

theorem settle_of_due {path old : GoString} (hdue : req.Due files path name value)
    (hold : files path = some old) :
    req.settle k path name value old = (k.stored path old value).getD old :=
  if_neg (hdue old hold)

/-- A write to a file that is due. -/
theorem settling_write (hpaths : Resolves host req.containerID containerCgPath podCgPath)
    (hcgroup : cgPath = containerCgPath ∨ cgPath = podCgPath)
    (hvalue : (name, value) ∈ controlWrites req.period req.runtime req.core req.onlyRuntime)
    (hdue : req.Due files (join [cgPath, name]) name value) {s : Files}
    (hs : req.Settling k containerCgPath podCgPath files s) :
    req.Settling k containerCgPath podCgPath files
        (k.exec (.writeFile (join [cgPath, name]) value) s).2 ∧
      req.SettlingStep k containerCgPath podCgPath files s
        (k.exec (.writeFile (join [cgPath, name]) value) s).2 := by
  simp only [Kernel.exec]
  cases hwrite : k.write s (join [cgPath, name]) value with
  | error failure => exact settling_of_same hs rfl
  | ok s' =>
      obtain ⟨old, new, hold, hnew, rfl⟩ := k.write_eq_ok hwrite
      have hsettled := settled_join (k := k) files hpaths hcgroup hvalue
      -- the new content is what the request makes of the first one
      have hnew' : some new =
          req.settled k containerCgPath podCgPath files (join [cgPath, name]) := by
        rw [hsettled]
        rcases hs (join [cgPath, name]) with hfirst | hlast
        · rw [hold] at hfirst
          rw [← hfirst, Option.map_some, settle_of_due hdue hfirst.symm, hnew, Option.getD_some]
        · rw [hold, hsettled] at hlast
          obtain ⟨first, hfirst, hsettle⟩ := Option.map_eq_some_iff.mp hlast.symm
          rw [hfirst, Option.map_some, Option.some.injEq, settle_of_due hdue hfirst]
          rw [settle_of_due hdue hfirst] at hsettle
          cases hstored : k.stored (join [cgPath, name]) first value with
          | none =>
              rw [hstored, Option.getD_none] at hsettle
              rw [hsettle, hnew] at hstored
              cases hstored
          | some once =>
              rw [hstored, Option.getD_some] at hsettle
              subst hsettle
              rw [stored_stored (hpaths.rooted_of hcgroup) hvalue hstored,
                Option.some.injEq] at hnew
              rw [Option.getD_some, hnew]
      have hstep : req.SettlingStep k containerCgPath podCgPath files s
          (Function.update s (join [cgPath, name]) (some new)) := by
        intro path
        by_cases hpath : path = join [cgPath, name]
        · subst hpath
          exact Or.inr (by rw [Function.update_self, hnew'])
        · exact Or.inl (Function.update_of_ne hpath _ _)
      have hkept : req.Settling k containerCgPath podCgPath files
          (Function.update s (join [cgPath, name]) (some new)) := by
        intro path
        rcases hstep path with hsame | hlast
        · rw [hsame]
          exact hs path
        · exact Or.inr hlast
      exact ⟨hkept, hstep⟩

/-! ## What an attempt guarantees -/

section Settles

variable {α β : Type}

theorem settles_of_reads {call : CgroupM α}
    (h : Program.Performs (fun op => ¬ op.IsWrite) call.run) :
    req.Settles k containerCgPath podCgPath files call :=
  h.guarantees fun _ hop _ hs => settling_of_same hs (k.exec_state_of_not_write hop _)

theorem settles_wrapError (message : GoString) {call : CgroupM α}
    (h : req.Settles k containerCgPath podCgPath files call) :
    req.Settles k containerCgPath podCgPath files (wrapError message call) :=
  h.bind fun result _ => by cases result <;> exact trivial

theorem settles_writeCgroupFile
    (hpaths : Resolves host req.containerID containerCgPath podCgPath)
    (hcgroup : cgPath = containerCgPath ∨ cgPath = podCgPath)
    (hvalue : (name, value) ∈ controlWrites req.period req.runtime req.core req.onlyRuntime)
    (hdue : req.Due files (join [cgPath, name]) name value) :
    req.Settles k containerCgPath podCgPath files
      (writeCgroupFile (join [cgPath, name]) value) := by
  intro s hs
  refine ⟨settling_write hpaths hcgroup hvalue hdue hs, ?_⟩
  rcases (k.exec (.writeFile (join [cgPath, name]) value) s).1 with (_ | _) | _ <;> exact trivial

/-- A file that the request would leave as it is shows the same at every moment. -/
theorem due_of_settling (hpaths : Resolves host req.containerID containerCgPath podCgPath)
    (hcgroup : cgPath = containerCgPath ∨ cgPath = podCgPath)
    (hvalue : (name, value) ∈ controlWrites req.period req.runtime req.core req.onlyRuntime)
    {s : Files} (hs : req.Settling k containerCgPath podCgPath files s)
    (hnow : req.Due s (join [cgPath, name]) name value) :
    req.Due files (join [cgPath, name]) name value := by
  intro old hold hskips
  apply hnow old _ hskips
  rcases hs (join [cgPath, name]) with hfirst | hlast
  · rw [hfirst, hold]
  · rw [hlast, settled_join files hpaths hcgroup hvalue, hold, Option.map_some, settle,
      if_pos hskips]

/-- The runtime is written without a look at the file. -/
theorem settles_writeRuntimeFile (files : Files)
    (hpaths : Resolves host req.containerID containerCgPath podCgPath)
    (hcgroup : cgPath = containerCgPath ∨ cgPath = podCgPath) :
    req.Settles k containerCgPath podCgPath files
      (writeRuntimeFile cgPath req.grantedRuntime req.core) := by
  rw [writeRuntimeFile_eq]
  refine settles_writeCgroupFile hpaths hcgroup List.mem_cons_self ?_
  intro old _ hskips
  have hother : runtimeFile req.core ≠ cgroupRTPeriod ∧ runtimeFile req.core ≠ cgroupCPUSet := by
    cases req.core
    · exact (by decide : cgroupRTRuntime ≠ cgroupRTPeriod ∧ cgroupRTRuntime ≠ cgroupCPUSet)
    · exact (by decide : cgroupRTMultiRuntime ≠ cgroupRTPeriod ∧
        cgroupRTMultiRuntime ≠ cgroupCPUSet)
  rcases hskips with ⟨hname, -⟩ | ⟨hname, -⟩
  · exact hother.1 hname
  · exact hother.2 hname

/-- The period is written only if the read in front of the write has found another one. -/
theorem settles_updatePeriod (files : Files)
    (hpaths : Resolves host req.containerID containerCgPath podCgPath)
    (hcgroup : cgPath = containerCgPath ∨ cgPath = podCgPath) (hmode : req.onlyRuntime = false) :
    req.Settles k containerCgPath podCgPath files (updatePeriod cgPath req.period) := by
  have hvalue := mem_controlWrites_period hmode
  unfold Settles
  rw [run_updatePeriod]
  intro s hs
  refine ⟨settling_of_same hs (k.exec_readFile_state _ _), ?_⟩
  dsimp only
  split
  · exact trivial
  · next hread =>
      refine settles_writeCgroupFile hpaths hcgroup hvalue ?_
      refine due_of_settling hpaths hcgroup hvalue hs ?_
      rintro old hold (⟨-, hshows⟩ | ⟨hname, -⟩)
      · apply hread
        simp [Kernel.exec, hold, Except.toOption, hshows]
      · exact absurd hname (by decide)

theorem settles_updateCpuSet (files : Files)
    (hpaths : Resolves host req.containerID containerCgPath podCgPath)
    (hcgroup : cgPath = containerCgPath ∨ cgPath = podCgPath) (hmode : req.onlyRuntime = false) :
    req.Settles k containerCgPath podCgPath files (updateCpuSet cgPath req.core) := by
  cases hcore : req.core with
  | none => exact trivial
  | some cpus =>
      have hvalue := mem_controlWrites_cpuSet hmode hcore
      unfold Settles
      rw [run_updateCpuSet]
      intro s hs
      refine ⟨settling_of_same hs (k.exec_readFile_state _ _), ?_⟩
      cases hfile : s (join [cgPath, cgroupCPUSet]) with
      | none =>
          simp only [Kernel.exec, hfile]
          exact trivial
      | some current =>
          simp only [Kernel.exec, hfile]
          split
          · exact trivial
          · next hother =>
              refine settles_writeCgroupFile hpaths hcgroup hvalue ?_
              refine due_of_settling hpaths hcgroup hvalue hs ?_
              rintro old hold (⟨hname, -⟩ | ⟨-, hsame⟩)
              · exact absurd hname (by decide)
              · rw [hfile, Option.some.injEq] at hold
                subst hold
                exact hother hsame

theorem settles_updateOne (files : Files)
    (hpaths : Resolves host req.containerID containerCgPath podCgPath)
    (hcgroup : cgPath = containerCgPath ∨ cgPath = podCgPath) (current : Current) :
    req.Settles k containerCgPath podCgPath files
      (current.updateOne req.period req.runtime req.core req.onlyRuntime cgPath) := by
  have hruntime := settles_writeRuntimeFile (k := k) files hpaths hcgroup
  unfold Current.updateOne
  cases hmode : req.onlyRuntime with
  | true =>
      rw [grantedRuntime, hmode] at hruntime
      exact hruntime
  | false =>
      rw [grantedRuntime, hmode, writtenRuntime, if_neg Bool.false_ne_true,
        ← clampRuntime_eq_max] at hruntime
      have hperiod := settles_updatePeriod (k := k) files hpaths hcgroup hmode
      have hcpuset := settles_updateCpuSet (k := k) files hpaths hcgroup hmode
      rw [if_neg Bool.false_ne_true]
      unfold writeRtValues
      split
      · exact Fallible.guarantees_bind hruntime fun _ =>
          Fallible.guarantees_bind hperiod fun _ => hcpuset
      · exact Fallible.guarantees_bind hperiod fun _ =>
          Fallible.guarantees_bind hruntime fun _ => hcpuset

/-- An attempt keeps every file between what it was and what the request makes of it, as long
as everybody does. -/
theorem settles_apply (hpaths : Resolves host req.containerID containerCgPath podCgPath)
    (files : Files) : req.Settles k containerCgPath podCgPath files (req.apply host) := by
  refine Fallible.guarantees_bind_of_yields
    (settles_of_reads (performs_preflight_reads host req.containerID req.period req.core))
    (yields_preflight host req.containerID req.period req.core) fun current hcurrent => ?_
  obtain ⟨rfl, rfl⟩ := hcurrent.unique hpaths
  have hcontainer := settles_wrapError
    (if req.onlyRuntime then "failed to update container runtime"
      else "failed to update container cgroup RT")
    (settles_updateOne (k := k) files hpaths (Or.inl rfl) current)
  have hpod := settles_wrapError
    (if req.onlyRuntime then "failed to update pod runtime"
      else "failed to update pod cgroup RT")
    (settles_updateOne (k := k) files hpaths (Or.inr rfl) current)
  rw [updateCgroups_eq]
  split
  · exact Fallible.guarantees_bind hcontainer fun _ => hpod
  · exact Fallible.guarantees_bind hpod fun _ => hcontainer

end Settles

/-! ## What a success means -/

/-- The read or the write after which the CPU set is as the request makes it. -/
theorem establishes_cpuSet_exact
    (hpaths : Resolves host req.containerID containerCgPath podCgPath)
    (hcgroup : cgPath = containerCgPath ∨ cgPath = podCgPath)
    (hmode : req.onlyRuntime = false) {cpus : GoString} (hcore : req.core = some cpus) :
    Program.Establishes k.exec
      (OnFile (join [cgPath, cgroupCPUSet]) fun content =>
        trimSpace content = cpus ∨ content = cpus)
      Fallible.Succeeded (req.apply host).run := by
  have hrooted := hpaths.rooted_of hcgroup
  refine establishes_applyCgroup hpaths hcgroup fun current => ?_
  rw [hmode, hcore]
  refine establishes_writeRtValues (Or.inr (Or.inr ?_))
  rw [run_updateCpuSet]
  intro s
  cases hfile : s (join [cgPath, cgroupCPUSet]) with
  | none =>
      right
      simp [Kernel.exec, hfile, Program.Establishes]
  | some content =>
      by_cases hsame : trimSpace content = cpus
      · left
        rw [k.exec_readFile_state]
        exact ⟨content, hfile, Or.inl hsame⟩
      · right
        simp only [Kernel.exec, hfile, if_neg hsame]
        refine establishes_writeCgroupFile fun old new hstored => Or.inr ?_
        rw [k.stored_oneValue hrooted (by decide) (by decide), Option.some.injEq] at hstored
        exact hstored.symm

/-- The file is as the request makes it, if it is one of the two. -/
def Done (k : Kernel) (req : CgroupRequest) (containerCgPath podCgPath : GoString)
    (files : Files) (path : GoString) (s : Files) : Prop :=
  req.Settling k containerCgPath podCgPath files s →
    s path = req.settled k containerCgPath podCgPath files path

theorem done_stable {s t : Files} {path : GoString}
    (hs : req.Settling k containerCgPath podCgPath files s)
    (hstep : req.SettlingStep k containerCgPath podCgPath files s t)
    (hdone : req.Done k containerCgPath podCgPath files path s) :
    req.Done k containerCgPath podCgPath files path t := by
  intro _
  rcases hstep path with hsame | hlast
  · rw [hsame]
    exact hdone hs
  · exact hlast

/-- Files that are all between the two, and those of the request as it makes them. -/
theorem eq_settled {s : Files} (hs : req.Settling k containerCgPath podCgPath files s)
    (hdone : ∀ cgPath, cgPath = containerCgPath ∨ cgPath = podCgPath →
      ∀ name ∈ writtenNames req.core req.onlyRuntime,
        req.Done k containerCgPath podCgPath files (join [cgPath, name]) s) :
    s = req.settled k containerCgPath podCgPath files := by
  funext path
  by_cases htarget : ∃ cgPath, (cgPath = containerCgPath ∨ cgPath = podCgPath) ∧
      ∃ name ∈ writtenNames req.core req.onlyRuntime, path = join [cgPath, name]
  · obtain ⟨cgPath, hcgroup, name, hname, rfl⟩ := htarget
    exact hdone cgPath hcgroup name hname hs
  · have hsame := settled_of_ne (k := k) files fun cgPath hcgroup name hname hpath =>
      htarget ⟨cgPath, hcgroup, name, hname, hpath⟩
    rcases hs path with hfirst | hlast
    · rw [hfirst, hsame]
    · exact hlast

/-- It is enough that the request leaves a file alone that is as it wants it. -/
theorem done_of_onFile (hpaths : Resolves host req.containerID containerCgPath podCgPath)
    (hcgroup : cgPath = containerCgPath ∨ cgPath = podCgPath)
    (hvalue : (name, value) ∈ controlWrites req.period req.runtime req.core req.onlyRuntime)
    {P : GoString → Prop}
    (hfixed : ∀ old, P old → req.settle k (join [cgPath, name]) name value old = old) {s : Files}
    (h : OnFile (join [cgPath, name]) P s) :
    req.Done k containerCgPath podCgPath files (join [cgPath, name]) s := by
  obtain ⟨content, hfile, hcontent⟩ := h
  intro hs
  rcases hs (join [cgPath, name]) with hfirst | hlast
  · rw [settled_join files hpaths hcgroup hvalue, ← hfirst, hfile, Option.map_some,
      hfixed content hcontent]
  · exact hlast

theorem establishes_done_runtime
    (hpaths : Resolves host req.containerID containerCgPath podCgPath)
    (hcgroup : cgPath = containerCgPath ∨ cgPath = podCgPath) :
    Program.Establishes k.exec
      (req.Done k containerCgPath podCgPath files (join [cgPath, runtimeFile req.core]))
      Fallible.Succeeded (req.apply host).run := by
  have hvalue : (runtimeFile req.core, runtimeText req.grantedRuntime req.core) ∈
      controlWrites req.period req.runtime req.core req.onlyRuntime := List.mem_cons_self
  refine (establishes_runtime (k := k) (P := fun new => ∃ old,
      k.stored (join [cgPath, runtimeFile req.core]) old
        (runtimeText req.grantedRuntime req.core) = some new)
    hpaths hcgroup fun old new hstored => ⟨old, hstored⟩).mono fun s hs =>
      done_of_onFile hpaths hcgroup hvalue (fun new hnew => ?_) hs
  obtain ⟨old, hstored⟩ := hnew
  unfold settle
  split
  · rfl
  · rw [stored_stored (hpaths.rooted_of hcgroup) hvalue hstored, Option.getD_some]

theorem establishes_done_period
    (hpaths : Resolves host req.containerID containerCgPath podCgPath)
    (hcgroup : cgPath = containerCgPath ∨ cgPath = podCgPath) (hmode : req.onlyRuntime = false) :
    Program.Establishes k.exec
      (req.Done k containerCgPath podCgPath files (join [cgPath, cgroupRTPeriod]))
      Fallible.Succeeded (req.apply host).run :=
  (establishes_period (k := k) hpaths hcgroup hmode).mono fun _ hs =>
    done_of_onFile hpaths hcgroup (mem_controlWrites_period hmode)
      (fun _ hshows => if_pos (Or.inl ⟨rfl, hshows⟩)) hs

theorem establishes_done_cpuSet
    (hpaths : Resolves host req.containerID containerCgPath podCgPath)
    (hcgroup : cgPath = containerCgPath ∨ cgPath = podCgPath) (hmode : req.onlyRuntime = false)
    {cpus : GoString} (hcore : req.core = some cpus) :
    Program.Establishes k.exec
      (req.Done k containerCgPath podCgPath files (join [cgPath, cgroupCPUSet]))
      Fallible.Succeeded (req.apply host).run := by
  refine (establishes_cpuSet_exact (k := k) hpaths hcgroup hmode hcore).mono fun s hs =>
    done_of_onFile hpaths hcgroup (mem_controlWrites_cpuSet hmode hcore) (fun old hold => ?_) hs
  unfold settle
  split
  · rfl
  · next hwritten =>
      rw [k.stored_oneValue (hpaths.rooted_of hcgroup) (by decide) (by decide), Option.getD_some]
      rcases hold with htrim | hsame
      · exact absurd (Or.inr ⟨rfl, htrim⟩) hwritten
      · exact hsame.symm

/-- A successful attempt has passed, for each of its files, a moment at which the file was
done. -/
theorem establishes_settled (hpaths : Resolves host req.containerID containerCgPath podCgPath)
    (hcgroup : cgPath = containerCgPath ∨ cgPath = podCgPath)
    (hname : name ∈ writtenNames req.core req.onlyRuntime) :
    Program.Establishes k.exec
      (req.Done k containerCgPath podCgPath files (join [cgPath, name]))
      Fallible.Succeeded (req.apply host).run := by
  rcases List.mem_cons.mp hname with rfl | hrest
  · exact establishes_done_runtime hpaths hcgroup
  · -- the period and the CPU set are written only together with the runtime
    cases hmode : req.onlyRuntime with
    | true =>
        rw [hmode] at hrest
        cases hrest
    | false =>
        rw [hmode, if_neg Bool.false_ne_true, List.mem_cons] at hrest
        rcases hrest with rfl | hcpuSet
        · exact establishes_done_period hpaths hcgroup hmode
        · cases hcore : req.core with
          | none =>
              rw [hcore] at hcpuSet
              cases hcpuSet
          | some cpus =>
              rw [hcore] at hcpuSet
              obtain rfl := List.mem_singleton.mp hcpuSet
              exact establishes_done_cpuSet hpaths hcgroup hmode hcore

/-! ## Attempts -/

/-- Calls of `applyCgroup` that are under way or have returned, and the files. -/
abbrev Calls := Pool FileOp FileOp.Answer (Except GoError Unit) Files

/-- Attempts of the request, begun at any time and served side by side. -/
abbrev Attempts (k : Kernel) (host : Host) (req : CgroupRequest) (files : Files)
    (pool : Calls) : Prop :=
  Pool.Reaches k.exec (fun p => p = (req.apply host).run) ⟨[], files⟩ pool

/-- The client sends the request once more. -/
theorem Attempts.start {programs : List (Program FileOp FileOp.Answer (Except GoError Unit))}
    {s : Files} (h : req.Attempts k host files ⟨programs, s⟩) :
    req.Attempts k host files ⟨programs ++ [(req.apply host).run], s⟩ :=
  Relation.ReflTransGen.tail h (.start rfl)

/-- The first attempt, alone. -/
theorem attempts_one (k : Kernel) (host : Host) (req : CgroupRequest) (files : Files) :
    req.Attempts k host files ⟨[(req.apply host).run], files⟩ :=
  .single (.start rfl)

/-- However the attempts overlap, as soon as one of them has succeeded every file is as the
request makes it. -/
theorem Attempts.state_eq_settled {pool : Calls}
    (hpaths : Resolves host req.containerID containerCgPath podCgPath)
    (h : req.Attempts k host files pool) (hok : .ret (.ok ()) ∈ pool.programs) :
    pool.state = req.settled k containerCgPath podCgPath files := by
  have hreaches : Pool.Reaches k.exec (fun p => p = (req.apply host).run) ⟨[], files⟩ pool := h
  have hguarantees : ∀ p, p = (req.apply host).run →
      p.Guarantees k.exec (req.Settling k containerCgPath podCgPath files)
        (req.SettlingStep k containerCgPath podCgPath files) fun _ => True := by
    rintro p rfl
    exact settles_apply hpaths files
  have hinitial : req.Settling k containerCgPath podCgPath files files :=
    fun path => Or.inl rfl
  refine eq_settled (hreaches.guaranteed (by simp) hguarantees hinitial).1
    fun cgPath hcgroup name hname => ?_
  refine hreaches.attained (by simp) hguarantees hinitial (by simp) ?_
    (fun s t hs hstep hdone => done_stable hs hstep hdone) hok (Fallible.succeeded_ok ())
  rintro p rfl
  exact establishes_settled hpaths hcgroup hname

/-- An attempt that is alone and succeeds. -/
theorem finish_eq_settled (hpaths : Resolves host req.containerID containerCgPath podCgPath)
    (hok : req.Succeeds k host files) :
    req.finish k host files = req.settled k containerCgPath podCgPath files := by
  have hrun : req.Attempts k host files
      ⟨[.ret (Program.run k.exec (req.apply host).run files).1], req.finish k host files⟩ :=
    Relation.ReflTransGen.trans (attempts_one k host req files)
      (Pool.reaches_run (i := 0) rfl files)
  refine Attempts.state_eq_settled hpaths hrun ?_
  rw [hok]
  exact List.mem_singleton.mpr rfl

end CgroupRequest

end NodeActuator
end McKube
