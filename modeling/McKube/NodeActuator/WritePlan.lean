import McKube.Atomic.Plan
import McKube.NodeActuator.FileTargets
import McKube.NodeActuator.Preflight

/-!
# The order in which a request changes its two cgroups

The view of a state is what the control files of the two cgroups show
(`Settings`).  A request steps through a plan of changes of this view,
`requestPlan`, which depends only on the request and on the values that the
preflight checks have read (`follows_apply`).  A value that is there already
is not written; on the view that makes no difference.
-/

namespace McKube
namespace NodeActuator

open AtomicProgram GoLib
open GoLib.filepath (join components rootPath Plain)

/-! ## The view -/

/-- What the control files of one cgroup show. -/
structure Settings where
  period : Option Int
  runtime : Option Int
  slots : Option (List GoString)
  cpuSet : Option GoString
  deriving DecidableEq, Repr

def settingsAt (files : Files) (cgPath : GoString) : Settings where
  period := intAt files (join [cgPath, cgroupRTPeriod])
  runtime := intAt files (join [cgPath, cgroupRTRuntime])
  slots := (files (join [cgPath, cgroupRTMultiRuntime])).map fields
  cpuSet := (files (join [cgPath, cgroupCPUSet])).map trimSpace

/-- The two cgroups of a request. -/
inductive Member where
  | container
  | pod
  deriving DecidableEq, Repr

/-- The paths of the two cgroups. -/
def pairPath (containerCgPath podCgPath : GoString) : Member → GoString
  | .container => containerCgPath
  | .pod => podCgPath

def settingsOf (paths : Member → GoString) (files : Files) : Member → Settings :=
  fun m => settingsAt files (paths m)

/-! ## The changes -/

namespace Settings

def setPeriod (period : Int) (s : Settings) : Settings := { s with period := some period }

/-- Grant a runtime, on the named CPUs or in the whole cgroup. -/
def grant (k : Kernel) (runtime : Int) : Option GoString → Settings → Settings
  | none, s => { s with runtime := some runtime }
  | some core, s =>
      { s with slots := s.slots.map (setSlots ((k.cpulist core).getD []) (itoa runtime)) }

def pin (core : GoString) (s : Settings) : Settings := { s with cpuSet := some (trimSpace core) }

end Settings

/-- A change of one of the two cgroups. -/
def onMember (m : Member) (change : Settings → Settings) (v : Member → Settings) :
    Member → Settings :=
  Function.update v m (change (v m))

@[simp] theorem onMember_self (m : Member) (change : Settings → Settings)
    (v : Member → Settings) : onMember m change v m = change (v m) :=
  Function.update_self m _ v

@[simp] theorem onMember_of_ne {m m' : Member} (hne : m' ≠ m)
    (change : Settings → Settings) (v : Member → Settings) : onMember m change v m' = v m' :=
  Function.update_of_ne hne _ v

/-- The changes of one cgroup, in order. -/
def memberPlan (k : Kernel) (period runtime : Int) (core : Option GoString)
    (onlyRuntime runtimeFirst : Bool) : List (Settings → Settings) :=
  let grant := Settings.grant k (writtenRuntime runtime onlyRuntime) core
  if onlyRuntime then
    [grant]
  else
    (if runtimeFirst then [grant, Settings.setPeriod period]
      else [Settings.setPeriod period, grant]) ++ (core.map Settings.pin).toList

/-- The changes of both cgroups, in order. -/
def requestPlan (k : Kernel) (current : Current) (period runtime : Int)
    (core : Option GoString) (onlyRuntime : Bool) :
    List ((Member → Settings) → Member → Settings) :=
  let decreasing := current.containerFirst period runtime core onlyRuntime
  let changes := memberPlan k period runtime core onlyRuntime decreasing
  if decreasing then
    changes.map (onMember .container) ++ changes.map (onMember .pod)
  else
    changes.map (onMember .pod) ++ changes.map (onMember .container)

/-- The values that were read matter to the plan only through the flag. -/
theorem requestPlan_congr (k : Kernel) {current current' : Current} {period runtime : Int}
    {core : Option GoString} {onlyRuntime : Bool}
    (hflag : current.containerFirst period runtime core onlyRuntime =
      current'.containerFirst period runtime core onlyRuntime) :
    requestPlan k current period runtime core onlyRuntime =
      requestPlan k current' period runtime core onlyRuntime := by
  unfold requestPlan
  rw [hflag]

/-! ## Writes and the view -/

section Writes

variable {k : Kernel} {files files' : Files} {cgPath cgPath' name value : GoString}

/-- A write to one cgroup does not show in another. -/
theorem settingsAt_write_other (hrooted : Rooted cgPath) (hrooted' : Rooted cgPath')
    (hother : components cgPath' ≠ components cgPath) (hname : name ∈ controlFiles)
    (hwrite : k.write files (join [cgPath, name]) value = .ok files') :
    settingsAt files' cgPath' = settingsAt files cgPath' := by
  obtain ⟨old, new, -, -, rfl⟩ := k.write_eq_ok hwrite
  have hfile : ∀ name' ∈ controlFiles, Function.update files (join [cgPath, name]) (some new)
      (join [cgPath', name']) = files (join [cgPath', name']) := by
    intro name' hname'
    apply Function.update_of_ne
    intro heq
    exact hother (join_eq_join hrooted' hrooted hname' hname heq).1
  unfold settingsAt intAt
  rw [hfile _ (by decide), hfile _ (by decide), hfile _ (by decide), hfile _ (by decide)]

/-- A write to one control file does not show in another of the same cgroup. -/
theorem write_sameCgroup (hrooted : Rooted cgPath) (hname : name ∈ controlFiles)
    {name' : GoString} (hname' : name' ∈ controlFiles) (hne : name' ≠ name)
    (hwrite : k.write files (join [cgPath, name]) value = .ok files') :
    files' (join [cgPath, name']) = files (join [cgPath, name']) := by
  obtain ⟨old, new, -, -, rfl⟩ := k.write_eq_ok hwrite
  exact Function.update_of_ne (join_ne_join hrooted hrooted hname' hname hne) _ _

theorem write_oneValue (hrooted : Rooted cgPath) (hname : name ∈ controlFiles)
    (hone : name ≠ cgroupRTMultiRuntime)
    (hwrite : k.write files (join [cgPath, name]) value = .ok files') :
    files' (join [cgPath, name]) = some value := by
  obtain ⟨old, new, -, hstored, rfl⟩ := k.write_eq_ok hwrite
  rw [k.stored_oneValue hrooted hname hone, Option.some.injEq] at hstored
  rw [hstored, Function.update_self]

theorem settingsAt_write_period (hrooted : Rooted cgPath) {period : Int}
    (hperiod : InInt period)
    (hwrite : k.write files (join [cgPath, cgroupRTPeriod]) (itoa period) = .ok files') :
    settingsAt files' cgPath = (settingsAt files cgPath).setPeriod period := by
  have hname : cgroupRTPeriod ∈ controlFiles := by decide
  have hsame : ∀ name' ∈ controlFiles, name' ≠ cgroupRTPeriod →
      files' (join [cgPath, name']) = files (join [cgPath, name']) :=
    fun name' hname' hne => write_sameCgroup hrooted hname hname' hne hwrite
  unfold settingsAt Settings.setPeriod intAt
  rw [write_oneValue hrooted hname (by decide) hwrite, hsame cgroupRTRuntime (by decide)
    (by decide), hsame cgroupRTMultiRuntime (by decide) (by decide),
    hsame cgroupCPUSet (by decide) (by decide)]
  simp [sscanfInt_itoa hperiod]

theorem settingsAt_write_cpuSet (hrooted : Rooted cgPath) {core : GoString}
    (hwrite : k.write files (join [cgPath, cgroupCPUSet]) core = .ok files') :
    settingsAt files' cgPath = (settingsAt files cgPath).pin core := by
  have hname : cgroupCPUSet ∈ controlFiles := by decide
  have hsame : ∀ name' ∈ controlFiles, name' ≠ cgroupCPUSet →
      files' (join [cgPath, name']) = files (join [cgPath, name']) :=
    fun name' hname' hne => write_sameCgroup hrooted hname hname' hne hwrite
  unfold settingsAt Settings.pin intAt
  rw [write_oneValue hrooted hname (by decide) hwrite, hsame cgroupRTRuntime (by decide)
    (by decide), hsame cgroupRTMultiRuntime (by decide) (by decide),
    hsame cgroupRTPeriod (by decide) (by decide)]
  rfl

theorem settingsAt_write_runtime (hrooted : Rooted cgPath) {runtime : Int}
    (hruntime : InInt runtime) (core : Option GoString)
    (hwrite : k.write files (join [cgPath, runtimeFile core]) (runtimeText runtime core) =
      .ok files') :
    settingsAt files' cgPath = (settingsAt files cgPath).grant k runtime core := by
  cases core with
  | none =>
      have hname : cgroupRTRuntime ∈ controlFiles := by decide
      have hsame : ∀ name' ∈ controlFiles, name' ≠ cgroupRTRuntime →
          files' (join [cgPath, name']) = files (join [cgPath, name']) :=
        fun name' hname' hne => write_sameCgroup hrooted hname hname' hne hwrite
      have hfile : files' (join [cgPath, cgroupRTRuntime]) = some (itoa runtime) :=
        write_oneValue hrooted hname (by decide) hwrite
      unfold settingsAt Settings.grant intAt
      rw [hfile, hsame cgroupRTPeriod (by decide) (by decide),
        hsame cgroupRTMultiRuntime (by decide) (by decide),
        hsame cgroupCPUSet (by decide) (by decide)]
      simp [sscanfInt_itoa hruntime]
  | some core =>
      -- the new text depends on the old one: the other slots keep their words
      have hname : cgroupRTMultiRuntime ∈ controlFiles := by decide
      have hsame : ∀ name' ∈ controlFiles, name' ≠ cgroupRTMultiRuntime →
          files' (join [cgPath, name']) = files (join [cgPath, name']) :=
        fun name' hname' hne => write_sameCgroup hrooted hname hname' hne hwrite
      obtain ⟨old, new, hold, hstored, rfl⟩ := k.write_eq_ok hwrite
      have hold' : files (join [cgPath, cgroupRTMultiRuntime]) = some old := hold
      have hstored' : k.multiRuntime old (core ++ ' ' :: itoa runtime) = some new := by
        rw [← k.stored_multiRuntime hrooted]
        exact hstored
      obtain ⟨named, hnamed, -, hfields⟩ := k.multiRuntime_eq_some hstored'
      unfold settingsAt Settings.grant intAt
      rw [hsame cgroupRTPeriod (by decide) (by decide),
        hsame cgroupRTRuntime (by decide) (by decide),
        hsame cgroupCPUSet (by decide) (by decide), hold']
      simp [runtimeFile, Function.update_self, hfields, hnamed]

end Writes

/-! ## Following the plan -/

section Follows

variable {k : Kernel} {paths : Member → GoString}

/-- The two paths are those of two different cgroups. -/
structure DistinctCgroups (paths : Member → GoString) : Prop where
  rooted : ∀ m, Rooted (paths m)
  distinct : components (paths .container) ≠ components (paths .pod)

theorem DistinctCgroups.ne (h : DistinctCgroups paths) {m m' : Member} (hne : m' ≠ m) :
    components (paths m') ≠ components (paths m) := by
  cases m <;> cases m'
  · exact absurd rfl hne
  · exact h.distinct.symm
  · exact h.distinct
  · exact absurd rfl hne

theorem Resolves.distinctCgroups {host : Host} {containerID containerCgPath podCgPath : GoString}
    (h : Resolves host containerID containerCgPath podCgPath)
    (hdistinct : components containerCgPath ≠ components podCgPath) :
    DistinctCgroups (pairPath containerCgPath podCgPath) := by
  refine ⟨fun m => ?_, hdistinct⟩
  cases m
  · exact h.rooted.1
  · exact h.rooted.2

/-- A write of one cgroup is a change of that member of the view. -/
theorem settingsOf_write (hpaths : DistinctCgroups paths) {files files' : Files}
    {m : Member} {name value : GoString} {change : Settings → Settings}
    (hname : name ∈ controlFiles)
    (hwrite : k.write files (join [paths m, name]) value = .ok files')
    (hchange : settingsAt files' (paths m) = change (settingsAt files (paths m))) :
    settingsOf paths files' = onMember m change (settingsOf paths files) := by
  funext m'
  by_cases hm : m' = m
  · subst hm
    rw [onMember_self]
    exact hchange
  · have hother : settingsAt files' (paths m') = settingsAt files (paths m') :=
      settingsAt_write_other (hpaths.rooted m) (hpaths.rooted m') (hpaths.ne hm) hname hwrite
    rw [onMember_of_ne hm]
    exact hother

theorem follows_writeCgroupFile (hpaths : DistinctCgroups paths) {m : Member}
    {name value : GoString} {change : Settings → Settings} (hname : name ∈ controlFiles)
    (hchange : ∀ files files', k.write files (join [paths m, name]) value = .ok files' →
      settingsAt files' (paths m) = change (settingsAt files (paths m))) (files : Files) :
    Program.Follows k.exec (settingsOf paths) Fallible.Succeeded [onMember m change]
      (writeCgroupFile (join [paths m, name]) value).run files := by
  cases hwrite : k.write files (join [paths m, name]) value with
  | error failure =>
      -- a refused write leaves the files alone and ends the request
      have hexec : k.exec (.writeFile (join [paths m, name]) value) files =
          (.error failure, files) := by
        simp only [Kernel.exec, hwrite]
      refine .act_quiet (by rw [hexec]) ?_
      rw [hexec]
      cases failure <;> exact .ret_failure (Fallible.not_succeeded_error _)
  | ok files' =>
      have hexec : k.exec (.writeFile (join [paths m, name]) value) files = (.ok (), files') := by
        simp only [Kernel.exec, hwrite]
      have hview : settingsOf paths files' = onMember m change (settingsOf paths files) :=
        settingsOf_write hpaths hname hwrite (hchange files files' hwrite)
      refine .act_step (by rw [hexec]; exact hview) ?_
      rw [hexec]
      exact .ret_nil _

/-- A write that is skipped, because the file shows the value already. -/
theorem follows_skip {m : Member} {change : Settings → Settings} {files : Files}
    (hskip : change (settingsAt files (paths m)) = settingsAt files (paths m)) :
    Program.Follows k.exec (settingsOf paths) Fallible.Succeeded [onMember m change]
      (.ret (.ok () : Except GoError Unit)) files := by
  have hview : onMember m change (settingsOf paths files) = settingsOf paths files := by
    unfold onMember
    rw [show change (settingsOf paths files m) = settingsOf paths files m from hskip]
    exact Function.update_eq_self m _
  refine .ret _ ?_ hview
  intro v hv
  simp only [stages_cons, stages_nil, hview, List.mem_cons, List.not_mem_nil, or_false,
    or_self] at hv
  exact hv

theorem follows_wrapError {α : Type} {message : GoString} {call : CgroupM α}
    {plan : List ((Member → Settings) → Member → Settings)} {files : Files}
    (h : Program.Follows k.exec (settingsOf paths) Fallible.Succeeded plan call.run files) :
    Program.Follows k.exec (settingsOf paths) Fallible.Succeeded plan
      (wrapError message call).run files := by
  rw [← List.append_nil plan]
  unfold wrapError
  rw [ExceptT.run_mk]
  rcases hcall : Program.run k.exec call.run files with ⟨e | value, files'⟩
  · apply h.bind_failure (show _ = Program.ret (.error (.wrap message e)) by rw [hcall])
    exact Fallible.not_succeeded_error _
  · have hsuccess : Fallible.Succeeded (Program.run k.exec call.run files).1 := by
      rw [hcall]
      trivial
    apply h.bind_success hsuccess
    rw [hcall]
    exact .ret_nil _

theorem follows_updatePeriod (hpaths : DistinctCgroups paths) (m : Member) {period : Int}
    (hperiod : InInt period) (files : Files) :
    Program.Follows k.exec (settingsOf paths) Fallible.Succeeded
      [onMember m (Settings.setPeriod period)] (updatePeriod (paths m) period).run files := by
  rw [run_updatePeriod]
  refine .act_quiet (by rw [k.exec_readFile_state]) ?_
  rw [k.exec_readFile_state, toOption_exec_readFile, ← intAt]
  by_cases hskip : intAt files (join [paths m, cgroupRTPeriod]) = some period
  · -- the stage of the plan is there, although nothing is written
    rw [if_pos hskip]
    apply follows_skip
    unfold Settings.setPeriod
    rw [← hskip]
    rfl
  · rw [if_neg hskip]
    exact follows_writeCgroupFile hpaths (by decide)
      (fun _ _ hwrite => settingsAt_write_period (hpaths.rooted m) hperiod hwrite) files

theorem follows_writeRuntimeFile (hpaths : DistinctCgroups paths) (m : Member) {runtime : Int}
    (hruntime : InInt runtime) (core : Option GoString) (files : Files) :
    Program.Follows k.exec (settingsOf paths) Fallible.Succeeded
      [onMember m (Settings.grant k runtime core)]
      (writeRuntimeFile (paths m) runtime core).run files := by
  have hname : runtimeFile core ∈ controlFiles := by
    cases core
    · exact (by decide : cgroupRTRuntime ∈ controlFiles)
    · exact (by decide : cgroupRTMultiRuntime ∈ controlFiles)
  rw [writeRuntimeFile_eq]
  exact follows_writeCgroupFile hpaths hname
    (fun _ _ hwrite => settingsAt_write_runtime (hpaths.rooted m) hruntime core hwrite) files

theorem follows_updateCpuSet (hpaths : DistinctCgroups paths) (m : Member)
    (core : Option GoString) (files : Files) :
    Program.Follows k.exec (settingsOf paths) Fallible.Succeeded
      ((core.map Settings.pin).toList.map (onMember m))
      (updateCpuSet (paths m) core).run files := by
  cases core with
  | none => exact .ret_nil _
  | some core =>
      show Program.Follows k.exec (settingsOf paths) Fallible.Succeeded
        [onMember m (Settings.pin core)] (updateCpuSet (paths m) (some core)).run files
      rw [run_updateCpuSet]
      refine .act_quiet (by rw [k.exec_readFile_state]) ?_
      rw [k.exec_readFile_state]
      cases hfile : files (join [paths m, cgroupCPUSet]) with
      | none =>
          simp only [Kernel.exec, hfile]
          exact .ret_failure (Fallible.not_succeeded_error _)
      | some current =>
          simp only [Kernel.exec, hfile]
          by_cases hskip : trimSpace current = core
          · rw [if_pos hskip]
            apply follows_skip
            unfold Settings.pin settingsAt
            rw [hfile, Option.map_some, ← hskip, trimSpace_trimSpace]
          · rw [if_neg hskip]
            exact follows_writeCgroupFile hpaths (by decide)
              (fun _ _ hwrite => settingsAt_write_cpuSet (hpaths.rooted m) hwrite) files

/-- The changes of one cgroup. -/
theorem follows_updateOne (hpaths : DistinctCgroups paths) (m : Member) (current : Current)
    {period runtime : Int} (hperiod : InInt period) (hruntime : InInt runtime)
    (core : Option GoString) (onlyRuntime : Bool) (files : Files) :
    Program.Follows k.exec (settingsOf paths) Fallible.Succeeded
      ((memberPlan k period runtime core onlyRuntime
        (current.containerFirst period runtime core onlyRuntime)).map (onMember m))
      (current.updateOne period runtime core onlyRuntime (paths m)).run files := by
  have hgrant : InInt (writtenRuntime runtime onlyRuntime) :=
    inInt_writtenRuntime hruntime onlyRuntime
  cases onlyRuntime with
  | true => exact follows_writeRuntimeFile hpaths m hgrant core files
  | false =>
      -- the flag of the two files is the flag of the two cgroups
      have hflag : (isDecrease current.podPeriod period ||
          isRuntimeDecrease current.podRuntime runtime ||
          (core.isSome && isRuntimeDecrease current.podMultiRuntime runtime)) =
          current.containerFirst period runtime core false := by
        unfold Current.containerFirst
        rw [if_neg Bool.false_ne_true, Bool.or_comm (isDecrease _ _)]
      unfold Current.updateOne memberPlan writeRtValues
      rw [if_neg Bool.false_ne_true, if_neg Bool.false_ne_true, hflag, clampRuntime_eq_max]
      rw [writtenRuntime, if_neg Bool.false_ne_true] at hgrant ⊢
      cases current.containerFirst period runtime core false with
      | true =>
          simp only [if_true, List.cons_append, List.nil_append, List.map_cons]
          refine Fallible.follows_bind_step
            (follows_writeRuntimeFile hpaths m hgrant core files) fun _ s => ?_
          exact Fallible.follows_bind_step (follows_updatePeriod hpaths m hperiod s)
            fun _ s => follows_updateCpuSet hpaths m core s
      | false =>
          simp only [Bool.false_eq_true, if_false, List.cons_append, List.nil_append,
            List.map_cons]
          refine Fallible.follows_bind_step
            (follows_updatePeriod hpaths m hperiod files) fun _ s => ?_
          exact Fallible.follows_bind_step (follows_writeRuntimeFile hpaths m hgrant core s)
            fun _ s => follows_updateCpuSet hpaths m core s

/-- The changes of both cgroups. -/
theorem follows_updateCgroups (current : Current)
    (hpaths : DistinctCgroups (pairPath current.containerCgPath current.podCgPath))
    {period runtime : Int} (hperiod : InInt period) (hruntime : InInt runtime)
    (core : Option GoString) (onlyRuntime : Bool) (files : Files) :
    Program.Follows k.exec
      (settingsOf (pairPath current.containerCgPath current.podCgPath)) Fallible.Succeeded
      (requestPlan k current period runtime core onlyRuntime)
      (updateCgroups current period runtime core onlyRuntime).run files := by
  have hone := fun m => follows_updateOne (k := k) hpaths m current hperiod hruntime core
    onlyRuntime
  rw [updateCgroups_eq]
  unfold requestPlan Current.updateContainer Current.updatePod
  dsimp only
  by_cases hfirst : current.containerFirst period runtime core onlyRuntime = true
  · rw [if_pos hfirst, if_pos hfirst]
    exact Fallible.follows_bind (follows_wrapError (hone .container files))
      fun _ s _ => follows_wrapError (hone .pod s)
  · rw [if_neg hfirst, if_neg hfirst]
    exact Fallible.follows_bind (follows_wrapError (hone .pod files))
      fun _ s _ => follows_wrapError (hone .container s)

/-- A request follows the plan for the values that it reads of the pod. -/
theorem follows_apply {host : Host} {req : CgroupRequest} {files : Files}
    {containerCgPath podCgPath : GoString}
    (hresolves : Resolves host req.containerID containerCgPath podCgPath)
    (hpaths : DistinctCgroups (pairPath containerCgPath podCgPath))
    {plan : List ((Member → Settings) → Member → Settings)}
    (hplan : ∀ current,
      Preflight host files req.containerID req.period req.core current →
      requestPlan k current req.period req.runtime req.core req.onlyRuntime = plan) :
    Program.Follows k.exec (settingsOf (pairPath containerCgPath podCgPath))
      Fallible.Succeeded plan (req.apply host).run files := by
  have hreads := performs_preflight_reads host req.containerID req.period req.core
  have hquiet : Program.Follows k.exec (settingsOf (pairPath containerCgPath podCgPath))
      Fallible.Succeeded [] (preflight host req.containerID req.period req.core).run files :=
    hreads.follows_nil (fun op hop => k.exec_state_of_not_write hop) files
  refine Fallible.follows_bind hquiet fun current s hrun => ?_
  obtain ⟨rfl, hcurrent⟩ := reads_preflight current s hrun
  obtain ⟨rfl, rfl⟩ := hcurrent.resolves.unique hresolves
  rw [← hplan current hcurrent]
  exact follows_updateCgroups current hpaths req.period_inInt req.runtime_inInt req.core
    req.onlyRuntime s

end Follows

end NodeActuator
end McKube
