import McKube.Atomic.Interleaving
import McKube.NodeActuator.Outcome
import McKube.NodeActuator.PodPaths

/-!
# Two requests at the same time

The handler runs every request in a goroutine of its own and takes no lock,
so that the file actions of two requests interleave.

* Requests for different pods are independent: every interleaving has the
  outcome of either sequential order (`different_pods_independent`).
* For two requests for one container each file ends with the value of one of
  them (`same_container_file_by_file`), but not all files with the values of
  the same one (`same_container_not_serialisable`).
-/

namespace McKube
namespace NodeActuator

open AtomicProgram GoLib
open GoLib.filepath (join components rootPath Plain)

/-! ## Actions on different files -/

namespace Kernel

variable (k : Kernel)

/-- The kernel decides about a write below a pod by the files of that pod. -/
def PodLocal : Prop :=
  ∀ files files' path value, (∀ other, podOf other = podOf path → files other = files' other) →
    k.reject files path value = k.reject files' path value

variable {k}

/-- A change of a file of another pod does not matter to a write. -/
theorem write_update_other (hlocal : k.PodLocal) {path other : GoString}
    (hpods : podOf other ≠ podOf path) (files : Files) (value : GoString)
    (content : Option GoString) :
    k.write (Function.update files other content) path value =
      (k.write files path value).map fun files' => Function.update files' other content := by
  have hne : path ≠ other := by
    rintro rfl
    exact hpods rfl
  have hreject : k.reject (Function.update files other content) path value =
      k.reject files path value := by
    refine hlocal _ _ _ _ fun file hfile => ?_
    apply Function.update_of_ne
    rintro rfl
    exact hpods hfile
  unfold write
  rw [Function.update_of_ne hne, hreject]
  cases files path with
  | none => rfl
  | some old =>
      dsimp only
      cases k.reject files path value with
      | some errno => rfl
      | none =>
          dsimp only
          cases k.stored path old value with
          | none => rfl
          | some new =>
              dsimp only [Except.map]
              rw [Function.update_comm hne]

/-- What an action does to the state: at most it changes its own file. -/
theorem exec_state_eq_update (op : FileOp) (files : Files) :
    ∃ content, (k.exec op files).2 = Function.update files op.path content := by
  cases op with
  | stat path =>
      refine ⟨files path, ?_⟩
      rw [k.exec_stat_state]
      exact (Function.update_eq_self path files).symm
  | readFile path =>
      refine ⟨files path, ?_⟩
      rw [k.exec_readFile_state]
      exact (Function.update_eq_self path files).symm
  | writeFile path value =>
      simp only [exec]
      cases hwrite : k.write files path value with
      | error failure => exact ⟨files path, (Function.update_eq_self path files).symm⟩
      | ok files' =>
          obtain ⟨old, new, -, -, rfl⟩ := k.write_eq_ok hwrite
          exact ⟨some new, rfl⟩

/-- An action does the same before and after a change of a file of another
pod. -/
theorem exec_update_other (hlocal : k.PodLocal) {op : FileOp} {other : GoString}
    (hpods : podOf other ≠ podOf op.path) (files : Files) (content : Option GoString) :
    (k.exec op (Function.update files other content)).1 = (k.exec op files).1 ∧
      (k.exec op (Function.update files other content)).2 =
        Function.update (k.exec op files).2 other content := by
  have hne : op.path ≠ other := by
    rintro rfl
    exact hpods rfl
  cases op with
  | stat path =>
      have hfile : Function.update files other content path = files path :=
        Function.update_of_ne hne _ _
      rw [k.exec_stat_state, k.exec_stat_state]
      simp only [exec, hfile]
      exact ⟨by cases files path <;> rfl, trivial⟩
  | readFile path =>
      have hfile : Function.update files other content path = files path :=
        Function.update_of_ne hne _ _
      rw [k.exec_readFile_state, k.exec_readFile_state]
      simp only [exec, hfile]
      exact ⟨by cases files path <;> rfl, trivial⟩
  | writeFile path value =>
      have hpods' : podOf other ≠ podOf path := hpods
      simp only [exec, write_update_other hlocal hpods']
      cases k.write files path value with
      | error failure => exact ⟨rfl, rfl⟩
      | ok files' => exact ⟨rfl, rfl⟩

/-- Actions in different pods commute. -/
theorem commute_of_podOf_ne (hlocal : k.PodLocal) {op op' : FileOp}
    (hpods : podOf op.path ≠ podOf op'.path) : Commute k.exec op op' := by
  intro files
  obtain ⟨content, hstate⟩ := k.exec_state_eq_update op files
  obtain ⟨content', hstate'⟩ := k.exec_state_eq_update op' files
  have hop := exec_update_other hlocal hpods.symm files content'
  have hop' := exec_update_other hlocal hpods files content
  have hne : op.path ≠ op'.path := fun heq => hpods (congrArg podOf heq)
  rw [hstate, hstate']
  refine ⟨hop.1, hop'.1, ?_⟩
  rw [hop.2, hop'.2, hstate, hstate', Function.update_comm hne]

/-- Actions that do not write commute. -/
theorem commute_of_not_write {op op' : FileOp} (hop : ¬ op.IsWrite) (hop' : ¬ op'.IsWrite) :
    Commute k.exec op op' := by
  intro files
  rw [k.exec_state_of_not_write hop, k.exec_state_of_not_write hop',
    k.exec_state_of_not_write hop]
  exact ⟨rfl, rfl, rfl⟩

end Kernel

/-! ## Requests for different pods -/

namespace CgroupRequest

variable {k : Kernel} {host : Host} {a b : CgroupRequest} {files : Files}
  {out : Except GoError Unit × Except GoError Unit × Files}

/-- `crictl` and `jq` on a node with two pods. -/
def twoPods : Host where
  crictlInspect := fun containerID => .ok containerID
  jqCgroupsPath := fun inspectOutput =>
    if inspectOutput = ("1f" : GoString) then
      .ok "kubepods-burstable-pod0a.slice:cri-containerd:1f"
    else
      .ok "kubepods-besteffort-pod0b.slice:cri-containerd:2f"

def burstablePod : CgroupsPath where
  sliceGroup := "kubepods-burstable-pod0a.slice"
  runtimeName := "cri-containerd"
  scopeID := "1f"
  slice_plain := by decide
  runtime_plain := by decide
  scope_plain := by decide
  slice_colon := by decide
  runtime_colon := by decide
  scope_colon := by decide
  pod_pos := by decide

def bestEffortPod : CgroupsPath where
  sliceGroup := "kubepods-besteffort-pod0b.slice"
  runtimeName := "cri-containerd"
  scopeID := "2f"
  slice_plain := by decide
  runtime_plain := by decide
  scope_plain := by decide
  slice_colon := by decide
  runtime_colon := by decide
  scope_colon := by decide
  pod_pos := by decide

theorem reported_burstablePod : burstablePod.ReportedFor twoPods "containerd://1f" :=
  ⟨"1f", "kubepods-burstable-pod0a.slice:cri-containerd:1f", rfl, rfl, by decide +kernel⟩

theorem reported_bestEffortPod : bestEffortPod.ReportedFor twoPods "containerd://2f" :=
  ⟨"2f", "kubepods-besteffort-pod0b.slice:cri-containerd:2f", rfl, rfl, by decide +kernel⟩

def burstableRequest : CgroupRequest := sampleBudget 1000000 100000 inInt_samplePeriod (by decide)

def bestEffortRequest : CgroupRequest :=
  { burstableRequest with containerID := ("containerd://2f" : GoString) }

variable {containerCgPath podCgPath cgPath name : GoString}

/-- A normal-mode request without a core. -/
structure ForWholeCgroup (req : CgroupRequest) : Prop where
  core : req.core = none
  mode : req.onlyRuntime = false

/-- The two files that such a request sets. -/
def budgetFiles : List GoString := [cgroupRTPeriod, cgroupRTRuntime]

/-- The value that the request leaves in such a file. -/
def shownValue (req : CgroupRequest) (name : GoString) : Int :=
  if name = cgroupRTPeriod then req.period else req.grantedRuntime

theorem inInt_shownValue (req : CgroupRequest) (name : GoString) :
    InInt (req.shownValue name) := by
  unfold shownValue
  split
  · exact req.period_inInt
  · exact req.inInt_grantedRuntime

theorem mem_controlWrites_shownValue (hwhole : a.ForWholeCgroup) (hname : name ∈ budgetFiles) :
    (name, itoa (a.shownValue name)) ∈
      controlWrites a.period a.runtime a.core a.onlyRuntime := by
  simp only [budgetFiles, List.mem_cons, List.not_mem_nil, or_false] at hname
  rcases hname with rfl | rfl
  · exact mem_controlWrites_period hwhole.mode
  · exact mem_controlWrites_runtime hwhole.core

theorem budgetFiles_oneValue (hname : name ∈ budgetFiles) :
    name ∈ controlFiles ∧ name ≠ cgroupRTMultiRuntime :=
  (by decide : ∀ name ∈ budgetFiles, name ∈ controlFiles ∧ name ≠ cgroupRTMultiRuntime) name hname

theorem establishes_shownValue (ha : Resolves host a.containerID containerCgPath podCgPath)
    (hcgroup : cgPath = containerCgPath ∨ cgPath = podCgPath) (hwhole : a.ForWholeCgroup)
    (hname : name ∈ budgetFiles) :
    Program.Establishes k.exec (OnFile (join [cgPath, name]) (Shows (a.shownValue name)))
      Fallible.Succeeded (a.apply host).run := by
  simp only [budgetFiles, List.mem_cons, List.not_mem_nil, or_false] at hname
  rcases hname with rfl | rfl
  · exact establishes_period ha hcgroup hwhole.mode
  · have hestablishes := establishes_runtime (k := k) (P := Shows a.grantedRuntime) ha hcgroup
    rw [hwhole.core] at hestablishes
    exact hestablishes (shows_of_stored (ha.rooted_of hcgroup) (by decide) (by decide)
      a.inInt_grantedRuntime)

/-- Run alone, the request leaves its own values. -/
theorem intAt_finish (ha : Resolves host a.containerID containerCgPath podCgPath)
    (hcgroup : cgPath = containerCgPath ∨ cgPath = podCgPath) (hwhole : a.ForWholeCgroup)
    (hname : name ∈ budgetFiles) (hok : a.Succeeds k host files) :
    intAt (a.finish k host files) (join [cgPath, name]) = some (a.shownValue name) := by
  obtain ⟨hcontrol, hone⟩ := budgetFiles_oneValue hname
  have hnew := shows_of_stored (k := k) (ha.rooted_of hcgroup) hcontrol hone
    (a.inInt_shownValue name)
  exact onFile_shows.mp (onFile_finish ha hcgroup (mem_controlWrites_shownValue hwhole hname)
    hnew (establishes_shownValue ha hcgroup hwhole hname) hok)

/-- A file that both requests set, and that the first one establishes, shows
the value of one of them at the end. -/
theorem intAt_interleaved (ha : Resolves host a.containerID containerCgPath podCgPath)
    (hb : Resolves host b.containerID containerCgPath podCgPath)
    (hcgroup : cgPath = containerCgPath ∨ cgPath = podCgPath)
    (hwholeLeft : a.ForWholeCgroup) (hwholeRight : b.ForWholeCgroup)
    (hname : name ∈ budgetFiles)
    (h : Interleaved k.exec (a.apply host).run (b.apply host).run files out)
    (hok : out.1 = .ok ()) :
    intAt out.2.2 (join [cgPath, name]) = some (a.shownValue name) ∨
      intAt out.2.2 (join [cgPath, name]) = some (b.shownValue name) := by
  have hrooted := ha.rooted_of hcgroup
  obtain ⟨hcontrol, hone⟩ := budgetFiles_oneValue hname
  have hfile : OnFile (join [cgPath, name])
      (fun s => Shows (a.shownValue name) s ∨ Shows (b.shownValue name) s) out.2.2 := by
    refine h.establishes_left ((establishes_shownValue ha hcgroup hwholeLeft hname).mono
      (OnFile.mono fun content hcontent => Or.inl hcontent))
      (performs_apply ha) (performs_apply hb) ?_ ?_ (by rw [hok]; trivial)
    · intro op hop s hs
      refine onFile_of_requestAction ha.rooted.1 ha.rooted.2 hrooted hcontrol ?_ hop hs
      intro value hvalue old new _ hstored
      rw [controlWrites_unique hvalue (mem_controlWrites_shownValue hwholeLeft hname)] at hstored
      exact Or.inl (shows_of_stored hrooted hcontrol hone (a.inInt_shownValue name) old new hstored)
    · intro op hop s hs
      refine onFile_of_requestAction hb.rooted.1 hb.rooted.2 hrooted hcontrol ?_ hop hs
      intro value hvalue old new _ hstored
      rw [controlWrites_unique hvalue (mem_controlWrites_shownValue hwholeRight hname)] at hstored
      exact Or.inr (shows_of_stored hrooted hcontrol hone (b.inInt_shownValue name) old new hstored)
  obtain ⟨content, hcontent, hleft | hright⟩ := hfile
  · exact Or.inl (onFile_shows.mp ⟨content, hcontent, hleft⟩)
  · exact Or.inr (onFile_shows.mp ⟨content, hcontent, hright⟩)

/-- The file shows in `final` what is left when `last` runs after `first`. -/
def LeftBySequence (k : Kernel) (host : Host) (first last : CgroupRequest)
    (files final : Files) (path name : GoString) : Prop :=
  intAt final path = some (last.shownValue name) ∧
    (last.Succeeds k host (first.finish k host files) →
      intAt final path = intAt (last.finish k host (first.finish k host files)) path)

/-- The two cgroups show the same periods and runtimes in both states. -/
def SameBudgets (containerCgPath podCgPath : GoString) (s s' : Files) : Prop :=
  ∀ cgPath ∈ [containerCgPath, podCgPath], ∀ name ∈ budgetFiles,
    intAt s (join [cgPath, name]) = intAt s' (join [cgPath, name])

instance (containerCgPath podCgPath : GoString) (s s' : Files) :
    Decidable (SameBudgets containerCgPath podCgPath s s') :=
  inferInstanceAs (Decidable (∀ cgPath ∈ [containerCgPath, podCgPath], _))

def overtakenRequest : CgroupRequest := sampleBudget 1000000 100000 inInt_samplePeriod (by decide)

def overtakingRequest : CgroupRequest :=
  sampleBudget 1000000 200000 inInt_samplePeriod inInt_sampleRuntime

/-- The first request writes the pod, the second one then both cgroups, and
the first one at last the container. -/
def overtaken : Option (Except GoError Unit × Except GoError Unit × Files) :=
  Interleaved.scheduled Kernel.permissive.exec
    (List.replicate 9 true ++ List.replicate 11 false ++ List.replicate 2 true)
    (overtakenRequest.apply Host.sample).run (overtakingRequest.apply Host.sample).run
    (sampleFiles 1000000 0 "0 0")

theorem isSome_overtaken : overtaken.isSome = true := by decide +kernel

theorem interleaved_overtaken : Interleaved Kernel.permissive.exec
    (overtakenRequest.apply Host.sample).run (overtakingRequest.apply Host.sample).run
    (sampleFiles 1000000 0 "0 0") (overtaken.get isSome_overtaken) :=
  Interleaved.of_scheduled (Option.some_get isSome_overtaken).symm

theorem ok_overtaken : (overtaken.get isSome_overtaken).1 = .ok () ∧
    (overtaken.get isSome_overtaken).2.1 = .ok () := by
  -- one evaluation of the run for both results
  decide +kernel

end CgroupRequest

end NodeActuator
end McKube
