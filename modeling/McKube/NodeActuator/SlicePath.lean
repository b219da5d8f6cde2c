import McKube.Ebpf.ContainerID
import McKube.Systemd.Slice

/-!
# Where systemd keeps the cgroup of a pod

systemd nests the slice of a pod in the slices that its name spells out.  The
actuator always goes down two levels: `kubepods.slice`, and the slice in front
of `-pod`.  For a Guaranteed pod these two are one and the same
(`paths_follow_slices_iff`).
-/

namespace McKube
namespace NodeActuator

open GoLib Systemd
open GoLib.filepath (rootPath Plain)
open Ebpf.Monitor (QosClass isLowerHex)

/-- A container in a pod under systemd: the parts of the name of the slice of
the pod, and those of the name of its own scope. -/
structure PodScope where
  qos : QosClass
  uid : GoString
  runtimeName : GoString
  scopeID : GoString
  uid_ne_nil : uid ≠ []
  uid_chars : ∀ c ∈ uid, isLowerHex c = true ∨ c = '_'
  runtime_colon : ':' ∉ runtimeName
  runtime_slash : '/' ∉ runtimeName
  scope_colon : ':' ∉ scopeID
  scope_slash : '/' ∉ scopeID

namespace PodScope

variable (c : PodScope)

/-- The name of the slice of the pod, without its suffix. -/
def stem : GoString := c.qos.slice ++ '-' :: (("pod" : GoString) ++ c.uid)

def sliceGroup : GoString := c.stem ++ (".slice" : GoString)

def cgroupsPath : GoString := joinWith ':' [c.sliceGroup, c.runtimeName, c.scopeID]

/-- The directory of the pod: one level for each slice that its name spells out. -/
def podPath : GoString :=
  rootPath (([("sys" : GoString), "fs", "cgroup"] : List GoString) ++ sliceDirectories c.stem)

def containerPath : GoString := c.podPath ++ '/' :: scopeName c.runtimeName c.scopeID

/-- `crictl inspect` and `jq -r` print the `cgroupsPath` of the container. -/
def PrintedFor (host : Host) (containerID : GoString) : Prop :=
  ∃ inspectOutput, host.crictlInspect containerID = .ok inspectOutput ∧
    host.jqCgroupsPath inspectOutput = .ok (c.cgroupsPath ++ ("\n" : GoString))

/-! ## The name of the slice -/

theorem not_mem_uid {d : Char} (hhex : isLowerHex d = false) (hunderscore : d ≠ '_') :
    d ∉ c.uid := by
  intro hmem
  rcases c.uid_chars d hmem with htrue | heq
  · rw [hhex] at htrue
    cases htrue
  · exact hunderscore heq

theorem not_mem_sliceGroup {d : Char} (hqos : d ∉ c.qos.slice)
    (hfixed : d ∉ ("-pod.slice" : GoString)) (huid : d ∉ c.uid) : d ∉ c.sliceGroup := by
  intro hmem
  simp only [sliceGroup, stem, List.mem_append, List.mem_cons] at hmem
  rcases hmem with (hslice | rfl | hpod | huid') | hsuffix
  · exact hqos hslice
  · exact hfixed List.mem_cons_self
  · exact hfixed (List.mem_cons_of_mem _ (List.mem_append_left (".slice" : GoString) hpod))
  · exact huid huid'
  · exact hfixed (List.mem_append_right ("-pod" : GoString) hsuffix)

theorem sliceGroup_plain : Plain c.sliceGroup := by
  apply filepath.plain_of_length
  · have hsuffix : (".slice" : GoString).length = 6 := rfl
    rw [sliceGroup, List.length_append, hsuffix]
    omega
  · apply c.not_mem_sliceGroup
    · cases c.qos <;> decide
    · decide
    · exact c.not_mem_uid (by decide) (by decide)

theorem sliceGroup_colon : ':' ∉ c.sliceGroup := by
  apply c.not_mem_sliceGroup
  · cases c.qos <;> decide
  · decide
  · exact c.not_mem_uid (by decide) (by decide)

/-- The name of the pod, which is one part of the name of its slice. -/
theorem dash_not_mem_pod : '-' ∉ ("pod" : GoString) ++ c.uid := by
  rw [List.mem_append, not_or]
  exact ⟨by decide, c.not_mem_uid (by decide) (by decide)⟩

/-- The source finds the end of the QoS part. -/
theorem lastIndex_sliceGroup : lastIndex c.sliceGroup "-pod" = c.qos.slice.length := by
  have hparts : c.sliceGroup =
      c.qos.slice ++ '-' :: ("pod" : GoString) ++ (c.uid ++ (".slice" : GoString)) := by
    simp [sliceGroup, stem]
  have hrest : '-' ∉ c.uid ++ (".slice" : GoString) := by
    rw [List.mem_append, not_or]
    exact ⟨c.not_mem_uid (by decide) (by decide), by decide⟩
  rw [hparts]
  exact lastIndex_append_cons c.qos.slice (by decide) hrest

theorem podComponentsOf_sliceGroup :
    podComponentsOf c.sliceGroup =
      ([("sys" : GoString), "fs", "cgroup"] : List GoString) ++
        [("kubepods.slice" : GoString), c.qos.slice ++ (".slice" : GoString), c.sliceGroup] := by
  have htake : c.sliceGroup.take c.qos.slice.length = c.qos.slice := by
    simp [sliceGroup, stem]
  rw [podComponentsOf, lastIndex_sliceGroup, Int.toNat_natCast, htake]

/-- The slices of the pod are those of its QoS class, and its own. -/
theorem sliceDirectories_stem :
    sliceDirectories c.stem = sliceDirectories c.qos.slice ++ [c.sliceGroup] :=
  sliceDirectories_append c.qos.slice c.dash_not_mem_pod

/-! ## The two paths -/

/-- The output of `jq` is trimmed, and with it the end of the scope id. -/
theorem trimSpace_cgroupsPath :
    trimSpace (c.cgroupsPath ++ ("\n" : GoString)) =
      joinWith ':' [c.sliceGroup, c.runtimeName, c.scopeID.rdropWhile isSpace] := by
  obtain ⟨first, rest, hslice, hfirst⟩ : ∃ first rest,
      c.sliceGroup = first :: rest ∧ isSpace first = false := by
    have hqos : ∃ rest, c.qos.slice = 'k' :: rest := by
      cases c.qos
      · exact ⟨_, rfl⟩
      · exact ⟨_, rfl⟩
      · exact ⟨_, rfl⟩
    obtain ⟨rest, hrest⟩ := hqos
    exact ⟨'k', _, by rw [sliceGroup, stem, hrest]; rfl, by decide⟩
  have htext : c.cgroupsPath ++ ("\n" : GoString) =
      first :: (rest ++ ':' :: c.runtimeName) ++ ':' :: (c.scopeID ++ ("\n" : GoString)) := by
    simp [cgroupsPath, joinWith_cons_cons, hslice]
  have hnewline : (c.scopeID ++ ("\n" : GoString)).rdropWhile isSpace =
      c.scopeID.rdropWhile isSpace :=
    List.rdropWhile_concat_pos isSpace c.scopeID '\n' (by decide)
  rw [htext, trimSpace_append_cons hfirst (by decide), hnewline]
  simp [joinWith_cons_cons, hslice]

/-- What the source makes of the output of `jq`. -/
theorem getCgroupPathsFromInspect_eq {host : Host} {containerID : GoString}
    (h : c.PrintedFor host containerID) :
    getCgroupPathsFromInspect host containerID =
      .ok (rootPath (podComponentsOf c.sliceGroup) ++
          '/' :: scopeName c.runtimeName (c.scopeID.rdropWhile isSpace),
        rootPath (podComponentsOf c.sliceGroup)) := by
  obtain ⟨inspectOutput, hinspect, hjq⟩ := h
  have hnotNil : joinWith ':' [c.sliceGroup, c.runtimeName, c.scopeID.rdropWhile isSpace] ≠ [] := by
    simp [joinWith_cons_cons]
  have hsub : ∀ d ∈ c.scopeID.rdropWhile isSpace, d ∈ c.scopeID := fun d hd =>
    (List.rdropWhile_prefix isSpace _).subset hd
  have hne : podComponentsOf c.sliceGroup ≠ [] := List.cons_ne_nil _ _
  have hpos : 0 < lastIndex c.sliceGroup "-pod" := by
    rw [lastIndex_sliceGroup]
    cases c.qos <;> decide
  have hpaths := cgroupPathsOf_joinWith c.sliceGroup_plain c.runtime_slash
    (fun hslash => c.scope_slash (hsub _ hslash))
    (fun part hpart => by
      simp only [List.mem_cons, List.not_mem_nil, or_false] at hpart
      rcases hpart with rfl | rfl | rfl
      · exact c.sliceGroup_colon
      · exact c.runtime_colon
      · exact fun hcolon => c.scope_colon (hsub _ hcolon)) hpos
  unfold getCgroupPathsFromInspect
  simp only [hinspect, hjq, trimSpace_cgroupsPath, if_neg hnotNil, hpaths]
  rw [filepath.rootPath_concat hne]

/-- The two levels of the source are the levels of systemd. -/
theorem podPath_eq_iff :
    rootPath (podComponentsOf c.sliceGroup) = c.podPath ↔ c.qos ≠ .guaranteed := by
  rw [podComponentsOf_sliceGroup, podPath, sliceDirectories_stem]
  cases c.qos with
  | guaranteed =>
      -- `kubepods.slice` comes twice
      have hslices : sliceDirectories QosClass.guaranteed.slice = [("kubepods.slice" : GoString)] := by
        decide
      rw [hslices]
      constructor
      · intro h
        have hlength := congrArg List.length h
        simp [rootPath, joinWith_cons_cons] at hlength
        omega
      · exact fun hne => absurd rfl hne
  | burstable =>
      have hslices : sliceDirectories QosClass.burstable.slice =
          [("kubepods.slice" : GoString), "kubepods-burstable.slice"] := by decide
      rw [hslices]
      constructor
      · intro _ heq
        cases heq
      · exact fun _ => rfl
  | besteffort =>
      have hslices : sliceDirectories QosClass.besteffort.slice =
          [("kubepods.slice" : GoString), "kubepods-besteffort.slice"] := by decide
      rw [hslices]
      constructor
      · intro _ heq
        cases heq
      · exact fun _ => rfl

/-- The source finds the directories of the pod and of the container iff the pod
is not Guaranteed, and the scope id does not end in white space. -/
theorem paths_follow_slices_iff {host : Host} {containerID : GoString}
    (h : c.PrintedFor host containerID) :
    getCgroupPathsFromInspect host containerID = .ok (c.containerPath, c.podPath) ↔
      c.qos ≠ .guaranteed ∧ ¬ EndsInSpace c.scopeID := by
  rw [c.getCgroupPathsFromInspect_eq h, Except.ok.injEq, Prod.mk.injEq, podPath_eq_iff, containerPath,
    and_comm, and_congr_right_iff]
  intro hqos
  rw [c.podPath_eq_iff.mpr hqos, List.append_cancel_left_eq, List.cons.injEq, scopeName, scopeName,
    List.append_cancel_right_eq, List.append_cancel_left_eq, rdropWhile_isSpace_eq_self_iff]
  exact and_iff_right rfl

/-! ## A pod of each class -/

theorem sampleUid_ne_nil : ("7c_4e" : GoString) ≠ [] := List.cons_ne_nil _ _

theorem sampleUid_chars : ∀ c ∈ ("7c_4e" : GoString), isLowerHex c = true ∨ c = '_' := by
  intro c hc
  have hall : ("7c_4e" : GoString).all (fun c => isLowerHex c || c == '_') = true := by decide
  have hchar := List.all_eq_true.mp hall c hc
  rwa [Bool.or_eq_true, beq_iff_eq] at hchar

theorem sampleRuntime_colon : ':' ∉ ("cri-containerd" : GoString) := by decide

theorem sampleRuntime_slash : '/' ∉ ("cri-containerd" : GoString) := by decide

theorem sampleScope_colon : ':' ∉ ("1f" : GoString) := by decide

theorem sampleScope_slash : '/' ∉ ("1f" : GoString) := by decide

def sample (qos : QosClass) : PodScope where
  qos := qos
  uid := "7c_4e"
  runtimeName := "cri-containerd"
  scopeID := "1f"
  uid_ne_nil := sampleUid_ne_nil
  uid_chars := sampleUid_chars
  runtime_colon := sampleRuntime_colon
  runtime_slash := sampleRuntime_slash
  scope_colon := sampleScope_colon
  scope_slash := sampleScope_slash

/-- `crictl` and `jq` on a node with this container. -/
def sampleHost (qos : QosClass) : Host where
  crictlInspect := fun _ => .ok "inspect output"
  jqCgroupsPath := fun _ => .ok ((sample qos).cgroupsPath ++ ("\n" : GoString))

theorem printedFor_sample (qos : QosClass) : (sample qos).PrintedFor (sampleHost qos) "1f" :=
  ⟨"inspect output", rfl, rfl⟩

theorem paths_follow_slices_iff_sample :
    getCgroupPathsFromInspect (sampleHost .burstable) "1f" =
        .ok ((sample .burstable).containerPath, (sample .burstable).podPath) ↔
      QosClass.burstable ≠ .guaranteed ∧ ¬ EndsInSpace (sample .burstable).scopeID :=
  paths_follow_slices_iff (sample .burstable) (printedFor_sample .burstable)

/-- The directory of a Guaranteed pod is looked for one level too deep. -/
theorem paths_follow_slices_fails :
    (sample .guaranteed).PrintedFor (sampleHost .guaranteed) "1f" ∧
    (sample .guaranteed).cgroupsPath = ("kubepods-pod7c_4e.slice:cri-containerd:1f" : GoString) ∧
    (sample .guaranteed).podPath =
      ("/sys/fs/cgroup/kubepods.slice/kubepods-pod7c_4e.slice" : GoString) ∧
    (∀ paths, getCgroupPathsFromInspect (sampleHost .guaranteed) "1f" = .ok paths →
      paths.2 =
        ("/sys/fs/cgroup/kubepods.slice/kubepods.slice/kubepods-pod7c_4e.slice" : GoString)) ∧
    getCgroupPathsFromInspect (sampleHost .guaranteed) "1f" ≠
      .ok ((sample .guaranteed).containerPath, (sample .guaranteed).podPath) := by
  refine ⟨printedFor_sample _, by decide, by decide, fun paths hpaths => ?_, by decide +kernel⟩
  rw [(sample .guaranteed).getCgroupPathsFromInspect_eq (printedFor_sample _)] at hpaths
  cases hpaths
  decide +kernel

end PodScope

end NodeActuator
end McKube
