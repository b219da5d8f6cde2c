import McKube.NodeActuator.FileTargets

/-!
# The cgroup paths of a well-formed `cgroupsPath`

For a `cgroupsPath` of the form `<slice>:<runtime>:<id>` with plain parts
(`CgroupsPath`), `getCgroupPathsFromInspect` returns the two rooted paths with
the components `podComponents` and `containerComponents`.  Every file that a
request writes lies below the path of its pod (`podOf_requestAction`), and two
pods with different slice names have no such file in common.
-/

namespace McKube
namespace NodeActuator

open AtomicProgram GoLib
open GoLib.filepath (join components rootPath Plain)

/-! ## The two paths -/

/-- The components of the path of the pod with the slice `sliceGroup`. -/
def podComponentsOf (sliceGroup : GoString) : List GoString :=
  ([("sys" : GoString), "fs", "cgroup"] : List GoString) ++
    [("kubepods.slice" : GoString),
      sliceGroup.take (lastIndex sliceGroup "-pod").toNat ++ (".slice" : GoString), sliceGroup]

/-- The name of the scope of a container. -/
def scopeName (runtimeName scopeID : GoString) : GoString :=
  runtimeName ++ ("-" : GoString) ++ scopeID ++ (".scope" : GoString)

section Parts

variable {sliceGroup runtimeName scopeID : GoString}

theorem plain_scopeName (hruntime : '/' ∉ runtimeName) (hscope : '/' ∉ scopeID) :
    Plain (scopeName runtimeName scopeID) := by
  unfold scopeName
  apply filepath.plain_of_length
  · have hsuffix : (".scope" : GoString).length = 6 := rfl
    rw [List.length_append, hsuffix]
    omega
  · intro hslash
    simp only [List.mem_append] at hslash
    rcases hslash with ((hslash | hdash) | hslash) | hsuffix
    · exact hruntime hslash
    · exact absurd hdash (by decide)
    · exact hscope hslash
    · exact absurd hsuffix (by decide)

theorem plain_podComponentsOf (hslice : Plain sliceGroup) :
    ∀ part ∈ podComponentsOf sliceGroup, Plain part := by
  intro part hpart
  simp only [podComponentsOf, List.cons_append, List.nil_append, List.mem_cons, List.not_mem_nil,
    or_false] at hpart
  rcases hpart with rfl | rfl | rfl | rfl | rfl | rfl
  · decide
  · decide
  · decide
  · decide
  · apply filepath.plain_of_length
    · have hsuffix : (".slice" : GoString).length = 6 := rfl
      rw [List.length_append, hsuffix]
      omega
    · intro hslash
      rcases List.mem_append.mp hslash with hinside | hsuffix
      · exact hslice.2.2.2 (List.mem_of_mem_take hinside)
      · exact absurd hsuffix (by decide)
  · exact hslice

/-- The two paths that are built from the three parts of a `cgroupsPath`. -/
theorem cgroupPathsOf_joinWith (hslice : Plain sliceGroup) (hruntime : '/' ∉ runtimeName)
    (hscope : '/' ∉ scopeID) (hcolon : ∀ part ∈ [sliceGroup, runtimeName, scopeID], ':' ∉ part)
    (hpod : 0 < lastIndex sliceGroup "-pod") :
    cgroupPathsOf (joinWith ':' [sliceGroup, runtimeName, scopeID]) =
      .ok (rootPath (podComponentsOf sliceGroup ++ [scopeName runtimeName scopeID]),
        rootPath (podComponentsOf sliceGroup)) := by
  have hplain : ∀ part ∈ podComponentsOf sliceGroup, Plain part := plain_podComponentsOf hslice
  have hroot : cgroupV2Root = rootPath ["sys", "fs", "cgroup"] := by decide
  have hpodPath : join [cgroupV2Root, "kubepods.slice",
      sliceGroup.take (lastIndex sliceGroup "-pod").toNat ++ (".slice" : GoString), sliceGroup] =
      rootPath (podComponentsOf sliceGroup) := by
    rw [hroot]
    exact filepath.join_rootPath (List.cons_ne_nil _ _) hplain
  have hcontainer : join [rootPath (podComponentsOf sliceGroup), scopeName runtimeName scopeID] =
      rootPath (podComponentsOf sliceGroup ++ [scopeName runtimeName scopeID]) := by
    apply filepath.join_rootPath (List.cons_ne_nil _ _)
    intro part hpart
    rcases List.mem_append.mp hpart with hinside | hlast
    · exact hplain part hinside
    · rw [List.mem_singleton.mp hlast]
      exact plain_scopeName hruntime hscope
  unfold cgroupPathsOf
  rw [split_joinWith hcolon (List.cons_ne_nil _ _)]
  dsimp only
  rw [if_neg (not_le.mpr hpod), hpodPath, ← scopeName, hcontainer]

end Parts

/-! ## Well-formed paths -/

/-- A well-formed `cgroupsPath`. -/
structure CgroupsPath where
  sliceGroup : GoString
  runtimeName : GoString
  scopeID : GoString
  slice_plain : Plain sliceGroup
  runtime_plain : Plain runtimeName
  scope_plain : Plain scopeID
  slice_colon : ':' ∉ sliceGroup
  runtime_colon : ':' ∉ runtimeName
  scope_colon : ':' ∉ scopeID
  pod_pos : 0 < lastIndex sliceGroup "-pod"

namespace CgroupsPath

variable (c : CgroupsPath)

def text : GoString := joinWith ':' [c.sliceGroup, c.runtimeName, c.scopeID]

def qosSlice : GoString :=
  c.sliceGroup.take (lastIndex c.sliceGroup "-pod").toNat ++ (".slice" : GoString)

def containerScope : GoString :=
  c.runtimeName ++ ("-" : GoString) ++ c.scopeID ++ (".scope" : GoString)

/-- The components of the path of the pod. -/
def podComponents : List GoString :=
  ([("sys" : GoString), "fs", "cgroup"] : List GoString) ++
    [("kubepods.slice" : GoString), c.qosSlice, c.sliceGroup]

/-- The components of the path of the container. -/
def containerComponents : List GoString := c.podComponents ++ [c.containerScope]

/-- The path of the container lies in the path of the pod. -/
theorem rootPath_containerComponents :
    rootPath c.containerComponents = rootPath c.podComponents ++ '/' :: c.containerScope := by
  simp [containerComponents, podComponents, rootPath, joinWith_cons_cons]

theorem containerScope_plain : Plain c.containerScope :=
  plain_scopeName c.runtime_plain.2.2.2 c.scope_plain.2.2.2

theorem podComponents_plain : ∀ part ∈ c.podComponents, Plain part :=
  plain_podComponentsOf c.slice_plain

theorem containerComponents_plain : ∀ part ∈ c.containerComponents, Plain part := by
  intro part hpart
  rcases List.mem_append.mp hpart with hpod | hscope
  · exact c.podComponents_plain part hpod
  · rw [List.mem_singleton.mp hscope]
    exact c.containerScope_plain

/-- The two paths that are built from the text. -/
theorem cgroupPathsOf_text :
    cgroupPathsOf c.text = .ok (rootPath c.containerComponents, rootPath c.podComponents) := by
  apply cgroupPathsOf_joinWith c.slice_plain c.runtime_plain.2.2.2 c.scope_plain.2.2.2 _ c.pod_pos
  intro part hpart
  simp only [List.mem_cons, List.not_mem_nil, or_false] at hpart
  rcases hpart with rfl | rfl | rfl
  · exact c.slice_colon
  · exact c.runtime_colon
  · exact c.scope_colon

/-- `crictl` and `jq` report this `cgroupsPath` for the container. -/
def ReportedFor (host : Host) (containerID : GoString) : Prop :=
  ∃ inspectOutput cgroupsPathBytes,
    host.crictlInspect (trimPrefix containerID "containerd://") = .ok inspectOutput ∧
    host.jqCgroupsPath inspectOutput = .ok cgroupsPathBytes ∧
    trimSpace cgroupsPathBytes = c.text

theorem text_ne_nil : c.text ≠ [] := by
  have hlength : 0 < c.text.length := by
    simp [text, joinWith_cons_cons]
  exact List.ne_nil_of_length_pos hlength

theorem ReportedFor.resolves {c : CgroupsPath} {host : Host} {containerID : GoString}
    (h : c.ReportedFor host containerID) :
    Resolves host containerID (rootPath c.containerComponents) (rootPath c.podComponents) := by
  obtain ⟨inspectOutput, cgroupsPathBytes, hinspect, hjq, htext⟩ := h
  unfold Resolves getCgroupPathsFromInspect
  simp only [hinspect, hjq, htext, if_neg c.text_ne_nil]
  exact c.cgroupPathsOf_text

end CgroupsPath

/-! ## The pod of a path -/

/-- The first components of a path, down to the directory of a pod. -/
def podOf (path : GoString) : List GoString := (components path).take 6

/-- The file that an action is about. -/
def FileOp.path : FileOp → GoString
  | .stat path => path
  | .readFile path => path
  | .writeFile path _ => path

namespace CgroupsPath

variable {c d : CgroupsPath}

theorem podComponents_ne (hslice : c.sliceGroup ≠ d.sliceGroup) :
    c.podComponents ≠ d.podComponents := by
  intro h
  simp only [podComponents, List.cons_append, List.nil_append, List.cons.injEq, true_and,
    and_true] at h
  exact hslice h.2

theorem podOf_join {cgPath name : GoString}
    (hcgroup : cgPath = rootPath c.containerComponents ∨ cgPath = rootPath c.podComponents)
    (hname : name ∈ controlFiles) : podOf (join [cgPath, name]) = c.podComponents := by
  have hrooted : Rooted cgPath := by
    rcases hcgroup with rfl | rfl
    · exact rooted_rootPath _
    · exact rooted_rootPath _
  unfold podOf
  rw [components_join hrooted hname]
  rcases hcgroup with rfl | rfl
  · rw [filepath.components_rootPath c.containerComponents_plain]
    rfl
  · rw [filepath.components_rootPath c.podComponents_plain]
    rfl

/-- The shared files lie in no pod. -/
theorem podOf_shared_ne {path : GoString} (hpath : path ∈ sharedFiles) :
    podOf path ≠ c.podComponents := by
  -- the directory of a pod is on the sixth level, the shared files are above it
  have hshort : ∀ path ∈ sharedFiles, (podOf path).length ≤ 5 := by decide +kernel
  intro heq
  have hlength := hshort path hpath
  have hsix : c.podComponents.length = 6 := rfl
  rw [heq] at hlength
  omega

/-- An action of a request is on a shared file, which it only reads, or on a
file of its pod. -/
theorem podOf_requestAction {period runtime : Int} {core : Option GoString}
    {onlyRuntime : Bool} {op : FileOp}
    (hop : RequestAction (rootPath c.containerComponents) (rootPath c.podComponents)
      period runtime core onlyRuntime op) :
    (op.path ∈ sharedFiles ∧ ¬ op.IsWrite) ∨ podOf op.path = c.podComponents := by
  have hcgroup : ∀ cgPath, cgPath = rootPath c.containerComponents ∨
      cgPath = rootPath c.podComponents →
      CgroupAction cgPath period runtime core onlyRuntime op → podOf op.path = c.podComponents := by
    intro cgPath hcgPath haction
    cases op with
    | stat path => exact haction.elim
    | readFile path =>
        obtain ⟨name, hname, rfl⟩ := haction
        exact podOf_join hcgPath hname
    | writeFile path value =>
        obtain ⟨name, hname, rfl⟩ := haction
        exact podOf_join hcgPath (mem_controlFiles_of_mem_controlWrites hname)
  rcases hop with hshared | hcontainer | hpod
  · left
    cases op with
    | stat path => exact ⟨hshared, not_false⟩
    | readFile path => exact ⟨hshared, not_false⟩
    | writeFile path value => exact hshared.elim
  · exact Or.inr (hcgroup _ (Or.inl rfl) hcontainer)
  · exact Or.inr (hcgroup _ (Or.inr rfl) hpod)

end CgroupsPath

end NodeActuator
end McKube
