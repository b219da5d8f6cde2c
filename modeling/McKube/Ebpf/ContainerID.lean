import McKube.GoLib.Regexp
import McKube.NodeActuator.PodPaths

/-!
# Container ids in cgroup paths

The actuator builds the path of a container from its id, and the monitor finds
the id in the path with a regular expression.

* `extractContainerID_eq_some_iff`: the extractor finds the leftmost id.
* `extractContainerID_append`: directories without the name of a runtime in them
  are skipped.
* `extractContainerID_paths`: the monitor reads the id back from the path of the
  container, and finds none in the path of the pod.
-/

namespace McKube.Ebpf.Monitor

open GoLib NodeActuator
open GoLib.filepath (rootPath Plain)

/-! ## The extractor -/

/-- The class `[a-f0-9]`. -/
def isLowerHex (c : Char) : Bool := ('a' ≤ c && c ≤ 'f') || ('0' ≤ c && c ≤ '9')

/-- `(?:cri-containerd-|docker-|crio-)([a-f0-9]{64})`. -/
def reContainerID : Regexp :=
  .concat (.alternate (.alternate (.literal "cri-containerd-") (.literal "docker-"))
    (.literal "crio-")) (.capture (.repeatClass isLowerHex 64))

def extractContainerID (path : GoString) : Option GoString :=
  match reContainerID.findStringSubmatch path with
  | some m => m[1]?
  | none => none

/-! ## The leftmost id -/

/-- 64 lowercase hexadecimal digits. -/
def IsContainerID (id : GoString) : Prop := id.length = 64 ∧ ∀ c ∈ id, isLowerHex c = true

/-- The names of the runtimes, with their dash. -/
def runtimeNames : List GoString := ["cri-containerd-", "docker-", "crio-"]

/-- The text starts with the name of a runtime and the id. -/
def StartsWithID (s id : GoString) : Prop :=
  IsContainerID id ∧ ∃ name ∈ runtimeNames, name ++ id <+: s

/-- The id at the first place of the text that has one. -/
def LeftmostID (text id : GoString) : Prop :=
  ∃ before rest, text = before ++ rest ∧ StartsWithID rest id ∧
    ∀ a b, before = a ++ b → b ≠ [] → ∀ other, ¬ StartsWithID (b ++ rest) other

theorem mem_runs_reContainerID {s : GoString} {m : List GoString × GoString} :
    m ∈ reContainerID.runs s ↔
      ∃ id, IsContainerID id ∧ m.1 = [id] ∧ ∃ name ∈ runtimeNames, s = name ++ (id ++ m.2) := by
  have hnames : ∀ {m₁ : List GoString × GoString},
      m₁ ∈ (Regexp.alternate (.alternate (.literal "cri-containerd-") (.literal "docker-"))
          (.literal "crio-")).runs s ↔ m₁.1 = [] ∧ ∃ name ∈ runtimeNames, s = name ++ m₁.2 := by
    intro m₁
    simp only [Regexp.mem_runs_alternate, Regexp.mem_runs_literal, runtimeNames, List.mem_cons,
      List.not_mem_nil, or_false, exists_eq_or_imp, exists_eq_left, or_assoc, and_or_left]
  have hid : ∀ {m₁ : GoString} {m₂ : List GoString × GoString},
      m₂ ∈ (Regexp.capture (.repeatClass isLowerHex 64)).runs m₁ ↔
        ∃ id, IsContainerID id ∧ m₂.1 = [id] ∧ m₁ = id ++ m₂.2 := by
    rintro text ⟨groups, rest⟩
    rw [Regexp.mem_runs_capture]
    constructor
    · rintro ⟨⟨groups', rest'⟩, hmem, heq⟩
      obtain ⟨rfl, id, hlength, hclass, rfl⟩ := Regexp.mem_runs_repeatClass.mp hmem
      cases heq
      exact ⟨id, ⟨hlength, hclass⟩, by simp, rfl⟩
    · rintro ⟨id, ⟨hlength, hclass⟩, rfl, rfl⟩
      refine ⟨([], rest), ?_, by simp⟩
      exact Regexp.mem_runs_repeatClass.mpr ⟨rfl, id, hlength, hclass, rfl⟩
  obtain ⟨groups, rest⟩ := m
  rw [reContainerID, Regexp.mem_runs_concat]
  constructor
  · rintro ⟨m₁, hm₁, m₂, hm₂, heq⟩
    obtain ⟨hnil, name, hname, rfl⟩ := hnames.mp hm₁
    obtain ⟨id, his, hgroup, hrest⟩ := hid.mp hm₂
    cases heq
    exact ⟨id, his, by rw [hnil, hgroup]; rfl, name, hname, by rw [hrest]⟩
  · rintro ⟨id, his, rfl, name, hname, rfl⟩
    exact ⟨([], id ++ rest), hnames.mpr ⟨rfl, name, hname, rfl⟩, ([id], rest),
      hid.mpr ⟨id, his, rfl, rfl⟩, rfl⟩

/-- No name of a runtime is the beginning of another one. -/
theorem runtimeNames_prefix_free {name other : GoString} (hname : name ∈ runtimeNames)
    (hother : other ∈ runtimeNames) (hstart : name <+: other) : name = other := by
  have hall : ∀ name ∈ runtimeNames, ∀ other ∈ runtimeNames, name <+: other → name = other := by
    decide
  exact hall name hname other hother hstart

theorem StartsWithID.unique {s id other : GoString} (h : StartsWithID s id)
    (h' : StartsWithID s other) : id = other := by
  obtain ⟨hid, name, hname, hstart⟩ := h
  obtain ⟨hother, name', hname', hstart'⟩ := h'
  have hnames : name = name' := by
    rcases List.prefix_or_prefix_of_prefix ((List.prefix_append name id).trans hstart)
      ((List.prefix_append name' other).trans hstart') with hshorter | hlonger
    · exact runtimeNames_prefix_free hname hname' hshorter
    · exact (runtimeNames_prefix_free hname' hname hlonger).symm
  subst hnames
  have hlength : (name ++ id).length = (name ++ other).length := by
    rw [List.length_append, List.length_append, hid.1, hother.1]
  have heq : name ++ id = name ++ other :=
    (List.prefix_of_prefix_length_le hstart hstart' (le_of_eq hlength)).eq_of_length hlength
  exact List.append_cancel_left heq

theorem startsWithID_of_matchHere {s : GoString} {m : List GoString}
    (h : reContainerID.matchHere s = some m) : ∃ id, m[1]? = some id ∧ StartsWithID s id := by
  obtain ⟨run, hrun, rfl⟩ := Option.map_eq_some_iff.mp h
  obtain ⟨id, hid, hgroups, name, hname, hs⟩ :=
    mem_runs_reContainerID.mp (List.mem_of_head? hrun)
  refine ⟨id, by rw [hgroups]; rfl, hid, name, hname, run.2, ?_⟩
  rw [hs, List.append_assoc]

theorem matchHere_of_startsWithID {s id : GoString} (h : StartsWithID s id) :
    ∃ m, reContainerID.matchHere s = some m ∧ m[1]? = some id := by
  obtain ⟨hid, name, hname, rest, hs⟩ := h
  have hmem : ([id], rest) ∈ reContainerID.runs s :=
    mem_runs_reContainerID.mpr ⟨id, hid, rfl, name, hname, by rw [← hs, List.append_assoc]⟩
  have hsome : reContainerID.matchHere s ≠ none := by
    rw [Ne, Regexp.matchHere_eq_none_iff]
    exact List.ne_nil_of_mem hmem
  obtain ⟨m, hm⟩ := Option.ne_none_iff_exists'.mp hsome
  obtain ⟨other, hother, hstart⟩ := startsWithID_of_matchHere hm
  exact ⟨m, hm, by rw [hother, hstart.unique ⟨hid, name, hname, rest, hs⟩]⟩

theorem matchHere_eq_none_iff_not_startsWithID {s : GoString} :
    reContainerID.matchHere s = none ↔ ∀ id, ¬ StartsWithID s id := by
  constructor
  · intro hmatch id hstart
    obtain ⟨m, hm, -⟩ := matchHere_of_startsWithID hstart
    rw [hmatch] at hm
    cases hm
  · intro hno
    rw [Option.eq_none_iff_forall_ne_some]
    intro m hm
    obtain ⟨id, -, hstart⟩ := startsWithID_of_matchHere hm
    exact hno id hstart

/-- The extractor finds the leftmost id. -/
theorem extractContainerID_eq_some_iff {path id : GoString} :
    extractContainerID path = some id ↔ LeftmostID path id := by
  unfold extractContainerID
  constructor
  · intro hfound
    split at hfound
    · next m hm =>
        obtain ⟨before, rest, rfl, hmatch, hfirst⟩ := Regexp.findStringSubmatch_eq_some_iff.mp hm
        obtain ⟨id', hid', hstart⟩ := startsWithID_of_matchHere hmatch
        rw [hid', Option.some.injEq] at hfound
        subst hfound
        refine ⟨before, rest, rfl, hstart, fun a b hsplit hne => ?_⟩
        exact matchHere_eq_none_iff_not_startsWithID.mp (hfirst a b hsplit hne)
    · cases hfound
  · rintro ⟨before, rest, rfl, hstart, hfirst⟩
    obtain ⟨m, hmatch, hid⟩ := matchHere_of_startsWithID hstart
    have hfound : reContainerID.findStringSubmatch (before ++ rest) = some m := by
      apply Regexp.findStringSubmatch_eq_some_iff.mpr
      refine ⟨before, rest, rfl, hmatch, fun a b hsplit hne => ?_⟩
      exact matchHere_eq_none_iff_not_startsWithID.mpr (hfirst a b hsplit hne)
    rw [hfound]
    exact hid

theorem LeftmostID.isContainerID {text id : GoString} (h : LeftmostID text id) :
    IsContainerID id := by
  obtain ⟨_, _, -, hstart, -⟩ := h
  exact hstart.1

/-! ## Text without the name of a runtime -/

/-- No `r` is followed by `i` or `-`.  The name of a runtime, with its dash, has
such a place. -/
def RuntimeFree (s : GoString) : Prop :=
  s.IsChain fun a b => ¬ (a = 'r' ∧ (b = 'i' ∨ b = '-'))

instance (s : GoString) : Decidable (RuntimeFree s) :=
  inferInstanceAs (Decidable (s.IsChain fun a b => ¬ (a = 'r' ∧ (b = 'i' ∨ b = '-'))))

theorem leading_reContainerID {text : GoString} (htext : text ∈ reContainerID.leading) :
    ¬ RuntimeFree text ∧ '/' ∉ text := by
  have hall : ∀ text ∈ reContainerID.leading, ¬ RuntimeFree text ∧ '/' ∉ text := by decide
  exact hall text htext

theorem runtimeFree_of_start {s t : GoString} (h : RuntimeFree t) (hstart : s <+: t) :
    RuntimeFree s := by
  exact List.IsChain.prefix h hstart

theorem runtimeFree_of_not_mem {s : GoString} (h : 'r' ∉ s) : RuntimeFree s := by
  induction s with
  | nil => exact .nil
  | cons c s ih =>
      rw [List.mem_cons, not_or] at h
      refine List.isChain_cons.mpr ⟨fun _ _ hbad => h.1 hbad.1.symm, ih h.2⟩

theorem runtimeFree_append {s t : GoString} (hs : RuntimeFree s) (ht : RuntimeFree t)
    (hlast : 'r' ∉ s.getLast?) : RuntimeFree (s ++ t) := by
  refine List.isChain_append.mpr ⟨hs, ht, fun a ha _ _ hbad => hlast ?_⟩
  rw [← hbad.1]
  exact ha

theorem runtimeFree_append_cons {s t : GoString} {c : Char} (hs : RuntimeFree s)
    (ht : RuntimeFree (c :: t)) (hc : c ≠ 'i' ∧ c ≠ '-') : RuntimeFree (s ++ c :: t) := by
  refine List.isChain_append.mpr ⟨hs, ht, fun a _ b hb hbad => ?_⟩
  rw [List.head?_cons, Option.mem_some_iff] at hb
  subst hb
  exact hbad.2.elim hc.1 hc.2

theorem runtimeFree_slash {s : GoString} (hs : RuntimeFree s) : RuntimeFree ('/' :: s) := by
  refine List.isChain_cons.mpr ⟨fun _ _ hbad => ?_, hs⟩
  exact absurd hbad.1 (by decide)

theorem runtimeFree_joinWith {parts : List GoString} (h : ∀ part ∈ parts, RuntimeFree part) :
    RuntimeFree (joinWith '/' parts) := by
  induction parts with
  | nil => exact .nil
  | cons part parts ih =>
      rw [List.forall_mem_cons] at h
      cases parts with
      | nil =>
          rw [joinWith, List.intercalate_singleton]
          exact h.1
      | cons next parts =>
          rw [joinWith_cons_cons]
          exact runtimeFree_append_cons h.1 (runtimeFree_slash (ih h.2)) (by decide)

theorem runs_of_runtimeFree {s : GoString} (h : RuntimeFree s) : reContainerID.runs s = [] := by
  apply Regexp.runs_eq_nil_of_leading
  intro text htext hprefix
  exact (leading_reContainerID htext).1 (runtimeFree_of_start h hprefix)

/-- No literal reaches over the end of a directory. -/
theorem runs_append_slash {s t : GoString} (h : RuntimeFree s) :
    reContainerID.runs (s ++ '/' :: t) = [] := by
  apply Regexp.runs_eq_nil_of_leading
  intro text htext hprefix
  obtain ⟨hruntime, hslash⟩ := leading_reContainerID htext
  have hdirectory : s ++ ['/'] <+: s ++ '/' :: t := ⟨t, by simp⟩
  -- the literal ends before the slash, or it contains the slash
  rcases List.prefix_or_prefix_of_prefix hprefix hdirectory with hinside | hoverrun
  · have hfree : RuntimeFree (s ++ ['/']) :=
      runtimeFree_append_cons h (List.isChain_singleton '/') (by decide)
    exact hruntime (runtimeFree_of_start hfree hinside)
  · exact hslash (hoverrun.subset (by simp))

theorem extractContainerID_eq_none {s : GoString} (h : RuntimeFree s) :
    extractContainerID s = none := by
  have hnone : reContainerID.findStringSubmatch s = none := by
    apply Regexp.findStringSubmatch_eq_none
    rintro a b rfl
    exact runs_of_runtimeFree (h.suffix (List.suffix_append a b))
  rw [extractContainerID, hnone]

theorem extractContainerID_append {s : GoString} (h : RuntimeFree s) (t : GoString) :
    extractContainerID (s ++ '/' :: t) = extractContainerID t := by
  have hskip : reContainerID.findStringSubmatch (s ++ ['/'] ++ t) =
      reContainerID.findStringSubmatch t := by
    apply Regexp.findStringSubmatch_append
    intro a b hsplit hne
    -- what is left of the directory ends with its slash
    rcases List.eq_nil_or_concat b with rfl | ⟨b', c, rfl⟩
    · exact absurd rfl hne
    · rw [List.concat_eq_append, ← List.append_assoc] at hsplit
      obtain ⟨rfl, hlast⟩ := List.append_inj' hsplit rfl
      cases hlast
      rw [List.concat_eq_append, List.append_assoc, List.singleton_append]
      exact runs_append_slash (h.suffix (List.suffix_append a b'))
  rw [List.append_assoc, List.singleton_append] at hskip
  rw [extractContainerID, hskip]
  rfl

/-! ## The paths of a pod -/

/-- The first part of the name of a pod slice, by the QoS class of the pod. -/
inductive QosClass where
  | guaranteed
  | burstable
  | besteffort

def QosClass.slice : QosClass → GoString
  | .guaranteed => "kubepods"
  | .burstable => "kubepods-burstable"
  | .besteffort => "kubepods-besteffort"

inductive ContainerRuntime where
  | criContainerd
  | docker
  | crio

def ContainerRuntime.name : ContainerRuntime → GoString
  | .criContainerd => "cri-containerd"
  | .docker => "docker"
  | .crio => "crio"

/-- The `cgroupsPath` of a container in a pod under systemd. -/
structure PodContainer where
  qos : QosClass
  uid : GoString
  runtime : ContainerRuntime
  id : GoString
  uid_ne_nil : uid ≠ []
  uid_chars : ∀ c ∈ uid, isLowerHex c = true ∨ c = '_'
  id_length : id.length = 64
  id_chars : ∀ c ∈ id, isLowerHex c = true

namespace PodContainer

variable (k : PodContainer)

def sliceGroup : GoString := k.qos.slice ++ ("-pod" : GoString) ++ (k.uid ++ (".slice" : GoString))

theorem not_mem_uid {c : Char} (hhex : isLowerHex c = false) (hunderscore : c ≠ '_') :
    c ∉ k.uid := by
  intro hmem
  rcases k.uid_chars c hmem with htrue | heq
  · rw [hhex] at htrue
    cases htrue
  · exact hunderscore heq

theorem not_mem_id {c : Char} (hhex : isLowerHex c = false) : c ∉ k.id := by
  intro hmem
  have htrue := k.id_chars c hmem
  rw [hhex] at htrue
  cases htrue

/-- A rune that is in no fixed part of the name of the slice. -/
theorem not_mem_sliceGroup {c : Char} (hqos : c ∉ k.qos.slice)
    (hfixed : c ∉ ("-pod.slice" : GoString)) (huid : c ∉ k.uid) : c ∉ k.sliceGroup := by
  intro hmem
  simp only [sliceGroup, List.mem_append] at hmem
  rcases hmem with (hslice | hpod) | huid' | hsuffix
  · exact hqos hslice
  · exact hfixed (List.mem_append_left (".slice" : GoString) hpod)
  · exact huid huid'
  · exact hfixed (List.mem_append_right ("-pod" : GoString) hsuffix)

theorem sliceGroup_plain : Plain k.sliceGroup := by
  apply filepath.plain_of_length
  · have hpod : ("-pod" : GoString).length = 4 := rfl
    simp only [sliceGroup, List.length_append]
    omega
  · apply k.not_mem_sliceGroup
    · cases k.qos <;> decide
    · decide
    · exact k.not_mem_uid (by decide) (by decide)

theorem runtimeFree_sliceGroup : RuntimeFree k.sliceGroup := by
  have hrest : 'r' ∉ k.uid ++ (".slice" : GoString) := by
    rw [List.mem_append, not_or]
    exact ⟨k.not_mem_uid (by decide) (by decide), by decide⟩
  apply runtimeFree_append
  · cases k.qos <;> decide
  · exact runtimeFree_of_not_mem hrest
  · cases k.qos <;> decide

/-- The parts of the `cgroupsPath`. -/
def cgroupsPath : CgroupsPath where
  sliceGroup := k.sliceGroup
  runtimeName := k.runtime.name
  scopeID := k.id
  slice_plain := k.sliceGroup_plain
  runtime_plain := by cases k.runtime <;> decide
  scope_plain := filepath.plain_of_length (by rw [k.id_length]; omega) (k.not_mem_id (by decide))
  slice_colon := by
    apply k.not_mem_sliceGroup
    · cases k.qos <;> decide
    · decide
    · exact k.not_mem_uid (by decide) (by decide)
  runtime_colon := by cases k.runtime <;> decide
  scope_colon := k.not_mem_id (by decide)
  pod_pos := by
    have hlast : (k.qos.slice.length : Int) ≤ lastIndex k.sliceGroup "-pod" :=
      le_lastIndex_append _ _ _
    have hslice : 0 < k.qos.slice.length := by cases k.qos <;> decide
    omega

theorem runtimeFree_podPath : RuntimeFree (rootPath k.cgroupsPath.podComponents) := by
  apply runtimeFree_slash
  apply runtimeFree_joinWith
  intro part hpart
  simp only [CgroupsPath.podComponents, List.cons_append, List.nil_append, List.mem_cons,
    List.not_mem_nil, or_false] at hpart
  rcases hpart with rfl | rfl | rfl | rfl | rfl | rfl
  · decide
  · decide
  · decide
  · decide
  · -- the name of the QoS slice is a part of the name of the pod slice
    apply runtimeFree_append_cons
    · exact runtimeFree_of_start k.runtimeFree_sliceGroup (List.take_prefix _ _)
    · decide
    · decide
  · exact k.runtimeFree_sliceGroup

/-- The name of the scope is matched as a whole. -/
theorem runs_containerScope :
    reContainerID.runs k.cgroupsPath.containerScope = [([k.id], (".scope" : GoString))] := by
  have hid : (Regexp.capture (.repeatClass isLowerHex 64)).runs (k.id ++ (".scope" : GoString)) =
      [([k.id], (".scope" : GoString))] := by
    rw [Regexp.runs, ← k.id_length, Regexp.runs_repeatClass_append k.id_chars, List.map_singleton]
    simp
  have hname : (Regexp.alternate (.alternate (.literal "cri-containerd-") (.literal "docker-"))
      (.literal "crio-")).runs
        (k.runtime.name ++ ("-" : GoString) ++ (k.id ++ (".scope" : GoString))) =
      [([], k.id ++ (".scope" : GoString))] := by
    simp only [Regexp.runs]
    cases k.runtime <;> rfl
  have hscope : k.cgroupsPath.containerScope =
      k.runtime.name ++ ("-" : GoString) ++ (k.id ++ (".scope" : GoString)) :=
    List.append_assoc _ _ _
  rw [hscope, reContainerID, Regexp.runs, hname]
  simp only [List.flatMap_cons, List.flatMap_nil, hid, List.map_singleton, List.nil_append,
    List.append_nil]

theorem extractContainerID_containerScope :
    extractContainerID k.cgroupsPath.containerScope = some k.id := by
  rw [extractContainerID, Regexp.findStringSubmatch_of_runs k.runs_containerScope]
  rfl

end PodContainer

/-- From the path that the actuator builds for a container, the monitor reads its
id, and from the path of its pod it reads none. -/
theorem extractContainerID_paths (k : PodContainer) {host : Host} {containerID : GoString}
    (h : k.cgroupsPath.ReportedFor host containerID) :
    ∃ containerPath podPath,
      getCgroupPathsFromInspect host (trimPrefix containerID "containerd://") =
          .ok (containerPath, podPath) ∧
        extractContainerID containerPath = some k.id ∧ extractContainerID podPath = none := by
  refine ⟨_, _, h.resolves, ?_, extractContainerID_eq_none k.runtimeFree_podPath⟩
  rw [CgroupsPath.rootPath_containerComponents, extractContainerID_append k.runtimeFree_podPath]
  exact k.extractContainerID_containerScope

def sampleContainer : PodContainer where
  qos := .burstable
  uid := "7c_4e"
  runtime := .crio
  id := List.replicate 64 'e'
  uid_ne_nil := by decide
  uid_chars := fun c hc => by
    have hall : ("7c_4e" : GoString).all (fun c => isLowerHex c || c == '_') = true := by decide
    simpa using List.all_eq_true.mp hall c hc
  id_length := List.length_replicate
  id_chars := fun c hc => by
    rw [List.eq_of_mem_replicate hc]
    decide

/-- `crictl` and `jq` on the node of this container. -/
def sampleHost : Host where
  crictlInspect := fun _ => .ok "inspect output"
  jqCgroupsPath := fun _ => .ok (sampleContainer.cgroupsPath.text ++ ("\n" : GoString))

theorem extractContainerID_paths_sample :
    ∃ containerPath podPath,
      getCgroupPathsFromInspect sampleHost (trimPrefix "containerd://e" "containerd://") =
          .ok (containerPath, podPath) ∧
        extractContainerID containerPath = some sampleContainer.id ∧
          extractContainerID podPath = none := by
  have hreported : sampleContainer.cgroupsPath.ReportedFor sampleHost "containerd://e" :=
    ⟨"inspect output", _, rfl, rfl, by decide +kernel⟩
  exact extractContainerID_paths sampleContainer hreported

end McKube.Ebpf.Monitor
