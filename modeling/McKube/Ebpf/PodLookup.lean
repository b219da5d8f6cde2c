import McKube.Jq.Outputs
import McKube.Shell.Words
import Mathlib.Data.List.Infix

/-!
# The pod of a container

`analyze_overrun.sh` looks for the pod of a container with one `jq` filter over all pods,
takes the first line that the filter prints and cuts it into the namespace, the name and
the label `app`.  A container that has not started has no `containerID`, and the filter
stops with an error when it comes to one.

* `first_podFilter`: what the filter does first, for any list of pods.
* `lookup_eq_some_iff`: when the script finds the pod of a container.
-/

namespace McKube.Ebpf.Analyzer

open GoLib

/-! ## Pods -/

/-- The characters of the names and the label values of Kubernetes. -/
def isNameRune (c : Char) : Bool := c.isAlphanum || c = '-' || c = '_' || c = '.'

/-- An element of `.status.containerStatuses`. -/
structure ContainerStatus where
  containerID : Option GoString
  deriving DecidableEq

/-- What the script reads of a pod: its namespace and its name, the label `app` and the
container statuses, which may be missing. -/
structure Pod where
  podNamespace : GoString
  name : GoString
  app : Option GoString
  containerStatuses : Option (List ContainerStatus)
  podNamespace_runes : ∀ c ∈ podNamespace, isNameRune c = true
  name_runes : ∀ c ∈ name, isNameRune c = true
  app_runes : ∀ label ∈ app, ∀ c ∈ label, isNameRune c = true

/-- What the script knows of the pod of a container. -/
structure PodInfo where
  podNamespace : GoString
  podName : GoString
  appLabel : GoString
  deriving DecidableEq

namespace Pod

variable (pod : Pod)

/-- `.status.containerStatuses[]?`. -/
def statuses : List ContainerStatus := pod.containerStatuses.getD []

/-- `.metadata.labels.app // "none"`. -/
def appLabel : GoString := pod.app.getD "none"

/-- The line that the filter prints for the pod. -/
def line : GoString :=
  pod.podNamespace ++ '|' :: (pod.name ++ '|' :: pod.appLabel)

def info : PodInfo where
  podNamespace := pod.podNamespace
  podName := pod.name
  appLabel := pod.appLabel

end Pod

/-! ## The lookup -/

/-- `contains($cid)`, which fails on `null`. -/
def contains (cid : GoString) : Option GoString → Jq.Outputs Bool
  | none => .error
  | some containerID => .single (decide (cid <:+: containerID))

/-- `.status.containerStatuses[]?.containerID? | contains($cid)`. -/
def mentions (cid : GoString) (pod : Pod) : Jq.Outputs Bool :=
  (Jq.Outputs.iterate pod.statuses).pipe fun status => contains cid status.containerID

/-- The filter of the script. -/
def podFilter (pods : List Pod) (cid : GoString) : Jq.Outputs GoString :=
  (Jq.Outputs.iterate pods).pipe fun pod =>
    (Jq.Outputs.select (mentions cid) pod).pipe fun pod => .single pod.line

/-- The variable `pod_info`. -/
def podInfo (pods : List Pod) (cid : GoString) : GoString :=
  Shell.capture (Shell.head1 (Text.unlines '\n' (podFilter pods cid).values))

/-- The pod that the script finds. -/
def lookup (pods : List Pod) (cid : GoString) : Option PodInfo :=
  let info := podInfo pods cid
  if info = [] then none
  else
    let fields := Shell.read3 '|' info
    some { podNamespace := fields.1, podName := fields.2.1, appLabel := fields.2.2 }

/-- The values of the variable `qos_class`. -/
inductive QosClass
  | high
  | medium
  | low
  | unknown
  deriving DecidableEq, Repr

/-- The `case` statement on `app_label`. -/
def classOfLabel (appLabel : GoString) : QosClass :=
  if ("high" : GoString) <:+: appLabel then .high
  else if ("middle" : GoString) <:+: appLabel then .medium
  else if ("low" : GoString) <:+: appLabel then .low
  else .unknown

def classOf : Option PodInfo → QosClass
  | none => .unknown
  | some info => classOfLabel info.appLabel

/-! ## Lines of pods -/

theorem not_mem_of_runes {s : GoString} (hs : ∀ c ∈ s, isNameRune c = true) {c : Char}
    (hc : isNameRune c = false) : c ∉ s := by
  intro hmem
  rw [hs c hmem] at hc
  cases hc

namespace Pod

variable (pod : Pod)

theorem appLabel_runes : ∀ c ∈ pod.appLabel, isNameRune c = true := by
  unfold appLabel
  cases happ : pod.app with
  | none =>
      have hnone : ("none" : GoString).all isNameRune = true := by decide
      exact List.all_eq_true.mp hnone
  | some label => exact pod.app_runes label happ

theorem line_ne_nil : pod.line ≠ [] := by
  simp [line]

theorem newline_not_mem_line : '\n' ∉ pod.line := by
  have hrune : isNameRune '\n' = false := by decide
  simp only [line, List.mem_append, List.mem_cons, not_or]
  exact ⟨not_mem_of_runes pod.podNamespace_runes hrune, by decide,
    not_mem_of_runes pod.name_runes hrune, by decide,
    not_mem_of_runes pod.appLabel_runes hrune⟩

/-- The line is cut at its two bars. -/
theorem read3_line : Shell.read3 '|' pod.line = (pod.podNamespace, pod.name, pod.appLabel) := by
  have hrune : isNameRune '|' = false := by decide
  have hflush : ∀ s, Shell.Flush '|' s := fun _ => Or.inl rfl
  rw [Shell.read3, line,
    Shell.nextWord_append_cons (not_mem_of_runes pod.podNamespace_runes hrune) (hflush _)
      (hflush _),
    Shell.nextWord_append_cons (not_mem_of_runes pod.name_runes hrune) (hflush _) (hflush _),
    Shell.lastWord_of_not_mem (not_mem_of_runes pod.appLabel_runes hrune)]

end Pod

/-! ## What the filter does first -/

/-- The container statuses of the pods with their pods, in the order in which the filter
reads them. -/
def statusesOf (pods : List Pod) : List (Pod × ContainerStatus) :=
  pods.flatMap fun pod => pod.statuses.map (Prod.mk pod)

/-- The status has a `containerID` in which the id occurs. -/
def ContainerStatus.HasID (status : ContainerStatus) (cid : GoString) : Prop :=
  ∃ containerID ∈ status.containerID, cid <:+: containerID

instance (status : ContainerStatus) (cid : GoString) : Decidable (status.HasID cid) :=
  match h : status.containerID with
  | none => isFalse (by simp [ContainerStatus.HasID, h])
  | some containerID =>
      decidable_of_iff (cid <:+: containerID) (by simp [ContainerStatus.HasID, h])

/-- What the filter does at a status. -/
def actOf (cid : GoString) (x : Pod × ContainerStatus) : Option (Jq.Act GoString) :=
  match x.2.containerID with
  | none => some .error
  | some containerID => if cid <:+: containerID then some (.output x.1.line) else none

theorem actOf_of_hasID {cid : GoString} {x : Pod × ContainerStatus} (h : x.2.HasID cid) :
    actOf cid x = some (.output x.1.line) := by
  obtain ⟨containerID, hid, hoccurs⟩ := h
  rw [Option.mem_def] at hid
  simp [actOf, hid, hoccurs]

theorem actOf_of_not_hasID {cid : GoString} {x : Pod × ContainerStatus} (h : ¬ x.2.HasID cid) :
    actOf cid x = if x.2.containerID = none then some .error else none := by
  unfold actOf
  cases hid : x.2.containerID with
  | none => rfl
  | some containerID =>
      have hoccurs : ¬ cid <:+: containerID := fun hoccurs => h ⟨containerID, hid, hoccurs⟩
      simp [hoccurs]

/-- The filter reads one status after the other until one of them makes it act. -/
theorem first_podFilter (pods : List Pod) (cid : GoString) :
    (podFilter pods cid).first = (statusesOf pods).findSome? (actOf cid) := by
  have hstatus : ∀ pod : Pod,
      ((Jq.Outputs.select (mentions cid) pod).pipe fun pod => .single pod.line).first =
        (pod.statuses.map (Prod.mk pod)).findSome? (actOf cid) := by
    intro pod
    rw [Jq.Outputs.select, mentions, Jq.Outputs.pipe_assoc, Jq.Outputs.pipe_assoc,
      Jq.Outputs.first_pipe_iterate, List.findSome?_map]
    congr 1
    funext status
    obtain ⟨containerID⟩ := status
    cases containerID with
    | none => rfl
    | some containerID =>
        by_cases hoccurs : cid <:+: containerID
        · simp [contains, actOf, hoccurs]
        · simp [contains, actOf, hoccurs]
          rfl
  rw [podFilter, Jq.Outputs.first_pipe_iterate, statusesOf]
  simp only [hstatus]
  -- the first act over the pods is the first one over their statuses, one pod after the other
  induction pods with
  | nil => rfl
  | cons pod pods ih =>
      rw [List.findSome?_cons, List.flatMap_cons, List.findSome?_append, ih]
      cases (pod.statuses.map (Prod.mk pod)).findSome? (actOf cid) <;> rfl

/-! ## Finding the pod -/

/-- Every container whose status comes before the first one with the id has started. -/
def StartedBefore (statuses : List ContainerStatus) (cid : GoString) : Prop :=
  ∀ status ∈ statuses.takeWhile (fun status => ¬ status.HasID cid), status.containerID ≠ none

instance (statuses : List ContainerStatus) (cid : GoString) :
    Decidable (StartedBefore statuses cid) :=
  inferInstanceAs (Decidable (∀ status ∈ _, _))

/-- What the filter does first if only one pod has the id. -/
theorem findSome?_actOf {cid : GoString} {pod : Pod} {l : List (Pod × ContainerStatus)}
    (hsome : ∃ x ∈ l, x.2.HasID cid) (honly : ∀ x ∈ l, x.2.HasID cid → x.1 = pod) :
    l.findSome? (actOf cid) =
      some (if StartedBefore (l.map Prod.snd) cid then .output pod.line else .error) := by
  induction l with
  | nil =>
      obtain ⟨x, hx, -⟩ := hsome
      cases hx
  | cons x l ih =>
      rw [List.findSome?_cons, List.map_cons]
      by_cases hid : x.2.HasID cid
      · have hstarted : StartedBefore (x.2 :: l.map Prod.snd) cid := by
          simp [StartedBefore, hid]
        rw [actOf_of_hasID hid, if_pos hstarted, honly x List.mem_cons_self hid]
      · have hcons : StartedBefore (x.2 :: l.map Prod.snd) cid ↔
            x.2.containerID ≠ none ∧ StartedBefore (l.map Prod.snd) cid := by
          simp [StartedBefore, hid]
        rw [actOf_of_not_hasID hid]
        by_cases hnone : x.2.containerID = none
        · -- here the filter fails, whatever comes after
          have hstarted : ¬ StartedBefore (x.2 :: l.map Prod.snd) cid :=
            fun h => (hcons.mp h).1 hnone
          rw [if_pos hnone, if_neg hstarted]
        · have hrest : ∃ y ∈ l, y.2.HasID cid := by
            obtain ⟨y, hy, hyid⟩ := hsome
            rcases List.mem_cons.mp hy with rfl | hmem
            · exact absurd hyid hid
            · exact ⟨y, hmem, hyid⟩
          rw [if_neg hnone, ih hrest fun y hy => honly y (List.mem_cons_of_mem x hy)]
          simp only [hcons, ne_eq, hnone, not_false_eq_true, true_and]

theorem eq_line_of_mem_podFilter {pods : List Pod} {cid text : GoString}
    (h : text ∈ (podFilter pods cid).values) : ∃ pod : Pod, text = pod.line := by
  obtain ⟨_, hpod⟩ := Jq.Outputs.exists_of_mem_pipe h
  obtain ⟨pod, hline⟩ := Jq.Outputs.exists_of_mem_pipe hpod
  exact ⟨pod, List.mem_singleton.mp hline⟩

/-- The script uses what the filter prints first. -/
theorem podInfo_eq (pods : List Pod) (cid : GoString) :
    podInfo pods cid = (podFilter pods cid).values.head?.getD [] := by
  apply Shell.capture_head1_unlines
  intro text htext
  obtain ⟨pod, rfl⟩ := eq_line_of_mem_podFilter htext
  exact pod.newline_not_mem_line

theorem lookup_of_output {pods : List Pod} {cid : GoString} {pod : Pod}
    (h : (podFilter pods cid).first = some (.output pod.line)) :
    lookup pods cid = some pod.info := by
  have hinfo : podInfo pods cid = pod.line := by
    rw [podInfo_eq, (Jq.Outputs.head?_values _).mpr h, Option.getD_some]
  rw [lookup]
  simp only [hinfo, if_neg pod.line_ne_nil, pod.read3_line]
  rfl

theorem lookup_of_error {pods : List Pod} {cid : GoString}
    (h : (podFilter pods cid).first = some .error) : lookup pods cid = none := by
  have hnone : (podFilter pods cid).values.head? = none := by
    rw [Option.eq_none_iff_forall_ne_some]
    intro text htext
    rw [(Jq.Outputs.head?_values _).mp htext] at h
    cases h
  rw [lookup, podInfo_eq, hnone]
  rfl

/-- The id occurs in a `containerID` of the pod. -/
def Pod.Runs (pod : Pod) (cid : GoString) : Prop := ∃ status ∈ pod.statuses, status.HasID cid

instance (pod : Pod) (cid : GoString) : Decidable (pod.Runs cid) :=
  inferInstanceAs (Decidable (∃ status ∈ pod.statuses, status.HasID cid))

/-- A container that runs in one pod is attributed to it, and gets its class from the
label of that pod, iff every container that the filter comes to first has started. -/
theorem lookup_eq_some_iff {pods : List Pod} {pod : Pod} {cid : GoString} (hpod : pod ∈ pods)
    (hruns : pod.Runs cid) (honly : ∀ other ∈ pods, other.Runs cid → other = pod) :
    (lookup pods cid = some pod.info ∧ classOf (lookup pods cid) = classOfLabel pod.appLabel) ↔
      StartedBefore (pods.flatMap Pod.statuses) cid := by
  have hstatuses : (statusesOf pods).map Prod.snd = pods.flatMap Pod.statuses := by
    simp [statusesOf, List.map_flatMap, Function.comp_def]
  have hmem : ∀ x ∈ statusesOf pods, x.1 ∈ pods ∧ x.2 ∈ x.1.statuses := by
    intro x hx
    obtain ⟨other, hother, hpair⟩ := List.mem_flatMap.mp hx
    obtain ⟨status, hstatus, rfl⟩ := List.mem_map.mp hpair
    exact ⟨hother, hstatus⟩
  have hsome : ∃ x ∈ statusesOf pods, x.2.HasID cid := by
    obtain ⟨status, hstatus, hid⟩ := hruns
    exact ⟨(pod, status),
      List.mem_flatMap.mpr ⟨pod, hpod, List.mem_map.mpr ⟨status, hstatus, rfl⟩⟩, hid⟩
  have hfirst := findSome?_actOf hsome fun x hx hid =>
    honly x.1 (hmem x hx).1 ⟨x.2, (hmem x hx).2, hid⟩
  rw [← first_podFilter, hstatuses] at hfirst
  constructor
  · rintro ⟨hfound, -⟩
    by_contra hnot
    rw [if_neg hnot] at hfirst
    rw [lookup_of_error hfirst] at hfound
    cases hfound
  · intro hstarted
    rw [if_pos hstarted] at hfirst
    rw [lookup_of_output hfirst]
    exact ⟨rfl, rfl⟩

theorem db_runes : ∀ c ∈ ("db" : GoString), isNameRune c = true :=
  List.all_eq_true.mp (by decide)

theorem web_runes : ∀ c ∈ ("web" : GoString), isNameRune c = true :=
  List.all_eq_true.mp (by decide)

theorem high_runes : ∀ label ∈ some ("high" : GoString), ∀ c ∈ label, isNameRune c = true := by
  intro label hlabel
  rw [← Option.mem_some_iff.mp hlabel]
  exact List.all_eq_true.mp (by decide)

/-- A pod of the class `HIGH` with one container. -/
def samplePod (name : GoString) (hname : ∀ c ∈ name, isNameRune c = true)
    (containerID : Option GoString) : Pod where
  podNamespace := "db"
  name := name
  app := some "high"
  containerStatuses := some [{ containerID := containerID }]
  podNamespace_runes := db_runes
  name_runes := hname
  app_runes := high_runes

def sampleID : GoString := List.replicate 64 'a'

def runningPod : Pod := samplePod "web" web_runes (some (("containerd://" : GoString) ++ sampleID))

/-- The container of this pod is still waiting. -/
def waitingPod : Pod := samplePod "db" db_runes none

theorem waitingPod_not_runs (cid : GoString) : ¬ waitingPod.Runs cid := by
  rintro ⟨status, hstatus, containerID, hid, -⟩
  rw [List.mem_singleton.mp hstatus] at hid
  cases hid

theorem runningPod_runs : runningPod.Runs sampleID := by
  refine ⟨_, List.mem_singleton_self _, _, rfl, ?_⟩
  exact (List.suffix_append ("containerd://" : GoString) sampleID).isInfix

theorem lookup_eq_some_iff_sample :
    (lookup [runningPod, waitingPod] sampleID = some runningPod.info ∧
        classOf (lookup [runningPod, waitingPod] sampleID) = classOfLabel runningPod.appLabel) ↔
      StartedBefore ([runningPod, waitingPod].flatMap Pod.statuses) sampleID := by
  apply lookup_eq_some_iff List.mem_cons_self runningPod_runs
  intro other hother hruns
  rcases List.mem_cons.mp hother with heq | hlast
  · exact heq
  · rw [List.mem_singleton.mp hlast] at hruns
    exact absurd hruns (waitingPod_not_runs sampleID)

/-- The same two pods in the other order: the container of the second one is not found. -/
theorem lookup_eq_some_iff_fails :
    runningPod ∈ [waitingPod, runningPod] ∧ runningPod.Runs sampleID ∧
      (∀ other ∈ [waitingPod, runningPod], other.Runs sampleID → other = runningPod) ∧
      lookup [waitingPod, runningPod] sampleID = none ∧
      lookup [runningPod, waitingPod] sampleID = some runningPod.info := by
  refine ⟨List.mem_cons_of_mem _ (List.mem_singleton_self _), runningPod_runs, ?_, ?_, ?_⟩
  · intro other hother hruns
    rcases List.mem_cons.mp hother with heq | hlast
    · rw [heq] at hruns
      exact absurd hruns (waitingPod_not_runs sampleID)
    · exact List.mem_singleton.mp hlast
  · apply lookup_of_error
    rw [first_podFilter]
    rfl
  · apply lookup_of_output
    rw [first_podFilter, statusesOf, List.flatMap_cons, List.findSome?_append]
    have hid : (runningPod.statuses.map (Prod.mk runningPod)).findSome? (actOf sampleID) =
        some (.output runningPod.line) := by
      obtain ⟨status, hstatus, hid⟩ := runningPod_runs
      have hstatuses : runningPod.statuses = [status] := by
        rw [List.mem_singleton.mp hstatus]
        rfl
      rw [hstatuses, List.map_singleton, List.findSome?_singleton]
      exact actOf_of_hasID hid
    rw [hid]
    rfl

end McKube.Ebpf.Analyzer
