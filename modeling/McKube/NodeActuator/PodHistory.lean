import McKube.NodeActuator.Concurrency
import McKube.Trace.Machine

/-!
# The containers of one pod

A request sets the pod to the runtime of its container, and looks at no other
container of the pod.  Over a run of requests, the pod covers all its containers
in every state iff no request asks for less than another container of the pod
holds at that moment (`pod_covers_iff`).
-/

namespace McKube
namespace NodeActuator

open AtomicProgram GoLib
open GoLib.filepath (join components rootPath Plain)

/-! ## Pods -/

/-- A pod with its containers, all of them different cgroups. -/
structure Pod where
  cgPath : GoString
  containers : List GoString
  rooted_pod : Rooted cgPath
  rooted : ∀ c ∈ containers, Rooted c
  apart : ∀ c ∈ containers, components c ≠ components cgPath
  distinct : ∀ c ∈ containers, ∀ d ∈ containers, c ≠ d → components c ≠ components d

/-- The runtime that a cgroup shows. -/
def runtimeAt (files : Files) (cgPath : GoString) : Option Int :=
  intAt files (join [cgPath, cgroupRTRuntime])

namespace Pod

variable (pod : Pod)

/-- The runtime of the pod is at least that of each of its containers. -/
def Covers (files : Files) : Prop :=
  ∃ P, runtimeAt files pod.cgPath = some P ∧
    ∀ c ∈ pod.containers, ∃ R, runtimeAt files c = some R ∧ R ≤ P

/-- A request for a container of the pod that sets the runtime of the whole
cgroup, and returns no error. -/
structure Serves (k : Kernel) (host : Host) (files : Files) (req : CgroupRequest) : Prop where
  container : ∃ c ∈ pod.containers, Resolves host req.containerID c pod.cgPath
  whole : req.ForWholeCgroup
  nonneg : 0 ≤ req.runtime
  ok : req.Succeeds k host files

/-- The request asks for at least what the other containers of the pod hold. -/
def SparesSiblings (host : Host) (files : Files) (req : CgroupRequest) : Prop :=
  ∀ c ∈ pod.containers, Resolves host req.containerID c pod.cgPath →
    ∀ d ∈ pod.containers, d ≠ c → ∀ R ∈ runtimeAt files d, R ≤ req.runtime

end Pod

/-- The requests to one actuator, one after the other. -/
def actuator (k : Kernel) (host : Host) (files : Files) :
    Trace.Machine Files CgroupRequest (Except GoError Unit) where
  init := files
  step s req := (req.finish k host s, (Program.run k.exec (req.apply host).run s).1)

/-! ## One request -/

section Request

variable {pod : Pod} {k : Kernel} {host : Host} {files : Files} {req : CgroupRequest}
  {c : GoString}

theorem grantedRuntime_of_nonneg (hwhole : req.ForWholeCgroup) (hnonneg : 0 ≤ req.runtime) :
    req.grantedRuntime = req.runtime := by
  unfold CgroupRequest.grantedRuntime writtenRuntime
  rw [hwhole.mode, if_neg Bool.false_ne_true]
  omega

/-- The two cgroups of the request show its runtime. -/
theorem runtimeAt_finish_self (hresolves : Resolves host req.containerID c pod.cgPath)
    (hwhole : req.ForWholeCgroup) (hnonneg : 0 ≤ req.runtime) (hok : req.Succeeds k host files)
    {cgPath : GoString} (hcgroup : cgPath = c ∨ cgPath = pod.cgPath) :
    runtimeAt (req.finish k host files) cgPath = some req.runtime := by
  rw [← grantedRuntime_of_nonneg hwhole hnonneg]
  exact CgroupRequest.intAt_runtime_finish hresolves hcgroup hwhole.core hok

/-- The other containers of the pod keep theirs. -/
theorem runtimeAt_finish_sibling (hresolves : Resolves host req.containerID c pod.cgPath)
    (hc : c ∈ pod.containers) {d : GoString} (hd : d ∈ pod.containers) (hne : d ≠ c) :
    runtimeAt (req.finish k host files) d = runtimeAt files d := by
  have hfile : req.finish k host files (join [d, cgroupRTRuntime]) =
      files (join [d, cgroupRTRuntime]) := by
    refine CgroupRequest.finish_eq_of_ne hresolves fun cgPath hcgroup name hname heq => ?_
    have hcomponents := (join_eq_join (pod.rooted d hd) (hresolves.rooted_of hcgroup)
      (by decide) (writtenNames_subset _ _ hname) heq).1
    rcases hcgroup with rfl | rfl
    · exact pod.distinct d hd _ hc hne hcomponents
    · exact pod.apart d hd hcomponents
  unfold runtimeAt intAt
  rw [hfile]

/-- A request keeps the pod covering its containers iff it spares the others. -/
theorem covers_finish_iff (hserves : pod.Serves k host files req) (hcovers : pod.Covers files) :
    pod.Covers (req.finish k host files) ↔ pod.SparesSiblings host files req := by
  obtain ⟨c, hc, hresolves⟩ := hserves.container
  have hself : ∀ cgPath, cgPath = c ∨ cgPath = pod.cgPath →
      runtimeAt (req.finish k host files) cgPath = some req.runtime := fun cgPath hcgroup =>
    runtimeAt_finish_self hresolves hserves.whole hserves.nonneg hserves.ok hcgroup
  constructor
  · rintro ⟨P, hP, hall⟩ c' - hresolves' d hd hne R hR
    obtain ⟨rfl, -⟩ := hresolves'.unique hresolves
    rw [hself _ (Or.inr rfl), Option.some.injEq] at hP
    obtain ⟨R', hR', hle⟩ := hall d hd
    rw [runtimeAt_finish_sibling hresolves hc hd hne, Option.mem_def.mp hR,
      Option.some.injEq] at hR'
    omega
  · intro hspares
    refine ⟨req.runtime, hself _ (Or.inr rfl), fun d hd => ?_⟩
    by_cases hne : d = c
    · exact ⟨req.runtime, hself d (Or.inl hne), le_refl _⟩
    · obtain ⟨P, -, hall⟩ := hcovers
      obtain ⟨R, hR, -⟩ := hall d hd
      refine ⟨R, ?_, hspares c hc hresolves d hd hne R hR⟩
      rw [runtimeAt_finish_sibling hresolves hc hd hne, hR]

end Request

/-! ## Runs of requests -/

/-- In a run of requests that are all carried out, the pod covers its containers
at the end of every request iff every request spares the other containers. -/
theorem pod_covers_iff {pod : Pod} {k : Kernel} {host : Host} {files : Files}
    {reqs : List CgroupRequest} (hstart : pod.Covers files)
    (hserves : ∀ p req q, reqs = p ++ req :: q →
      pod.Serves k host ((actuator k host files).stateAfter p) req) :
    (∀ p q, reqs = p ++ q → pod.Covers ((actuator k host files).stateAfter p)) ↔
      ∀ p req q, reqs = p ++ req :: q →
        pod.SparesSiblings host ((actuator k host files).stateAfter p) req :=
  (actuator k host files).always_iff_of_admissible hstart
    (fun _ _ hserves hcovers => covers_finish_iff hserves hcovers) hserves

/-! ## A pod with two containers -/

def siblingPath : GoString := samplePodPath ++ ("/cri-containerd-2f.scope" : GoString)

def samplePod : Pod where
  cgPath := samplePodPath
  containers := [sampleContainerPath, siblingPath]
  rooted_pod := by decide
  rooted := by decide
  apart := by decide +kernel
  distinct := by decide +kernel

/-- `crictl` and `jq` on a node with this pod. -/
def twoContainers : Host where
  crictlInspect := fun containerID => .ok containerID
  jqCgroupsPath := fun inspectOutput =>
    .ok (("kubepods-burstable-pod0a.slice:cri-containerd:" : GoString) ++ inspectOutput)

/-- The pod and both containers hold 0.5 s of 1 s. -/
def twoContainerFiles : Files := fun path =>
  ((cgroupFiles siblingPath 1000000 500000 "0 0").lookup path).or
    (sampleFiles 1000000 500000 "0 0" path)

/-- A request for the first container of the pod. -/
def loweringRequest : CgroupRequest :=
  CgroupRequest.sampleBudget 1000000 200000 CgroupRequest.inInt_samplePeriod
    CgroupRequest.inInt_sampleRuntime

theorem resolves_twoContainers :
    Resolves twoContainers ("containerd://1f" : GoString) sampleContainerPath samplePodPath := by
  decide +kernel

theorem runtimeAt_twoContainerFiles :
    ∀ cgPath ∈ samplePod.cgPath :: samplePod.containers,
      runtimeAt twoContainerFiles cgPath = some 500000 := by
  decide +kernel

theorem covers_twoContainerFiles : samplePod.Covers twoContainerFiles := by
  refine ⟨500000, runtimeAt_twoContainerFiles _ List.mem_cons_self, fun c hc => ?_⟩
  exact ⟨500000, runtimeAt_twoContainerFiles c (List.mem_cons_of_mem _ hc), le_refl _⟩

theorem serves_lower : samplePod.Serves Kernel.permissive twoContainers twoContainerFiles
    loweringRequest where
  container := ⟨sampleContainerPath, List.mem_cons_self, resolves_twoContainers⟩
  whole := ⟨rfl, rfl⟩
  nonneg := by decide
  ok := by decide +kernel

theorem pod_covers_iff_sample :
    (∀ p q, [loweringRequest] = p ++ q → samplePod.Covers
        ((actuator Kernel.permissive twoContainers twoContainerFiles).stateAfter p)) ↔
      ∀ p req q, [loweringRequest] = p ++ req :: q →
        samplePod.SparesSiblings twoContainers
          ((actuator Kernel.permissive twoContainers twoContainerFiles).stateAfter p) req :=
  pod_covers_iff covers_twoContainerFiles fun p req q hsplit => by
    obtain ⟨rfl, hrest⟩ := List.append_eq_singleton_iff.mp hsplit.symm |>.resolve_right (by simp)
    cases hrest
    exact serves_lower

/-- Lowering the first container to 0.2 s takes the pod down with it, below the
0.5 s of the second one. -/
theorem pod_covers_fails :
    samplePod.Covers twoContainerFiles ∧
    (∀ cgPath ∈ samplePod.cgPath :: samplePod.containers,
      intAt twoContainerFiles (join [cgPath, cgroupRTPeriod]) = some 1000000) ∧
    loweringRequest.Accepted ∧
    samplePod.Serves Kernel.permissive twoContainers twoContainerFiles loweringRequest ∧
    ¬ samplePod.Covers ((actuator Kernel.permissive twoContainers twoContainerFiles).stateAfter
      [loweringRequest]) := by
  refine ⟨covers_twoContainerFiles, by decide +kernel, by decide, serves_lower, fun hcovers => ?_⟩
  have hspares := (covers_finish_iff serves_lower covers_twoContainerFiles).mp hcovers
  have hsibling : siblingPath ∈ samplePod.containers :=
    List.mem_cons_of_mem _ (List.mem_singleton_self _)
  have hle : (500000 : Int) ≤ loweringRequest.runtime :=
    hspares sampleContainerPath List.mem_cons_self resolves_twoContainers siblingPath hsibling
      (by decide +kernel) 500000
      (runtimeAt_twoContainerFiles siblingPath (List.mem_cons_of_mem _ hsibling))
  exact absurd hle (by decide)

end NodeActuator
end McKube
