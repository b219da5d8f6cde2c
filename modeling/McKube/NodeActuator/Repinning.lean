import McKube.NodeActuator.CoreWriteOrder
import McKube.NodeActuator.Outcome
import McKube.NodeActuator.PodHistory
import Mathlib.Data.List.Chain

/-!
# Moving a container between cores

A request for a core writes the slot of this core and pins the container to it.
The slot of the core that the container comes from is not written, and keeps what
an earlier request has put there.

* `intsAt_finish`: what one request does to the runtimes of the cores.
* `repinned_iff`: in a run of requests, only the pinned core ever holds a runtime
  iff the container moves only while its runtime is zero.
-/

namespace McKube
namespace NodeActuator

open AtomicProgram GoLib
open GoLib.filepath (join components rootPath Plain)

/-! ## The runtimes of the cores -/

/-- The words of a file that agrees with another one on all slots but one. -/
theorem intsAt_of_slots {before after : Files} {path : GoString} {ints : List Int} {i : Nat}
    {r : Int} (hbefore : intsAt before path = some ints) (hi : i < ints.length) (hr : InInt r)
    (hslots : ∀ j, slotAt after path j =
      if j ∈ [i] then some (itoa r) else slotAt before path j) :
    intsAt after path = some (ints.set i r) := by
  obtain ⟨old, hold, hmap⟩ := Option.bind_eq_some_iff.mp hbefore
  have hwords := mapM_eq_some_iff.mp hmap
  have hlength : (fields old).length = ints.length := hwords.length_eq
  have hwritten : slotAt after path i = some (itoa r) := by
    rw [hslots, if_pos (List.mem_singleton_self i)]
  obtain ⟨new, hnew, -⟩ := Option.bind_eq_some_iff.mp hwritten
  have hfields : fields new = (fields old).set i (itoa r) := by
    apply List.ext_getElem?
    intro j
    have hslot := hslots j
    simp only [slotAt, hnew, hold, Option.bind_some, List.mem_singleton] at hslot
    rw [hslot, List.getElem?_set]
    by_cases hij : j = i
    · rw [if_pos hij, if_pos hij.symm, if_pos (by omega)]
    · rw [if_neg hij, if_neg (Ne.symm hij)]
  rw [intsAt, hnew, Option.bind_some, hfields, mapM_eq_some_iff]
  exact forall₂_set hwords (atoi_itoa hr) i

/-- Two settings of a list of zeros are the last one of them only if the first one has
set the same place, or has set it to zero. -/
theorem set_set_replicate_iff {n i j : Nat} {r v : Int} (hi : i < n) :
    ((List.replicate n 0).set i r).set j v = (List.replicate n 0).set j v ↔ i = j ∨ r = 0 := by
  constructor
  · intro heq
    by_cases hij : i = j
    · exact Or.inl hij
    · have hentry := congrArg (fun es : List Int => es[i]?) heq
      simp only [List.getElem?_set_ne (Ne.symm hij)] at hentry
      rw [List.getElem?_set_self (by rw [List.length_replicate]; exact hi),
        List.getElem?_replicate_of_lt hi, Option.some.injEq] at hentry
      exact Or.inr hentry
  · rintro (rfl | rfl)
    · exact List.set_set r
    · have hzero : (List.replicate n (0 : Int)).set i 0 = List.replicate n 0 := by
        apply List.ext_getElem
        · rw [List.length_set]
        · intro l hl hl'
          rw [List.getElem_set]
          split
          · rw [List.getElem_replicate]
          · rfl
      rw [hzero]

/-! ## One request -/

/-- The core that a request asks for. -/
def CgroupRequest.coreIndex (req : CgroupRequest) : Option Nat := req.core.bind parseIndex

/-- A container that is the only one of its pod, on a node with a number of cores. -/
structure LoneContainer where
  containerCgPath : GoString
  podCgPath : GoString
  cores : Nat

namespace LoneContainer

variable (lone : LoneContainer)

def IsCgroup (cgPath : GoString) : Prop :=
  cgPath = lone.containerCgPath ∨ cgPath = lone.podCgPath

/-- An accepted request for the container in normal mode, whose core is the index of
a core of the node, and which returns no error.  The kernel takes the index for
this core. -/
structure Repins (k : Kernel) (host : Host) (files : Files) (req : CgroupRequest) : Prop where
  resolves : Resolves host req.containerID lone.containerCgPath lone.podCgPath
  accepted : req.Accepted
  mode : req.onlyRuntime = false
  nonneg : 0 ≤ req.runtime
  core : ∃ core i, req.core = some core ∧ parseIndex core = some i ∧
    k.cpulist core = some [i] ∧ i < lone.cores
  ok : req.Succeeds k host files

/-- The runtimes of the cores, as both cgroups show them. -/
def ShowsRuntimes (files : Files) (runtimes : List Int) : Prop :=
  ∀ cgPath, lone.IsCgroup cgPath →
    intsAt files (join [cgPath, cgroupRTMultiRuntime]) = some runtimes

/-- The container is pinned to the core. -/
def PinnedTo (files : Files) (i : Nat) : Prop :=
  ∃ content, files (join [lone.containerCgPath, cgroupCPUSet]) = some content ∧
    parseIndex (trimSpace content) = some i

/-- Both cgroups show the runtime on the core that the container is pinned to, and
zero on every other core. -/
def OnlyOnPinnedCore (files : Files) (runtime : Int) : Prop :=
  ∃ i, lone.PinnedTo files i ∧ lone.ShowsRuntimes files ((List.replicate lone.cores 0).set i runtime)

section Request

variable {lone} {k : Kernel} {host : Host} {files : Files} {req : CgroupRequest} {i : Nat}

theorem PinnedTo.unique {j : Nat} (h : lone.PinnedTo files i) (h' : lone.PinnedTo files j) :
    i = j := by
  obtain ⟨content, hcontent, hi⟩ := h
  obtain ⟨content', hcontent', hj⟩ := h'
  rw [hcontent, Option.some.injEq] at hcontent'
  subst hcontent'
  exact Option.some.inj (hi.symm.trans hj)

theorem ShowsRuntimes.unique {es es' : List Int} (h : lone.ShowsRuntimes files es)
    (h' : lone.ShowsRuntimes files es') : es = es' :=
  Option.some.inj ((h _ (Or.inl rfl)).symm.trans (h' _ (Or.inl rfl)))

theorem Repins.exists_coreIndex (h : lone.Repins k host files req) :
    ∃ i, req.coreIndex = some i ∧ i < lone.cores := by
  obtain ⟨core, i, hcore, hindex, -, hi⟩ := h.core
  refine ⟨i, ?_, hi⟩
  rw [CgroupRequest.coreIndex, hcore, Option.bind_some, hindex]

theorem Repins.grantedRuntime_eq (h : lone.Repins k host files req) :
    req.grantedRuntime = req.runtime := by
  have hnonneg := h.nonneg
  unfold CgroupRequest.grantedRuntime writtenRuntime
  rw [h.mode, if_neg Bool.false_ne_true]
  omega

/-- The request pins the container to its core. -/
theorem pinnedTo_finish (h : lone.Repins k host files req) (hindex : req.coreIndex = some i) :
    lone.PinnedTo (req.finish k host files) i := by
  obtain ⟨core, hcore, hi⟩ := Option.bind_eq_some_iff.mp hindex
  obtain ⟨content, hcontent, htrim⟩ :=
    CgroupRequest.cpuSet_finish h.resolves (Or.inl rfl) h.mode hcore h.ok
  refine ⟨content, hcontent, ?_⟩
  rw [htrim, trimSpace_of_parseIndex hi, hi]

/-- The request sets the runtime of its core, and leaves the other cores alone. -/
theorem showsRuntimes_finish (h : lone.Repins k host files req) (hindex : req.coreIndex = some i)
    {es : List Int} (hes : lone.ShowsRuntimes files es) (hi : i < es.length) :
    lone.ShowsRuntimes (req.finish k host files) (es.set i req.runtime) := by
  intro cgPath hcgroup
  obtain ⟨core, i', hcore, hparse, hcpulist, -⟩ := h.core
  obtain rfl : i' = i := by
    rw [CgroupRequest.coreIndex, hcore, Option.bind_some, hparse, Option.some.injEq] at hindex
    exact hindex
  have hreached := ((CgroupRequest.apply_reaches_request h.resolves h.ok).1 cgPath hcgroup).1
  obtain ⟨named, hnamed, hslots⟩ := hreached.slots core hcore
  obtain rfl : named = [i'] := by
    rw [hcpulist, Option.some.injEq] at hnamed
    exact hnamed.symm
  rw [h.grantedRuntime_eq] at hslots
  exact intsAt_of_slots (hes cgPath hcgroup) hi req.runtime_inInt hslots

/-- After a request that has found a runtime on one core, only the pinned core holds
one iff that was this core, or the runtime was zero. -/
theorem onlyOnPinnedCore_finish_iff {j : Nat} {r : Int} (h : lone.Repins k host files req)
    (hindex : req.coreIndex = some j) (hi : i < lone.cores)
    (hshows : lone.ShowsRuntimes files ((List.replicate lone.cores 0).set i r)) :
    lone.OnlyOnPinnedCore (req.finish k host files) req.runtime ↔ i = j ∨ r = 0 := by
  obtain ⟨j', hindex', hj⟩ := h.exists_coreIndex
  obtain rfl : j' = j := Option.some.inj (hindex'.symm.trans hindex)
  have hpinned := pinnedTo_finish h hindex
  have hafter := showsRuntimes_finish h hindex hshows (by simpa using hj)
  rw [← set_set_replicate_iff hi (r := r) (v := req.runtime)]
  constructor
  · rintro ⟨j, hpinned', hshows'⟩
    obtain rfl := hpinned.unique hpinned'
    exact hafter.unique hshows'
  · intro heq
    rw [heq] at hafter
    exact ⟨j', hpinned, hafter⟩

end Request

/-! ## Runs of requests -/

/-- The container stays on its core, or moves from a core on which its runtime is
zero. -/
def MovesEmpty (before after : CgroupRequest) : Prop :=
  before.coreIndex = after.coreIndex ∨ before.runtime = 0

variable {lone} {k : Kernel} {host : Host} {files : Files} {reqs : List CgroupRequest}

/-- In a run of requests from all-zero runtimes, after every request only the pinned
core holds a runtime, the last one requested, iff every request that moves the
container comes after one for a runtime of zero. -/
theorem repinned_iff (hstart : lone.ShowsRuntimes files (List.replicate lone.cores 0))
    (hrepins : ∀ p req q, reqs = p ++ req :: q →
      lone.Repins k host ((actuator k host files).stateAfter p) req) :
    (∀ p req q, reqs = p ++ req :: q →
        lone.OnlyOnPinnedCore ((actuator k host files).stateAfter (p ++ [req])) req.runtime) ↔
      reqs.IsChain MovesEmpty := by
  rw [List.isChain_iff_forall_rel_of_append_cons_cons]
  -- two neighbours, the first of which has left its runtime on the pinned core only
  have hpair : ∀ p a b q, reqs = p ++ a :: b :: q →
      lone.OnlyOnPinnedCore ((actuator k host files).stateAfter (p ++ [a])) a.runtime →
      (lone.OnlyOnPinnedCore ((actuator k host files).stateAfter (p ++ [a] ++ [b])) b.runtime ↔
        MovesEmpty a b) := by
    rintro p a b q hsplit ⟨i, hpinned, hshows⟩
    have hsplit' : reqs = (p ++ [a]) ++ b :: q := by
      rw [hsplit, List.append_assoc, List.singleton_append]
    have ha := hrepins p a (b :: q) hsplit
    have hb := hrepins (p ++ [a]) b q hsplit'
    obtain ⟨i', hindex, hi⟩ := ha.exists_coreIndex
    obtain ⟨j, hindex', -⟩ := hb.exists_coreIndex
    obtain rfl : i = i' := by
      rw [Trace.Machine.stateAfter_concat] at hpinned
      exact hpinned.unique (pinnedTo_finish ha hindex)
    rw [Trace.Machine.stateAfter_concat _ (p ++ [a])]
    refine (onlyOnPinnedCore_finish_iff hb hindex' hi hshows).trans ?_
    unfold MovesEmpty
    rw [hindex, hindex', Option.some.injEq]
  constructor
  · intro hall a b p q hsplit
    have hsplit' : reqs = (p ++ [a]) ++ b :: q := by
      rw [hsplit, List.append_assoc, List.singleton_append]
    exact (hpair p a b q hsplit (hall p a (b :: q) hsplit)).mp (hall (p ++ [a]) b q hsplit')
  · intro hmoves p
    induction p using List.reverseRecOn with
    | nil =>
        intro req q hsplit
        have hfirst := hrepins [] req q hsplit
        obtain ⟨i, hindex, hi⟩ := hfirst.exists_coreIndex
        exact ⟨i, pinnedTo_finish hfirst hindex,
          showsRuntimes_finish hfirst hindex hstart (by simpa using hi)⟩
    | append_singleton p a ih =>
        intro req q hsplit
        rw [List.append_assoc, List.singleton_append] at hsplit
        exact (hpair p a req q hsplit (ih a (req :: q) hsplit)).mpr (hmoves hsplit)

/-! ## A move of the sample container -/

/-- The sample container on a node with two cores. -/
def sampleLone : LoneContainer where
  containerCgPath := sampleContainerPath
  podCgPath := samplePodPath
  cores := 2

/-- A request for 0.2 s of 1 s on one core. -/
def pinRequest (core : Nat) : CgroupRequest :=
  { CgroupRequest.sampleBudget 1000000 200000 CgroupRequest.inInt_samplePeriod
      CgroupRequest.inInt_sampleRuntime with core := some (itoa core) }

/-- The files after the container has been pinned to CPU 0. -/
def pinnedFiles : Files :=
  (pinRequest 0).finish Kernel.permissive Host.sample (sampleFiles 1000000 0 "0 0")

theorem showsRuntimes_sampleFiles :
    sampleLone.ShowsRuntimes (sampleFiles 1000000 0 "0 0") (List.replicate 2 0) := by
  intro cgPath hcgroup
  rcases hcgroup with rfl | rfl
  · decide +kernel
  · decide +kernel

theorem repins_sample {files : Files} {core : Nat} (hcore : core < 2)
    (hok : (pinRequest core).Succeeds Kernel.permissive Host.sample files) :
    sampleLone.Repins Kernel.permissive Host.sample files (pinRequest core) where
  resolves := resolves_sample _
  accepted := by
    rw [CgroupRequest.accepted_iff]
    exact ⟨List.cons_ne_nil _ _, by show (0 : Int) < 1000000; omega,
      by show (200000 : Int) ≤ 1000000; omega⟩
  mode := rfl
  nonneg := by show (0 : Int) ≤ 200000; omega
  core := ⟨itoa core, core, rfl, parseIndex_itoa core, cpuList_itoa core, hcore⟩
  ok := hok

theorem succeeds_pinRequest_zero :
    (pinRequest 0).Succeeds Kernel.permissive Host.sample (sampleFiles 1000000 0 "0 0") := by
  decide +kernel

theorem repinned_iff_sample :
    (∀ p req q, [pinRequest 0] = p ++ req :: q → sampleLone.OnlyOnPinnedCore
        ((actuator Kernel.permissive Host.sample (sampleFiles 1000000 0 "0 0")).stateAfter
          (p ++ [req])) req.runtime) ↔
      [pinRequest 0].IsChain MovesEmpty :=
  repinned_iff showsRuntimes_sampleFiles fun p req q hsplit => by
    obtain ⟨rfl, hrest⟩ := List.append_eq_singleton_iff.mp hsplit.symm |>.resolve_right (by simp)
    cases hrest
    exact repins_sample (by decide) succeeds_pinRequest_zero

/-- The container moves from CPU 0 to CPU 1, and both cores keep the 0.2 s. -/
theorem repinned_fails :
    sampleLone.ShowsRuntimes (sampleFiles 1000000 0 "0 0") (List.replicate 2 0) ∧
    sampleLone.Repins Kernel.permissive Host.sample (sampleFiles 1000000 0 "0 0") (pinRequest 0) ∧
    sampleLone.Repins Kernel.permissive Host.sample pinnedFiles (pinRequest 1) ∧
    sampleLone.ShowsRuntimes ((pinRequest 1).finish Kernel.permissive Host.sample pinnedFiles)
      [200000, 200000] ∧
    ¬ sampleLone.OnlyOnPinnedCore
      ((pinRequest 1).finish Kernel.permissive Host.sample pinnedFiles) (pinRequest 1).runtime := by
  have hrepins : sampleLone.Repins Kernel.permissive Host.sample
      (sampleFiles 1000000 0 "0 0") (pinRequest 0) :=
    repins_sample (by decide) succeeds_pinRequest_zero
  have hrepins' : sampleLone.Repins Kernel.permissive Host.sample pinnedFiles (pinRequest 1) :=
    repins_sample (by decide) (by decide +kernel)
  -- the first request fills the slot of CPU 0, the second one does not clear it
  have hpinned : sampleLone.ShowsRuntimes pinnedFiles ((List.replicate 2 0).set 0 200000) :=
    showsRuntimes_finish hrepins rfl showsRuntimes_sampleFiles (by decide)
  refine ⟨showsRuntimes_sampleFiles, hrepins, hrepins', ?_, ?_⟩
  · exact showsRuntimes_finish hrepins' rfl hpinned (by decide)
  · intro honly
    rcases (onlyOnPinnedCore_finish_iff hrepins' rfl (by decide) hpinned).mp honly with hcore | hzero
    · exact absurd hcore (by decide)
    · exact absurd hzero (by decide)

end LoneContainer

end NodeActuator
end McKube
