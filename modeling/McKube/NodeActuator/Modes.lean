import McKube.NodeActuator.Gate

/-!
# The two modes on a period that matches

If the periods are already as requested, the normal mode has only the runtime to
write, as the escalation mode does.  Both write it to the same cgroups in the same
order; but the normal mode writes zero for a negative runtime
(`modes_agree_iff`).
-/

namespace McKube
namespace NodeActuator

open AtomicProgram GoLib
open GoLib.filepath (join components rootPath Plain)

/-- The same writes, the same final files and the same success. -/
abbrev SameWrites {α β : Type} (k : Kernel) (call : CgroupM α) (call' : CgroupM β)
    (files : Files) : Prop :=
  Fallible.SameEffect k.exec FileOp.IsWrite call call' files

/-! ## One cgroup -/

section OneCgroup

variable {k : Kernel} {files : Files} {cgPath cgPath' : GoString} {period r : Int}

theorem sameWrites_wrapError {α : Type} (message : GoString) (call : CgroupM α) :
    SameWrites k (wrapError message call) call files := by
  have hwrap : wrapError message call = ExceptT.mk (call.run >>= fun result =>
      .ret (result.mapError (GoError.wrap message))) := by
    unfold wrapError
    refine congrArg ExceptT.mk (congrArg (Program.bind call.run) (funext fun result => ?_))
    cases result <;> rfl
  rw [hwrap]
  exact Fallible.SameEffect.mapError _

/-- A period that matches is not written. -/
theorem run_updatePeriod_of_eq (hperiod : intAt files (join [cgPath, cgroupRTPeriod]) = some period) :
    Program.actions k.exec FileOp.IsWrite (updatePeriod cgPath period).run files = [] ∧
      Program.run k.exec (updatePeriod cgPath period).run files = (.ok (), files) := by
  have hread : ¬ FileOp.IsWrite (.readFile (join [cgPath, cgroupRTPeriod])) := not_false
  rw [run_updatePeriod, Program.run_act, Program.actions_act_of_not_visible k.exec _ hread,
    k.exec_readFile_state, toOption_exec_readFile, ← intAt, if_pos hperiod]
  exact ⟨rfl, rfl⟩

theorem run_writeCgroupFile_state (path value : GoString) :
    (Program.run k.exec (writeCgroupFile path value).run files).2 =
      (k.exec (.writeFile path value) files).2 := by
  unfold writeCgroupFile
  rw [ExceptT.run_mk, Program.run_act]
  rcases (k.exec (.writeFile path value) files).1 with (e | e) | value <;> rfl

/-- Writing a runtime leaves the periods of all cgroups alone. -/
theorem intAt_period_writeRuntimeFile (hrooted : Rooted cgPath) (hrooted' : Rooted cgPath') :
    intAt (Program.run k.exec (writeRuntimeFile cgPath r none).run files).2
        (join [cgPath', cgroupRTPeriod]) =
      intAt files (join [cgPath', cgroupRTPeriod]) := by
  have hne : join [cgPath', cgroupRTPeriod] ≠ join [cgPath, cgroupRTRuntime] :=
    join_ne_join hrooted' hrooted (by decide) (by decide) (by decide)
  unfold writeRuntimeFile intAt
  dsimp only
  rw [run_writeCgroupFile_state, k.exec_writeFile_other hne]

/-- Where the period matches, all that the normal mode writes is the runtime. -/
theorem sameWrites_writeRtValues (hrooted : Rooted cgPath)
    (hperiod : intAt files (join [cgPath, cgroupRTPeriod]) = some period)
    (periodDecreasing runtimeDecreasing multiRuntimeDecreasing : Bool) :
    SameWrites k (writeRtValues cgPath period r none periodDecreasing runtimeDecreasing
      multiRuntimeDecreasing) (writeRuntimeFile cgPath (clampRuntime r) none) files := by
  unfold writeRtValues
  split
  · -- the runtime first: the period that is read afterwards is still the old one
    apply Fallible.SameEffect.bind_quiet_right
    intro _ s' hrun
    have hperiod' : intAt s' (join [cgPath, cgroupRTPeriod]) = some period := by
      rw [← hperiod, ← show (Program.run k.exec
        (writeRuntimeFile cgPath (clampRuntime r) none).run files).2 = s' by rw [hrun]]
      exact intAt_period_writeRuntimeFile hrooted hrooted
    obtain ⟨hactions, hupdate⟩ := run_updatePeriod_of_eq (k := k) hperiod'
    rw [Fallible.actions_bind_of_ok hupdate, Fallible.run_bind_of_ok hupdate, hactions]
    exact ⟨rfl, (), rfl⟩
  · obtain ⟨hactions, hupdate⟩ := run_updatePeriod_of_eq (k := k) hperiod
    refine (Fallible.SameEffect.bind_quiet hupdate hactions).trans ?_
    exact Fallible.SameEffect.bind_quiet_right fun _ _ _ => ⟨rfl, (), rfl⟩

end OneCgroup

/-! ## Both cgroups -/

section Both

variable {k : Kernel} {files : Files} {containerCgPath podCgPath : GoString} {period r : Int}

/-- Two updates, one after the other, and what the normal mode does in their place. -/
theorem sameWrites_twice {first second : GoString} (hfirst : Rooted first) (hsecond : Rooted second)
    (hperiod : intAt files (join [first, cgroupRTPeriod]) = some period)
    (hperiod' : intAt files (join [second, cgroupRTPeriod]) = some period)
    (m₁ m₂ n₁ n₂ : GoString) (pd rd md : Bool) :
    SameWrites k
      (do
        wrapError m₁ (writeRtValues first period r none pd rd md)
        wrapError m₂ (writeRtValues second period r none pd rd md))
      (do
        wrapError n₁ (writeRuntimeOnly first (clampRuntime r) none)
        wrapError n₂ (writeRuntimeOnly second (clampRuntime r) none)) files := by
  have hone : ∀ {cgPath : GoString} {s : Files} (m n : GoString), Rooted cgPath →
      intAt s (join [cgPath, cgroupRTPeriod]) = some period →
      SameWrites k (wrapError m (writeRtValues cgPath period r none pd rd md))
        (wrapError n (writeRuntimeOnly cgPath (clampRuntime r) none)) s := fun m n hrooted h =>
    ((sameWrites_wrapError m _).trans (sameWrites_writeRtValues hrooted h pd rd md)).trans
      (sameWrites_wrapError n _).symm
  refine (hone m₁ n₁ hfirst hperiod).bind fun _ _ s' _ hrun => hone m₂ n₂ hsecond ?_
  have hstate : (Program.run k.exec (writeRuntimeOnly first (clampRuntime r) none).run files).2 =
      s' := by
    rw [← (sameWrites_wrapError n₁ _).state, hrun]
  rw [← hperiod', ← hstate]
  exact intAt_period_writeRuntimeFile hfirst hsecond

/-- The normal mode in the terms of the escalation mode. -/
theorem sameWrites_updateCgroups {current : Current} (hcontainer : Rooted current.containerCgPath)
    (hpod : Rooted current.podCgPath)
    (hperiod : intAt files (join [current.containerCgPath, cgroupRTPeriod]) = some period)
    (hperiod' : intAt files (join [current.podCgPath, cgroupRTPeriod]) = some period)
    (hcurrent : current.podPeriod = period) :
    SameWrites k (updateCgroups current period r none false)
      (applyRuntimeWithOrder current.containerCgPath current.podCgPath (clampRuntime r) none
        (isRuntimeDecrease current.podRuntime r)) files := by
  have hflag : isDecrease current.podPeriod period = false := by
    rw [isDecrease, hcurrent, decide_eq_false_iff_not]
    omega
  unfold updateCgroups applyRuntimeWithOrder
  rw [hflag]
  cases isRuntimeDecrease current.podRuntime r with
  | true => exact sameWrites_twice hcontainer hpod hperiod hperiod' _ _ _ _ _ _ _
  | false => exact sameWrites_twice hpod hcontainer hperiod' hperiod _ _ _ _ _ _ _

/-- The first write of the escalation mode. -/
theorem head_applyRuntimeWithOrder (decreasing : Bool) :
    (Program.actions k.exec FileOp.IsWrite
      (applyRuntimeWithOrder containerCgPath podCgPath r none decreasing).run files).head? =
      some (.writeFile (join [if decreasing then containerCgPath else podCgPath, cgroupRTRuntime])
        (itoa r)) := by
  have hwrite : ∀ path, FileOp.IsWrite (.writeFile path (itoa r)) := fun _ => trivial
  cases decreasing with
  | true =>
      exact congrArg List.head? (Program.actions_act_of_visible k.exec FileOp.IsWrite
        (hwrite (join [containerCgPath, cgroupRTRuntime])) _ files)
  | false =>
      exact congrArg List.head? (Program.actions_act_of_visible k.exec FileOp.IsWrite
        (hwrite (join [podCgPath, cgroupRTRuntime])) _ files)

end Both

/-! ## The two modes of a request -/

namespace CgroupRequest

/-- The request in one of the two modes. -/
def inMode (req : CgroupRequest) (onlyRuntime : Bool) : CgroupRequest :=
  { req with onlyRuntime := onlyRuntime }

/-- Both modes write the same, and leave the same files. -/
def ModesAgree (k : Kernel) (host : Host) (req : CgroupRequest) (files : Files) : Prop :=
  (req.inMode false).writes k host files = (req.inMode true).writes k host files ∧
    (req.inMode false).finish k host files = (req.inMode true).finish k host files

variable {k : Kernel} {host : Host} {req : CgroupRequest} {files : Files}
  {containerCgPath podCgPath : GoString}

/-- With a runtime that is not negative, the two modes do the same. -/
theorem modesAgree_of_nonneg (hresolves : Resolves host req.containerID containerCgPath podCgPath)
    (hcore : req.core = none)
    (hperiod : ∀ cgPath, cgPath = containerCgPath ∨ cgPath = podCgPath →
      intAt files (join [cgPath, cgroupRTPeriod]) = some req.period)
    (hruntime : 0 ≤ req.runtime ∨ req.Rejected host files) : req.ModesAgree k host files := by
  have hsame : SameWrites k ((req.inMode false).apply host) ((req.inMode true).apply host) files := by
    refine (Fallible.SameEffect.refl (preflight host req.containerID req.period req.core) _).bind ?_
    intro current current' s hrun hrun'
    obtain rfl : current = current' := by
      rw [hrun] at hrun'
      cases hrun'
      rfl
    obtain ⟨rfl, hcurrent⟩ := reads_preflight current s hrun
    obtain ⟨hcontainerPath, hpodPath⟩ := hcurrent.resolves.unique hresolves
    have hrooted := hcurrent.resolves.rooted
    have hnonneg : 0 ≤ req.runtime :=
      hruntime.resolve_right fun hrejected => hrejected ⟨current, hcurrent⟩
    have hclamp : clampRuntime req.runtime = req.runtime := by
      rw [clampRuntime_eq_max]
      omega
    have hupdate := sameWrites_updateCgroups (k := k) (r := req.runtime) hrooted.1 hrooted.2
      (hperiod _ (Or.inl hcontainerPath)) (hperiod _ (Or.inr hpodPath))
      (hcurrent.podPeriod_eq hresolves (hperiod _ (Or.inr rfl)))
    rw [hclamp, ← hcore] at hupdate
    -- without a core, the escalation mode looks at the flag of the whole cgroup
    refine hupdate.trans ?_
    show SameWrites k _ (updateCgroups current req.period req.runtime req.core true) s
    rw [hcore]
    exact Fallible.SameEffect.refl _ s
  exact ⟨hsame.actions, hsame.state⟩

/-- On matching periods, and without a core, both modes write the same runtime to
the same cgroups in the same order and leave the same files, iff the runtime is
not negative, or the request is rejected before its first write. -/
theorem modes_agree_iff (hresolves : Resolves host req.containerID containerCgPath podCgPath)
    (hcore : req.core = none)
    (hperiod : ∀ cgPath, cgPath = containerCgPath ∨ cgPath = podCgPath →
      intAt files (join [cgPath, cgroupRTPeriod]) = some req.period) :
    req.ModesAgree k host files ↔ 0 ≤ req.runtime ∨ req.Rejected host files := by
  refine ⟨fun hagree => ?_, modesAgree_of_nonneg hresolves hcore hperiod⟩
  by_contra hnot
  rw [not_or, Rejected, not_not, not_le] at hnot
  obtain ⟨hneg, current, hcurrent⟩ := hnot
  obtain ⟨hcontainerPath, hpodPath⟩ := hcurrent.resolves.unique hresolves
  have hrooted := hcurrent.resolves.rooted
  have hupdate := sameWrites_updateCgroups (k := k) (r := req.runtime) hrooted.1 hrooted.2
    (hperiod _ (Or.inl hcontainerPath)) (hperiod _ (Or.inr hpodPath))
    (hcurrent.podPeriod_eq hresolves (hperiod _ (Or.inr rfl)))
  have hnormal : (req.inMode false).writes k host files = _ := writes_of_preflight hcurrent
  have hescalation : (req.inMode true).writes k host files = _ := writes_of_preflight hcurrent
  have hwrites : Program.actions k.exec FileOp.IsWrite
      (applyRuntimeWithOrder current.containerCgPath current.podCgPath (clampRuntime req.runtime)
        none (isRuntimeDecrease current.podRuntime req.runtime)).run files =
      Program.actions k.exec FileOp.IsWrite
        (applyRuntimeWithOrder current.containerCgPath current.podCgPath req.runtime none
          (isRuntimeDecrease current.podRuntime req.runtime)).run files := by
    rw [← hupdate.actions]
    have hagree' := hnormal.symm.trans (hagree.1.trans hescalation)
    simp only [inMode, hcore] at hagree'
    exact hagree'
  -- already the first text is another one
  have hhead := congrArg List.head? hwrites
  rw [head_applyRuntimeWithOrder, head_applyRuntimeWithOrder, Option.some.injEq,
    FileOp.writeFile.injEq] at hhead
  have hsame := itoa_injective hhead.2
  rw [clampRuntime_eq_max] at hsame
  omega

theorem inInt_sampleUnlimited : InInt (-1) := by decide

/-- A request that lifts the limit of the sample container. -/
def sampleUnlimited : CgroupRequest :=
  sampleBudget 1000000 (-1) inInt_samplePeriod inInt_sampleUnlimited

theorem periods_sampleUnlimited : ∀ cgPath ∈ [sampleContainerPath, samplePodPath],
    intAt (sampleFiles 1000000 500000 "0 0") (join [cgPath, cgroupRTPeriod]) =
      some sampleUnlimited.period := by
  decide +kernel

theorem modes_agree_iff_sample :
    sampleUnlimited.ModesAgree Kernel.permissive Host.sample (sampleFiles 1000000 500000 "0 0") ↔
      0 ≤ sampleUnlimited.runtime ∨
        sampleUnlimited.Rejected Host.sample (sampleFiles 1000000 500000 "0 0") :=
  modes_agree_iff (resolves_sample _) rfl fun cgPath hcgroup =>
    periods_sampleUnlimited cgPath (by simpa using hcgroup)

/-- The normal mode forbids all RT time where the escalation mode lifts the limit. -/
theorem modes_agree_fails :
    sampleUnlimited.Accepted ∧
    (∀ cgPath ∈ [sampleContainerPath, samplePodPath],
      intAt (sampleFiles 1000000 500000 "0 0") (join [cgPath, cgroupRTPeriod]) =
        some sampleUnlimited.period) ∧
    (sampleUnlimited.inMode false).writes Kernel.permissive Host.sample
        (sampleFiles 1000000 500000 "0 0") =
      [.writeFile (join [samplePodPath, cgroupRTRuntime]) "0",
        .writeFile (join [sampleContainerPath, cgroupRTRuntime]) "0"] ∧
    (sampleUnlimited.inMode true).writes Kernel.permissive Host.sample
        (sampleFiles 1000000 500000 "0 0") =
      [.writeFile (join [samplePodPath, cgroupRTRuntime]) "-1",
        .writeFile (join [sampleContainerPath, cgroupRTRuntime]) "-1"] := by
  refine ⟨by decide, periods_sampleUnlimited, ?_, ?_⟩
  · decide +kernel
  · decide +kernel

end CgroupRequest

end NodeActuator
end McKube
