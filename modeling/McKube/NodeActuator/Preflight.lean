import McKube.Atomic.Effect
import McKube.NodeActuator.Footprint

/-!
# What the preflight checks establish

`applyCgroup` reads and checks a number of files before it writes the first
one.  `Preflight` lists what a successful run of these checks has read and
checked (`reads_preflight`).
-/

namespace McKube
namespace NodeActuator

open AtomicProgram GoLib
open GoLib.filepath (join components rootPath Plain)

/-- The multi-runtime of the pod as `applyCgroup` reads it: `0` without a
core, and whenever there is no number to read. -/
def multiRuntimeAt (files : Files) (cgPath : GoString) : Option GoString → Int
  | none => 0
  | some core =>
      match files (join [cgPath, cgroupRTMultiRuntime]) with
      | none => 0
      | some data => multiRuntimeOf data core

/-- The checks that a request has passed before its first write, and the
values that were read. -/
structure Preflight (host : Host) (files : Files) (containerID : GoString) (period : Int)
    (core : Option GoString) (current : Current) : Prop where
  resolves : Resolves host containerID current.containerCgPath current.podCgPath
  controllers : ∃ rootControllers, files cgroupControllersFile = some rootControllers ∧
    tokenContains rootControllers "cpu" = true
  period_pos : 0 < period
  systemPeriod : ∃ globalRTPeriod, intAt files procSchedRTPeriod = some globalRTPeriod ∧
    0 < globalRTPeriod
  systemRuntime : ∃ globalRTRuntime, intAt files procSchedRTRuntime = some globalRTRuntime ∧
    0 ≤ globalRTRuntime
  rootPeriod : ∃ rootPeriod,
    intAt files (join [cgroupKubepodsSlice, cgroupRTPeriod]) = some rootPeriod ∧
    (rootPeriod = 0 ∨ period ≤ rootPeriod)
  podPeriod : intAt files (join [current.podCgPath, cgroupRTPeriod]) = some current.podPeriod
  podRuntime : intAt files (join [current.podCgPath, cgroupRTRuntime]) = some current.podRuntime
  podMultiRuntime : multiRuntimeAt files current.podCgPath core = current.podMultiRuntime

/-! ## The pod whose files are read -/

namespace Preflight

variable {host : Host} {files : Files} {containerID : GoString} {period : Int}
  {core : Option GoString} {current : Current} {containerCgPath podCgPath : GoString}

theorem podPeriod_eq (h : Preflight host files containerID period core current)
    (hresolves : Resolves host containerID containerCgPath podCgPath) {P : Int}
    (hP : intAt files (join [podCgPath, cgroupRTPeriod]) = some P) : current.podPeriod = P := by
  obtain ⟨-, hpod⟩ := h.resolves.unique hresolves
  rw [← hpod, h.podPeriod, Option.some.injEq] at hP
  exact hP

theorem podRuntime_eq (h : Preflight host files containerID period core current)
    (hresolves : Resolves host containerID containerCgPath podCgPath) {R : Int}
    (hR : intAt files (join [podCgPath, cgroupRTRuntime]) = some R) : current.podRuntime = R := by
  obtain ⟨-, hpod⟩ := h.resolves.unique hresolves
  rw [← hpod, h.podRuntime, Option.some.injEq] at hR
  exact hR

theorem podMultiRuntime_eq (h : Preflight host files containerID period core current)
    (hresolves : Resolves host containerID containerCgPath podCgPath) :
    current.podMultiRuntime = multiRuntimeAt files podCgPath core := by
  obtain ⟨-, hpod⟩ := h.resolves.unique hresolves
  rw [← h.podMultiRuntime, hpod]

end Preflight

/-! ## Calls that only read -/

/-- A successful run of the call from `files` leaves the files alone and
returns a value with the property `Q`. -/
def Reads {α : Type} (k : Kernel) (files : Files) (call : CgroupM α) (Q : α → Prop) : Prop :=
  ∀ value files', Program.run k.exec call.run files = (.ok value, files') →
    files' = files ∧ Q value

section Reads

variable {k : Kernel} {files : Files} {path cgPath : GoString} {α β : Type}

theorem Reads.bind {call : CgroupM α} {f : α → CgroupM β} {Q : α → Prop} {R : β → Prop}
    (h : Reads k files call Q) (hf : ∀ value, Q value → Reads k files (f value) R) :
    Reads k files (call >>= f) R := by
  intro result files' hrun
  obtain ⟨value, s, hcall, hrest⟩ := Fallible.run_bind_eq_ok hrun
  obtain ⟨rfl, hvalue⟩ := h value s hcall
  exact hf value hvalue result files' hrest

theorem reads_pure {value : α} {Q : α → Prop} (hvalue : Q value) :
    Reads k files (pure value) Q := by
  intro result files' hrun
  cases hrun
  exact ⟨rfl, hvalue⟩

theorem reads_throw {e : GoError} {Q : α → Prop} : Reads k files (throw e : CgroupM α) Q := by
  intro result files' hrun
  cases congrArg Prod.fst hrun

theorem reads_wrapError {message : GoString} {call : CgroupM α} {Q : α → Prop}
    (h : Reads k files call Q) : Reads k files (wrapError message call) Q := by
  intro value files' hrun
  apply h value files'
  unfold wrapError at hrun
  rw [ExceptT.run_mk, Program.run_bind] at hrun
  rcases hcall : Program.run k.exec call.run files with ⟨e | v, s⟩
  · rw [hcall] at hrun
    cases congrArg Prod.fst hrun
  · rw [hcall] at hrun
    exact hrun

theorem reads_stat : Reads k files (stat path) fun _ => True := by
  intro value files' hrun
  have hstate : (k.exec (.stat path) files).2 = files' := congrArg Prod.snd hrun
  exact ⟨by rw [← hstate, k.exec_stat_state], trivial⟩

theorem toOption_exec_readFile (k : Kernel) (path : GoString) (files : Files) :
    (k.exec (.readFile path) files).1.toOption = files path := by
  simp only [Kernel.exec]
  cases files path <;> rfl

theorem reads_readFile :
    Reads k files (readFile path) fun content => files path = some content := by
  intro content files' hrun
  have hanswer : (k.exec (.readFile path) files).1 = .ok content := congrArg Prod.fst hrun
  have hstate : (k.exec (.readFile path) files).2 = files' := congrArg Prod.snd hrun
  constructor
  · rw [← hstate, k.exec_readFile_state]
  · have hcontent := toOption_exec_readFile k path files
    rw [hanswer] at hcontent
    exact hcontent.symm

theorem reads_readIntFromFile :
    Reads k files (readIntFromFile path) fun value => intAt files path = some value := by
  refine reads_readFile.bind fun content hcontent => ?_
  split
  · rename_i value hvalue
    apply reads_pure
    rw [intAt, hcontent, Option.bind_some, hvalue]
  · exact reads_throw

theorem reads_failWhen {failed : Prop} [Decidable failed] {e : GoError} :
    Reads k files (failWhen failed e) fun _ => ¬ failed := by
  unfold failWhen
  split
  · exact reads_throw
  · exact reads_pure ‹_›

theorem reads_liftExcept {result : Except GoError α} :
    Reads k files (liftExcept result) fun value => result = .ok value := by
  cases result with
  | error e => exact reads_throw
  | ok value => exact reads_pure rfl

theorem reads_readRtValues :
    Reads k files (readRtValues cgPath) fun values =>
      intAt files (join [cgPath, cgroupRTPeriod]) = some values.1 ∧
        intAt files (join [cgPath, cgroupRTRuntime]) = some values.2 := by
  refine (reads_wrapError reads_readIntFromFile).bind fun period hperiod => ?_
  refine (reads_wrapError reads_readIntFromFile).bind fun runtime hruntime => ?_
  exact reads_pure ⟨hperiod, hruntime⟩

theorem reads_readMultiRuntime {core : Option GoString} :
    Reads k files (readMultiRuntime cgPath core) fun value =>
      multiRuntimeAt files cgPath core = value := by
  cases core with
  | none => exact reads_pure rfl
  | some core =>
      have hattempt : Reads k files (attempt (readFile (join [cgPath, cgroupRTMultiRuntime])))
          fun result => result.toOption = files (join [cgPath, cgroupRTMultiRuntime]) := by
        intro result files' hrun
        have hanswer := congrArg Prod.fst hrun
        have hstate : (k.exec (.readFile _) files).2 = files' := congrArg Prod.snd hrun
        rw [← Except.ok.inj hanswer, ← hstate, k.exec_readFile_state]
        exact ⟨rfl, toOption_exec_readFile k _ files⟩
      refine hattempt.bind fun result hresult => ?_
      cases result with
      | error e =>
          apply reads_pure
          rw [multiRuntimeAt, ← hresult]
          rfl
      | ok data =>
          apply reads_pure
          rw [multiRuntimeAt, ← hresult]
          rfl

end Reads

/-! ## The whole of the checks -/

/-- A successful run of the preflight checks has passed all of them. -/
theorem reads_preflight {k : Kernel} {host : Host} {files : Files} {containerID : GoString}
    {period : Int} {core : Option GoString} :
    Reads k files (preflight host containerID period core)
      (Preflight host files containerID period core) := by
  unfold preflight
  refine (reads_wrapError reads_stat).bind fun _ _ => ?_
  refine (reads_wrapError reads_liftExcept).bind fun paths hpaths => ?_
  refine (reads_wrapError reads_readFile).bind fun rootControllers hcontrollers => ?_
  refine reads_failWhen.bind fun _ hcpu => ?_
  refine (reads_wrapError reads_readIntFromFile).bind fun globalRTPeriod hglobalPeriod => ?_
  refine (reads_wrapError reads_readIntFromFile).bind fun globalRTRuntime hglobalRuntime => ?_
  refine reads_failWhen.bind fun _ hthrottling => ?_
  refine reads_failWhen.bind fun _ hperiods => ?_
  refine (reads_wrapError reads_readIntFromFile).bind fun rootPeriod hrootPeriod => ?_
  refine reads_failWhen.bind fun _ hrootLimit => ?_
  refine (reads_wrapError reads_readRtValues).bind fun values hvalues => ?_
  refine reads_readMultiRuntime.bind fun podMultiRuntime hmulti => ?_
  apply reads_pure
  constructor
  · exact hpaths
  · exact ⟨rootControllers, hcontrollers, by simpa using hcpu⟩
  · omega
  · exact ⟨globalRTPeriod, hglobalPeriod, by omega⟩
  · exact ⟨globalRTRuntime, hglobalRuntime, by omega⟩
  · exact ⟨rootPeriod, hrootPeriod, by omega⟩
  · exact hvalues.1
  · exact hvalues.2
  · exact hmulti

/-! ## Checks that pass -/

section Runs

variable {k : Kernel} {files : Files} {path cgPath : GoString} {α : Type}

theorem run_wrapError_of_ok {message : GoString} {call : CgroupM α} {value : α} {files' : Files}
    (h : Program.run k.exec call.run files = (.ok value, files')) :
    Program.run k.exec (wrapError message call).run files = (.ok value, files') := by
  unfold wrapError
  rw [ExceptT.run_mk, Program.run_bind, h]
  rfl

theorem run_stat {content : GoString} (h : files path = some content) :
    Program.run k.exec (stat path).run files = (.ok (), files) := by
  show k.exec (.stat path) files = _
  simp only [Kernel.exec, h]

theorem run_readFile {content : GoString} (h : files path = some content) :
    Program.run k.exec (readFile path).run files = (.ok content, files) := by
  show k.exec (.readFile path) files = _
  simp only [Kernel.exec, h]

theorem run_readIntFromFile {v : Int} (h : intAt files path = some v) :
    Program.run k.exec (readIntFromFile path).run files = (.ok v, files) := by
  obtain ⟨content, hcontent, hvalue⟩ := Option.bind_eq_some_iff.mp h
  unfold readIntFromFile
  rw [Fallible.run_bind_of_ok (run_readFile hcontent), hvalue]
  rfl

theorem run_failWhen {failed : Prop} [Decidable failed] {e : GoError} (h : ¬ failed) :
    Program.run k.exec (failWhen failed e).run files = (.ok (), files) := by
  rw [failWhen, if_neg h]
  rfl

theorem run_readRtValues {period runtime : Int}
    (hperiod : intAt files (join [cgPath, cgroupRTPeriod]) = some period)
    (hruntime : intAt files (join [cgPath, cgroupRTRuntime]) = some runtime) :
    Program.run k.exec (readRtValues cgPath).run files = (.ok (period, runtime), files) := by
  unfold readRtValues
  rw [Fallible.run_bind_of_ok (run_wrapError_of_ok (run_readIntFromFile hperiod)),
    Fallible.run_bind_of_ok (run_wrapError_of_ok (run_readIntFromFile hruntime))]
  rfl

/-- The multi-runtime is always read, if only as zero. -/
theorem run_readMultiRuntime (core : Option GoString) :
    Program.run k.exec (readMultiRuntime cgPath core).run files =
      (.ok (multiRuntimeAt files cgPath core), files) := by
  cases core with
  | none => rfl
  | some core =>
      have hattempt :
          Program.run k.exec (attempt (readFile (join [cgPath, cgroupRTMultiRuntime]))).run files =
            (.ok (k.exec (.readFile (join [cgPath, cgroupRTMultiRuntime])) files).1, files) := by
        show (_, (k.exec (.readFile _) files).2) = _
        rw [k.exec_readFile_state]
      unfold readMultiRuntime getCurrentMultiRuntime multiRuntimeAt
      rw [Fallible.run_bind_of_ok hattempt]
      cases hfile : files (join [cgPath, cgroupRTMultiRuntime]) <;>
        simp only [Kernel.exec, hfile] <;> rfl

/-- A request that meets all the checks passes them. -/
theorem run_preflight {host : Host} {containerID : GoString} {period : Int}
    {core : Option GoString} {current : Current}
    (h : Preflight host files containerID period core current) :
    Program.run k.exec (preflight host containerID period core).run files = (.ok current, files) := by
  obtain ⟨rootControllers, hcontrollers, hcpu⟩ := h.controllers
  obtain ⟨globalRTPeriod, hglobalPeriod, hperiodPos⟩ := h.systemPeriod
  obtain ⟨globalRTRuntime, hglobalRuntime, hruntimeNonneg⟩ := h.systemRuntime
  obtain ⟨rootPeriod, hrootPeriod, hrootLimit⟩ := h.rootPeriod
  have hpaths : Program.run k.exec (wrapError "failed to get cgroup paths" (liftExcept
      (getCgroupPathsFromInspect host (trimPrefix containerID "containerd://")))).run files =
      (.ok (current.containerCgPath, current.podCgPath), files) := by
    rw [show getCgroupPathsFromInspect host (trimPrefix containerID "containerd://") = _ from
      h.resolves]
    rfl
  have hperiod := h.period_pos
  have hcpu' : ¬ tokenContains rootControllers "cpu" = false := by
    rw [hcpu]
    decide
  unfold preflight
  dsimp only
  rw [Fallible.run_bind_of_ok (run_wrapError_of_ok (run_stat hcontrollers)),
    Fallible.run_bind_of_ok hpaths,
    Fallible.run_bind_of_ok (run_wrapError_of_ok (run_readFile hcontrollers)),
    Fallible.run_bind_of_ok (run_failWhen hcpu'),
    Fallible.run_bind_of_ok (run_wrapError_of_ok (run_readIntFromFile hglobalPeriod)),
    Fallible.run_bind_of_ok (run_wrapError_of_ok (run_readIntFromFile hglobalRuntime)),
    Fallible.run_bind_of_ok (run_failWhen (by omega)),
    Fallible.run_bind_of_ok (run_failWhen (by omega)),
    Fallible.run_bind_of_ok (run_wrapError_of_ok (run_readIntFromFile hrootPeriod)),
    Fallible.run_bind_of_ok (run_failWhen (by omega)),
    Fallible.run_bind_of_ok (run_wrapError_of_ok (run_readRtValues h.podPeriod h.podRuntime)),
    Fallible.run_bind_of_ok (run_readMultiRuntime core), h.podMultiRuntime]
  rfl

end Runs

end NodeActuator
end McKube
