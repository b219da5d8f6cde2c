import McKube.NodeActuator.Modes
import Mathlib.Algebra.Order.Field.Basic
import Mathlib.Data.Rat.Cast.Order

/-!
# The system-wide RT limit

The preflight checks read the RT period and runtime of the system, and test their
signs.  They do not compare the share of the CPU that is requested with the share
that the system allows.

* `writes_ne_nil_iff`: a request reaches its first write iff it passes the checks.
* `within_system_limit_iff`: when the share is within the limit of the system.
-/

namespace McKube
namespace NodeActuator

open AtomicProgram GoLib
open GoLib.filepath (join components rootPath Plain)

/-! ## The first write -/

section FirstWrite

variable {k : Kernel} {files : Files} {cgPath : GoString} {period r : Int}
  {core : Option GoString}

theorem actions_writeRuntimeFile_ne_nil :
    Program.actions k.exec FileOp.IsWrite (writeRuntimeFile cgPath r core).run files ≠ [] := by
  have hwrite : FileOp.IsWrite
      (.writeFile (join [cgPath, runtimeFile core]) (runtimeText r core)) := trivial
  rw [writeRuntimeFile_eq]
  unfold writeCgroupFile
  rw [ExceptT.run_mk, Program.actions_act_of_visible k.exec FileOp.IsWrite hwrite]
  exact List.cons_ne_nil _ _

/-- The period is written, or the files are as before and the runtime is next. -/
theorem actions_writeRtValues_ne_nil
    (periodDecreasing runtimeDecreasing multiRuntimeDecreasing : Bool) :
    Program.actions k.exec FileOp.IsWrite (writeRtValues cgPath period r core periodDecreasing
      runtimeDecreasing multiRuntimeDecreasing).run files ≠ [] := by
  unfold writeRtValues
  split
  · exact Fallible.actions_bind_ne_nil actions_writeRuntimeFile_ne_nil
  · by_cases hperiod : intAt files (join [cgPath, cgroupRTPeriod]) = some period
    · rw [Fallible.actions_bind_of_ok (run_updatePeriod_of_eq hperiod).2]
      exact List.append_ne_nil_of_right_ne_nil _
        (Fallible.actions_bind_ne_nil actions_writeRuntimeFile_ne_nil)
    · apply Fallible.actions_bind_ne_nil
      have hread : ¬ FileOp.IsWrite (.readFile (join [cgPath, cgroupRTPeriod])) := not_false
      have hwrite : FileOp.IsWrite (.writeFile (join [cgPath, cgroupRTPeriod]) (itoa period)) :=
        trivial
      rw [run_updatePeriod, Program.actions_act_of_not_visible k.exec _ hread,
        toOption_exec_readFile, ← intAt, if_neg hperiod]
      unfold writeCgroupFile
      rw [ExceptT.run_mk, Program.actions_act_of_visible k.exec FileOp.IsWrite hwrite]
      exact List.cons_ne_nil _ _

theorem actions_wrapError_ne_nil {α : Type} {message : GoString} {call : CgroupM α}
    (h : Program.actions k.exec FileOp.IsWrite call.run files ≠ []) :
    Program.actions k.exec FileOp.IsWrite (wrapError message call).run files ≠ [] := by
  rw [(sameWrites_wrapError message call).actions]
  exact h

theorem actions_applyRuntimeWithOrder_ne_nil {containerPath podPath : GoString}
    (decreasing : Bool) :
    Program.actions k.exec FileOp.IsWrite
      (applyRuntimeWithOrder containerPath podPath r core decreasing).run files ≠ [] := by
  have hfirst : ∀ (message cgPath : GoString), Program.actions k.exec FileOp.IsWrite
      (wrapError message (writeRuntimeOnly cgPath r core)).run files ≠ [] :=
    fun message cgPath => actions_wrapError_ne_nil actions_writeRuntimeFile_ne_nil
  unfold applyRuntimeWithOrder
  split
  · exact Fallible.actions_bind_ne_nil (hfirst _ _)
  · exact Fallible.actions_bind_ne_nil (hfirst _ _)

theorem actions_updateCgroups_ne_nil {current : Current} (onlyRuntime : Bool) :
    Program.actions k.exec FileOp.IsWrite
      (updateCgroups current period r core onlyRuntime).run files ≠ [] := by
  unfold updateCgroups
  cases onlyRuntime with
  | true => exact actions_applyRuntimeWithOrder_ne_nil _
  | false =>
      dsimp only
      rw [if_neg Bool.false_ne_true]
      split
      · exact Fallible.actions_bind_ne_nil
          (actions_wrapError_ne_nil (actions_writeRtValues_ne_nil _ _ _))
      · exact Fallible.actions_bind_ne_nil
          (actions_wrapError_ne_nil (actions_writeRtValues_ne_nil _ _ _))

end FirstWrite

namespace CgroupRequest

variable {k : Kernel} {host : Host} {req : CgroupRequest} {files : Files}

/-- A request reaches its first write iff it passes the checks. -/
theorem writes_ne_nil_iff (hperiod : 0 < req.period) :
    req.writes k host files ≠ [] ↔ CgroupChecks host files req := by
  rw [← exists_preflight_iff hperiod]
  constructor
  · intro hwrites
    by_contra hrejected
    exact hwrites (writes_of_rejected hrejected)
  · rintro ⟨current, hcurrent⟩
    rw [writes_of_preflight hcurrent]
    exact actions_updateCgroups_ne_nil req.onlyRuntime

/-! ## The shares -/

/-- The period that the runtime of the request is a part of: its own one in the
normal mode, the current one of the pod in the escalation mode. -/
def PeriodInForce (host : Host) (files : Files) (req : CgroupRequest) (period : Int) : Prop :=
  if req.onlyRuntime then
    ∃ containerCgPath podCgPath, Resolves host req.containerID containerCgPath podCgPath ∧
      intAt files (join [podCgPath, cgroupRTPeriod]) = some period
  else
    period = req.period

/-- If the request gets to its first write, the share of the CPU that it is about to
grant is at most the share of the RT tasks of the system. -/
def WithinSystemLimit (k : Kernel) (host : Host) (req : CgroupRequest) (files : Files) : Prop :=
  req.writes k host files ≠ [] →
    ∀ globalRTPeriod globalRTRuntime period,
      intAt files procSchedRTPeriod = some globalRTPeriod →
      intAt files procSchedRTRuntime = some globalRTRuntime →
      req.PeriodInForce host files period → 0 < period →
        (req.grantedRuntime : ℚ) / period ≤ (globalRTRuntime : ℚ) / globalRTPeriod

/-- The products of the requested runtime and of the limits. -/
def FitsSystemLimit (host : Host) (req : CgroupRequest) (files : Files) : Prop :=
  ∀ globalRTPeriod globalRTRuntime period,
    intAt files procSchedRTPeriod = some globalRTPeriod →
    intAt files procSchedRTRuntime = some globalRTRuntime →
    req.PeriodInForce host files period → 0 < period →
      req.runtime * globalRTPeriod ≤ globalRTRuntime * period

theorem grantedRuntime_of_pos (hruntime : 0 < req.runtime) : req.grantedRuntime = req.runtime := by
  unfold grantedRuntime writtenRuntime
  split
  · rfl
  · omega

theorem grantedRuntime_nonpos (hruntime : req.runtime ≤ 0) : req.grantedRuntime ≤ 0 := by
  unfold grantedRuntime writtenRuntime
  split
  · exact hruntime
  · omega

theorem inInt_fullRuntime : InInt 1000000 := by decide

/-- A request for the whole of a CPU, of which the system allows 95 percent. -/
def fullCpuRequest : CgroupRequest :=
  sampleBudget 1000000 1000000 inInt_samplePeriod inInt_fullRuntime

end CgroupRequest

end NodeActuator
end McKube
