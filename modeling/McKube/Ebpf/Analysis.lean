import McKube.Ebpf.ContainerID
import McKube.Ebpf.PodLookup
import McKube.Ebpf.Statistics
import McKube.Shell.Arithmetic

/-!
# The analysis of a statistics file

`analyze_overrun.sh` reads the file that the monitor has saved.  For every container it
looks for the pod, adds the overruns to the class of the pod, and prints a line; in the
end it prints the sums over the four classes.

* `processLine_line`: what a round of the loop does with the line of a container.
* `Tallied.add`: what the counters stand for is kept by a round.
* `analyzeOverrun_saveStats`: what the script makes of a file from the monitor.
-/

namespace McKube.Ebpf.Analyzer

open GoLib
open Monitor (IsContainerID isLowerHex DateTime ContainerStat SortedStats saveStats)

/-! ## The script -/

def QosClass.text : QosClass → GoString
  | .high => "HIGH"
  | .medium => "MEDIUM"
  | .low => "LOW"
  | .unknown => "UNKNOWN"

/-- `ALL_PODS_JSON`; `kubectl` is `none` if the command fails or prints nothing. -/
def allPods (kubectl : Option (List Pod)) : List Pod := kubectl.getD []

/-- What the script prints about a container. -/
structure Record where
  qosClass : QosClass
  containerID : GoString
  overrunCount : GoString
  podNamespace : GoString
  podName : GoString
  deriving DecidableEq

def recordOf (pods : List Pod) (containerID overrunCount : GoString) : Record :=
  match lookup pods containerID with
  | none =>
      { qosClass := .unknown
        containerID := containerID
        overrunCount := overrunCount
        podNamespace := "N/A"
        podName := "Not Found" }
  | some info =>
      { qosClass := classOfLabel info.appLabel
        containerID := containerID
        overrunCount := overrunCount
        podNamespace := info.podNamespace
        podName := info.podName }

/-- The format `%-10s %-64s %5d   %s/%s`. -/
def Record.line (r : Record) : GoString :=
  r.qosClass.text.rightpad 10 ' ' ++ ' ' :: (r.containerID.rightpad 64 ' ' ++ ' ' ::
    (r.overrunCount.leftpad 5 ' ' ++ ("   " : GoString) ++ r.podNamespace ++ '/' :: r.podName))

/-- The counters of the four classes, and what has been printed. -/
structure Analysis where
  count : QosClass → Int64
  overruns : QosClass → Int64
  records : List Record

namespace Analysis

def start : Analysis where
  count := fun _ => 0
  overruns := fun _ => 0
  records := []

/-- One more container in the class of the record, with `n` overruns. -/
def add (a : Analysis) (r : Record) (n : Int64) : Analysis where
  count := Function.update a.count r.qosClass (a.count r.qosClass + 1)
  overruns := Function.update a.overruns r.qosClass (a.overruns r.qosClass + n)
  records := a.records ++ [r]

end Analysis

/-- `^(Container|===|Timestamp|Total|Unique|=)`. -/
def isHeader (s : GoString) : Bool :=
  (["Container", "===", "Timestamp", "Total", "Unique", "="] : List String).any
    fun text => hasPrefix s text

/-- `^[a-f0-9]{64}$`. -/
def isID (s : GoString) : Bool := s.length = 64 && s.all isLowerHex

/-- A round of the loop. -/
def processLine (pods : List Pod) (a : Analysis) (line : GoString) : Option Analysis :=
  let fields := Shell.read3 '\t' line
  if isHeader fields.1 ∨ fields.1 = [] then some a
  else if ¬ isID fields.1 then some a
  else
    match Shell.arith fields.2.1, Shell.printfInt fields.2.1 with
    | some n, some shown => some (a.add (recordOf pods fields.1 shown) n)
    | _, _ => none

/-- The loop over the file. -/
def analysisOf (pods : List Pod) (log : GoString) : Option Analysis :=
  (Shell.readLines (Shell.tailFrom 7 log)).foldlM (processLine pods) Analysis.start

namespace Analysis

variable (a : Analysis)

def totalContainers : Int64 := a.count .low + a.count .medium + a.count .high + a.count .unknown

def totalOverruns : Int64 :=
  a.overruns .low + a.overruns .medium + a.overruns .high + a.overruns .unknown

/-- The line of a class, which is left out if the class has no containers. -/
def classLine (q : QosClass) : Option (List GoString) :=
  if 0 < a.count q then
    (Shell.div (a.overruns q) (a.count q)).map fun average =>
      [q.text.rightpad 14 ' ' ++ (itoa (a.count q).toInt).rightpad 13 ' ' ++ ' ' ::
        ((itoa (a.overruns q).toInt).rightpad 17 ' ' ++ ' ' :: itoa average.toInt)]
  else some []

end Analysis

/-- The format of the line `TOTAL`. -/
def totalLine (containers overruns : Int64) : GoString :=
  ("TOTAL" : GoString).rightpad 14 ' ' ++ (itoa containers.toInt).rightpad 13 ' ' ++ ' ' ::
    (itoa overruns.toInt).rightpad 17 ' '

/-- What the script prints before the loop. -/
def reportHeader (date : DateTime) : List GoString :=
  ["=== HCBS Overrun Analysis with QoS Classes ===", ("Timestamp: " : GoString) ++ date.text, []]

def summaryHeader : List GoString :=
  [[],
    "=== Summary by QoS Class ===",
    "QoS Class     Containers    Total Overruns    Avg Overruns",
    "============================================================"]

def summaryRule : GoString := "------------------------------------------------------------"

/-- The output file, unless a division fails. -/
def Analysis.text (a : Analysis) (date : DateTime) : Option GoString :=
  ([QosClass.low, .medium, .high, .unknown].mapM a.classLine).map fun classLines =>
    Text.unlines '\n' (reportHeader date ++ a.records.map Record.line ++ summaryHeader ++
      classLines.flatten ++ [summaryRule, totalLine a.totalContainers a.totalOverruns])

/-- The script: the counters at its end and the output file. -/
def analyzeOverrun (date : DateTime) (kubectl : Option (List Pod)) (log : GoString) :
    Option (Analysis × GoString) :=
  (analysisOf (allPods kubectl) log).bind fun a => (a.text date).map fun text => (a, text)

/-! ## One container -/

theorem qosClass_recordOf (pods : List Pod) (cid shown : GoString) :
    (recordOf pods cid shown).qosClass = classOf (lookup pods cid) := by
  unfold recordOf
  cases lookup pods cid <;> rfl

theorem containerID_recordOf (pods : List Pod) (cid shown : GoString) :
    (recordOf pods cid shown).containerID = cid := by
  unfold recordOf
  cases lookup pods cid <;> rfl

theorem isID_iff {s : GoString} : isID s = true ↔ IsContainerID s := by
  simp [isID, IsContainerID]

theorem not_mem_id {cid : GoString} (hid : IsContainerID cid) {c : Char}
    (hc : isLowerHex c = false) : c ∉ cid := by
  intro hmem
  rw [hid.2 c hmem] at hc
  cases hc

theorem isHeader_of_id {cid : GoString} (hid : IsContainerID cid) : isHeader cid = false := by
  -- each of these words has a character that no id has
  have hfirst : ∀ text ∈ (["Container", "===", "Timestamp", "Total", "Unique", "="] : List String),
      (text.toList.any fun c => !isLowerHex c) = true := by
    decide
  rw [isHeader, List.any_eq_false]
  intro text htext hstart
  obtain ⟨c, hc, hhex⟩ := List.any_eq_true.mp (hfirst text htext)
  rw [Bool.not_eq_true'] at hhex
  exact not_mem_id hid hhex ((List.isPrefixOf_iff_prefix.mp hstart).subset hc)

theorem read3_line {stat : ContainerStat} (hid : IsContainerID stat.cid) :
    Shell.read3 '\t' stat.line = (stat.cid, itoa stat.count.toInt, []) := by
  have hcid : '\t' ∉ stat.cid := not_mem_id hid (by decide)
  have hcount : '\t' ∉ itoa stat.count.toInt :=
    Monitor.not_mem_itoa_int (by decide) (by decide)
  have hstart : Shell.Flush '\t' (stat.cid ++ '\t' :: itoa stat.count.toInt) := by
    refine Or.inr fun hhead => ?_
    have hne : stat.cid ≠ [] := List.ne_nil_of_length_eq_add_one hid.1
    rw [List.head?_append_of_ne_nil _ hne] at hhead
    exact hcid (List.mem_of_head? hhead)
  rw [Shell.read3, ContainerStat.line,
    Shell.nextWord_append_cons hcid hstart (Shell.flush_of_not_mem hcount),
    Shell.nextWord_of_not_mem hcount, Shell.lastWord_of_not_mem List.not_mem_nil]

/-- The record of a container of the map. -/
def statRecord (pods : List Pod) (stat : ContainerStat) : Record :=
  recordOf pods stat.cid (itoa stat.count.toInt)

theorem processLine_line (pods : List Pod) (a : Analysis) {stat : ContainerStat}
    (hid : IsContainerID stat.cid) (hcount : 0 ≤ stat.count) :
    processLine pods a stat.line = some (a.add (statRecord pods stat) stat.count) := by
  have hne : stat.cid ≠ [] := List.ne_nil_of_length_eq_add_one hid.1
  unfold processLine
  simp [read3_line hid, isHeader_of_id hid, hne, isID_iff.mpr hid, Shell.arith_itoa hcount,
    Shell.printfInt_itoa hcount, statRecord]

theorem processLine_rule (pods : List Pod) (a : Analysis) :
    processLine pods a Monitor.rule = some a := by
  have hheader : isHeader (Shell.read3 '\t' Monitor.rule).1 = true := by decide +kernel
  simp [processLine, hheader]

/-! ## All containers -/

namespace Analysis

theorem totalContainers_add (a : Analysis) (r : Record) (n : Int64) :
    (a.add r n).totalContainers = a.totalContainers + 1 := by
  unfold totalContainers add
  cases r.qosClass with
  | low => simp; grind
  | medium => simp; grind
  | high => simp; grind
  | unknown => simp; grind

theorem totalOverruns_add (a : Analysis) (r : Record) (n : Int64) :
    (a.add r n).totalOverruns = a.totalOverruns + n := by
  unfold totalOverruns add
  cases r.qosClass with
  | low => simp; grind
  | medium => simp; grind
  | high => simp; grind
  | unknown => simp; grind

end Analysis

/-- What the counters stand for after the containers `stats`. -/
structure Tallied (pods : List Pod) (stats : List ContainerStat) (a : Analysis) : Prop where
  records : a.records = stats.map (statRecord pods)
  count : ∀ q, a.count q =
    Int64.ofNat (stats.countP fun stat => classOf (lookup pods stat.cid) = q)
  overruns : ∀ q, a.overruns q =
    ((stats.filter fun stat => classOf (lookup pods stat.cid) = q).map ContainerStat.count).sum
  totalContainers : a.totalContainers = Int64.ofNat stats.length
  totalOverruns : a.totalOverruns = (stats.map ContainerStat.count).sum

variable {pods : List Pod}

theorem tallied_start : Tallied pods [] Analysis.start where
  records := rfl
  count _ := rfl
  overruns _ := rfl
  totalContainers := rfl
  totalOverruns := rfl

theorem Tallied.add {stats : List ContainerStat} {a : Analysis} (h : Tallied pods stats a)
    (stat : ContainerStat) :
    Tallied pods (stats ++ [stat]) (a.add (statRecord pods stat) stat.count) := by
  have hclass : (statRecord pods stat).qosClass = classOf (lookup pods stat.cid) :=
    qosClass_recordOf pods stat.cid _
  exact
    { records := by
        rw [List.map_append, ← h.records]
        rfl
      count := by
        intro q
        show Function.update a.count _ _ q = _
        rw [List.countP_append, List.countP_singleton, hclass]
        by_cases hq : q = classOf (lookup pods stat.cid)
        · subst hq
          rw [Function.update_self, h.count, if_pos (by simp), Int64.ofNat_add]
          rfl
        · rw [Function.update_of_ne hq, h.count, if_neg (by simp [Ne.symm hq]), Nat.add_zero]
      overruns := by
        intro q
        show Function.update a.overruns _ _ q = _
        rw [List.filter_append, List.map_append, hclass]
        by_cases hq : q = classOf (lookup pods stat.cid)
        · subst hq
          rw [Function.update_self, h.overruns, List.filter_cons_of_pos (by simp), List.filter_nil,
            List.map_singleton, sum_concat]
        · rw [Function.update_of_ne hq, h.overruns,
            List.filter_cons_of_neg (by simp [Ne.symm hq]), List.filter_nil, List.map_nil,
            List.append_nil]
      totalContainers := by
        rw [Analysis.totalContainers_add, h.totalContainers, List.length_append,
          List.length_singleton, Int64.ofNat_add]
        rfl
      totalOverruns := by
        rw [Analysis.totalOverruns_add, h.totalOverruns, List.map_append, List.map_singleton,
          sum_concat] }

/-- The loop goes through the lines of the containers. -/
theorem foldlM_processLine {stats : List ContainerStat}
    (hstats : ∀ stat ∈ stats, IsContainerID stat.cid ∧ 0 ≤ stat.count)
    {done : List ContainerStat} {a : Analysis} (h : Tallied pods done a) :
    ∃ a', (stats.map ContainerStat.line).foldlM (processLine pods) a = some a' ∧
      Tallied pods (done ++ stats) a' := by
  induction stats generalizing done a with
  | nil => exact ⟨a, rfl, by rwa [List.append_nil]⟩
  | cons stat stats ih =>
      obtain ⟨hid, hcount⟩ := hstats stat List.mem_cons_self
      obtain ⟨a', hfold, htallied⟩ :=
        ih (fun other hother => hstats other (List.mem_cons_of_mem stat hother)) (h.add stat)
      refine ⟨a', ?_, ?_⟩
      · rw [List.map_cons, List.foldlM_cons, processLine_line pods a hid hcount]
        exact hfold
      · rwa [List.append_assoc, List.singleton_append] at htallied

/-- What the analyser reads from the file are the containers that were written to it. -/
theorem analysisOf_saveStats (pods : List Pod) (now : DateTime) (totalCnt size : Int64)
    {stats : List ContainerStat}
    (hstats : ∀ stat ∈ stats, IsContainerID stat.cid ∧ 0 ≤ stat.count) :
    ∃ a, analysisOf pods (saveStats now totalCnt size stats) = some a ∧ Tallied pods stats a := by
  have hlines := Monitor.newline_not_mem_statsLines fun stat hstat =>
    not_mem_id (hstats stat hstat).1 (show isLowerHex '\n' = false by decide)
  -- `tail` leaves out the header up to the rule, which the loop takes for a header line
  have hread : Shell.readLines (Shell.tailFrom 7 (saveStats now totalCnt size stats)) =
      Monitor.rule :: stats.map ContainerStat.line := by
    have hheader : (Monitor.statsHeader now totalCnt size).length + 1 = 7 := rfl
    rw [Monitor.saveStats_eq, ← hheader,
      Shell.tailFrom_unlines (Monitor.newline_not_mem_statsHeader now totalCnt size),
      Shell.readLines_unlines hlines]
  obtain ⟨a, hfold, htallied⟩ := foldlM_processLine hstats (tallied_start : Tallied pods [] Analysis.start)
  refine ⟨a, ?_, htallied⟩
  rw [analysisOf, hread, List.foldlM_cons, processLine_rule]
  exact hfold

/-- No average is divided by zero, and the last line has the totals. -/
theorem text_eq_some (a : Analysis) (date : DateTime) :
    ∃ above, a.text date =
      some (Text.unlines '\n' (above ++ [totalLine a.totalContainers a.totalOverruns])) := by
  have hline : ∀ q, ∃ line, a.classLine q = some line := by
    intro q
    unfold Analysis.classLine
    split
    · next hpos =>
        have hne : a.count q ≠ 0 := (Int64.ne_of_lt hpos).symm
        rw [Shell.div, if_neg hne]
        exact ⟨_, rfl⟩
    · exact ⟨[], rfl⟩
  obtain ⟨low, hlow⟩ := hline .low
  obtain ⟨medium, hmedium⟩ := hline .medium
  obtain ⟨high, hhigh⟩ := hline .high
  obtain ⟨unknown, hunknown⟩ := hline .unknown
  have hlines : [QosClass.low, .medium, .high, .unknown].mapM a.classLine =
      some [low, medium, high, unknown] := by
    simp [hlow, hmedium, hhigh, hunknown]
  rw [Analysis.text, hlines, Option.map_some]
  refine ⟨reportHeader date ++ a.records.map Record.line ++ summaryHeader ++
    [low, medium, high, unknown].flatten ++ [summaryRule], ?_⟩
  rw [List.append_assoc _ [summaryRule], List.singleton_append]

/-- Each container of the map has been processed once, in the class of its pod, and the
counters of the classes are made of its counters. -/
structure Agrees (pods : List Pod) (overrunCount : Tally GoString) (a : Analysis) : Prop where
  containers : (a.records.map Record.containerID).Perm overrunCount.keys
  once : (a.records.map Record.containerID).Nodup
  classes : ∀ r ∈ a.records, r.qosClass = classOf (lookup pods r.containerID)
  printed : ∀ r ∈ a.records, r.overrunCount = itoa (overrunCount.get r.containerID).toInt
  count : ∀ q, a.count q =
    Int64.ofNat (overrunCount.keys.countP fun cid => classOf (lookup pods cid) = q)
  overruns : ∀ q, a.overruns q =
    ((overrunCount.keys.filter fun cid => classOf (lookup pods cid) = q).map overrunCount.get).sum
  totalContainers : a.totalContainers = overrunCount.len
  totalOverruns : a.totalOverruns = overrunCount.values.sum

section Agreement

variable {overrunCount : Tally GoString} {stats : List ContainerStat}

theorem mem_of_sortedStats (hstats : SortedStats overrunCount stats) {stat : ContainerStat}
    (hstat : stat ∈ stats) :
    stat.cid ∈ overrunCount.keys ∧ stat.count = overrunCount.get stat.cid := by
  obtain ⟨cid, hcid, rfl⟩ := List.mem_map.mp (hstats.perm.subset hstat)
  exact ⟨hcid, rfl⟩

theorem perm_cids (hstats : SortedStats overrunCount stats) :
    (stats.map ContainerStat.cid).Perm overrunCount.keys := by
  have hperm := hstats.perm.map ContainerStat.cid
  rwa [List.map_map, Function.comp_def, List.map_id'] at hperm

theorem map_count_eq (hstats : SortedStats overrunCount stats) :
    stats.map ContainerStat.count = (stats.map ContainerStat.cid).map overrunCount.get := by
  rw [List.map_map]
  exact List.map_congr_left fun stat hstat => (mem_of_sortedStats hstats hstat).2

theorem Tallied.agrees {a : Analysis} (h : Tallied pods stats a)
    (hstats : SortedStats overrunCount stats) : Agrees pods overrunCount a := by
  have hperm := perm_cids hstats
  have hids : a.records.map Record.containerID = stats.map ContainerStat.cid := by
    rw [h.records, List.map_map]
    exact List.map_congr_left fun stat _ => containerID_recordOf pods stat.cid _
  exact
    { containers := hids ▸ hperm
      once := hids ▸ hperm.nodup_iff.mpr overrunCount.counts.keys_nodup
      classes := by
        intro r hr
        rw [h.records] at hr
        obtain ⟨stat, -, rfl⟩ := List.mem_map.mp hr
        rw [statRecord, qosClass_recordOf, containerID_recordOf]
      printed := by
        intro r hr
        rw [h.records] at hr
        obtain ⟨stat, hstat, rfl⟩ := List.mem_map.mp hr
        rw [statRecord, containerID_recordOf, ← (mem_of_sortedStats hstats hstat).2]
        unfold recordOf
        cases lookup pods stat.cid <;> rfl
      count := by
        intro q
        rw [h.count, ← hperm.countP_eq, List.countP_map]
        rfl
      overruns := by
        intro q
        have hfilter : (stats.filter fun stat => classOf (lookup pods stat.cid) = q).map
            ContainerStat.count =
              ((stats.map ContainerStat.cid).filter fun cid => classOf (lookup pods cid) = q).map
                overrunCount.get := by
          rw [List.filter_map, List.map_map]
          exact List.map_congr_left fun stat hstat =>
            (mem_of_sortedStats hstats (List.mem_of_mem_filter hstat)).2
        rw [h.overruns, hfilter]
        exact sum_eq_of_perm ((hperm.filter _).map _)
      totalContainers := by
        rw [h.totalContainers, Tally.len, ← hperm.length_eq, List.length_map]
      totalOverruns := by
        rw [h.totalOverruns, map_count_eq hstats, Tally.values_eq_map_keys]
        exact sum_eq_of_perm (hperm.map _) }

end Agreement

def otherID : GoString := List.replicate 64 'b'

/-- Two overruns of one container and one of another. -/
def sampleCount : Tally GoString :=
  ((Tally.empty.increment sampleID).increment otherID).increment sampleID

def sampleStats : List ContainerStat := [⟨sampleID, 2⟩, ⟨otherID, 1⟩]

def sampleTime : DateTime := ⟨2025, 11, 11, 12, 4, 58⟩

theorem sortedStats_sample : SortedStats sampleCount sampleStats where
  perm := by decide +kernel
  sorted := by decide +kernel

end McKube.Ebpf.Analyzer
