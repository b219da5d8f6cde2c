import McKube.GoLib.Math
import McKube.GoLib.Strconv

/-!
# The CPU usage between two samples

`readProcStat` adds up the counters in the first line of `/proc/stat`, and
`computeUsage` compares two of these samples.  The numbers of type `float64` are
exact here, the counters have 64 bits.

The idle time includes `iowait`, a counter that may go back; its difference is
taken without a sign, so that a small step back becomes a huge step ahead.

* `idle_le_total_of_readProcStat`: what a sample without an overflow looks like.
* `computeUsage_eq_iff`: when the result is the usage that the samples stand for.
-/

namespace McKube.CpuUtil

open GoLib

/-! ## Samples -/

/-- `cpuSample`. -/
structure CpuSample where
  idle : UInt64
  total : UInt64
  deriving DecidableEq, Repr

inductive ProcStatError where
  | openFile
  | text (message : GoString)
  | parseUint (field : GoString)
  deriving DecidableEq, Repr

/-- The first line that a `bufio.Scanner` finds.  Its buffer of 64 KiB has to hold
the line. -/
def firstLine (content : GoString) : Option GoString :=
  let line := content.takeWhile fun c => c ≠ '\n'
  if content = [] ∨ 65536 ≤ (line.map Char.utf8Size).sum then
    none
  else
    some (if line.getLast? = some '\r' then line.dropLast else line)

/-- `strconv.ParseUint(s, 10, 64)`. -/
def parseUint (s : GoString) : Except ProcStatError UInt64 :=
  match parseIndex s with
  | some n => if n < 2 ^ 64 then .ok (UInt64.ofNat n) else .error (.parseUint s)
  | none => .error (.parseUint s)

/-- The sample of the counters in the order of `/proc/stat`; a counter that is
missing counts as zero. -/
def sampleOf (nums : List UInt64) : CpuSample :=
  let user := nums.getD 0 0
  let nice := nums.getD 1 0
  let system := nums.getD 2 0
  let idle := nums.getD 3 0
  let iowait := nums.getD 4 0
  let irq := nums.getD 5 0
  let softirq := nums.getD 6 0
  let steal := nums.getD 7 0
  let idleAll := idle + iowait
  let nonIdle := user + nice + system + irq + softirq + steal
  { idle := idleAll, total := idleAll + nonIdle }

/-- `readProcStat`; `content` is the text of `/proc/stat`, if it can be opened. -/
def readProcStat (content : Option GoString) : Except ProcStatError CpuSample := do
  match content with
  | none => throw .openFile
  | some content =>
      match firstLine content with
      | none => throw (.text "empty /proc/stat")
      | some line =>
          match fields line with
          | [] => throw (.text "unexpected /proc/stat format")
          | name :: words =>
              if name ≠ ("cpu" : GoString) then
                throw (.text "unexpected /proc/stat format")
              else
                let nums ← words.mapM parseUint
                pure (sampleOf nums)

/-- `computeUsage`. -/
def computeUsage (prev cur : CpuSample) : Int :=
  if cur.total ≤ prev.total then
    0
  else
    let idleDelta : ℚ := ((cur.idle - prev.idle).toNat : ℚ)
    let totalDelta : ℚ := ((cur.total - prev.total).toNat : ℚ)
    let usage := (1 - idleDelta / totalDelta) * 100
    let usage := if usage < 0 then 0 else usage
    let usage := if usage > 100 then 100 else usage
    math.round usage

/-! ## The samples that are read -/

/-- The sum of the counters of a sample. -/
def counterSum (nums : List UInt64) : ℕ :=
  (nums.getD 0 0).toNat + (nums.getD 1 0).toNat + (nums.getD 2 0).toNat + (nums.getD 3 0).toNat +
    (nums.getD 4 0).toNat + (nums.getD 5 0).toNat + (nums.getD 6 0).toNat + (nums.getD 7 0).toNat

/-- As long as the counters do not overflow, the idle time is a part of the total
time. -/
theorem idle_le_total {nums : List UInt64} (hsum : counterSum nums < 2 ^ 64) :
    (sampleOf nums).idle ≤ (sampleOf nums).total := by
  unfold counterSum at hsum
  simp only [sampleOf, UInt64.le_iff_toNat_le, UInt64.toNat_add]
  omega

theorem exists_nums_of_readProcStat {content : GoString} {sample : CpuSample}
    (h : readProcStat (some content) = .ok sample) : ∃ nums, sample = sampleOf nums := by
  unfold readProcStat at h
  dsimp only at h
  split at h
  · cases h
  · split at h
    · cases h
    · split at h
      · cases h
      · rename_i words _ _
        cases hnums : words.mapM parseUint with
        | error e =>
            rw [hnums] at h
            cases h
        | ok nums =>
            rw [hnums] at h
            cases h
            exact ⟨nums, rfl⟩

/-- A sample that is read is one of counters, and without an overflow its idle time is
a part of its total time. -/
theorem idle_le_total_of_readProcStat {content : GoString} {sample : CpuSample}
    (h : readProcStat (some content) = .ok sample) :
    ∃ nums, sample = sampleOf nums ∧ (counterSum nums < 2 ^ 64 → sample.idle ≤ sample.total) := by
  obtain ⟨nums, rfl⟩ := exists_nums_of_readProcStat h
  exact ⟨nums, rfl, idle_le_total⟩

/-! ## The usage -/

/-- A number in the range of a percentage. -/
def clampPercent (x : ℚ) : ℚ := max 0 (min 100 x)

theorem clampPercent_nonneg (x : ℚ) : 0 ≤ clampPercent x := le_max_left _ _

theorem clampPercent_le (x : ℚ) : clampPercent x ≤ 100 := by
  unfold clampPercent
  exact max_le (by norm_num) (min_le_left _ _)

/-- The two comparisons of the source. -/
theorem clamp_eq_clampPercent (x : ℚ) :
    (let usage := if x < 0 then 0 else x
     if usage > 100 then 100 else usage) = clampPercent x := by
  unfold clampPercent
  dsimp only
  rcases lt_or_ge x 0 with hneg | hnonneg
  · rw [if_pos hneg, if_neg (by norm_num), min_eq_right (by linarith), max_eq_left hneg.le]
  · rw [if_neg (not_lt.mpr hnonneg)]
    rcases lt_or_ge 100 x with hlarge | hsmall
    · rw [if_pos hlarge, min_eq_left hlarge.le, max_eq_right (by norm_num)]
    · rw [if_neg (not_lt.mpr hsmall), min_eq_right hsmall, max_eq_right hnonneg]

/-- The usage that two samples stand for: differences with a sign. -/
def exactUsage (prev cur : CpuSample) : Int :=
  let idleDelta : ℚ := (cur.idle.toNat : ℚ) - prev.idle.toNat
  let totalDelta : ℚ := (cur.total.toNat : ℚ) - prev.total.toNat
  math.round (clampPercent (100 * (1 - idleDelta / totalDelta)))

theorem computeUsage_of_lt {prev cur : CpuSample} (htotal : prev.total < cur.total) :
    computeUsage prev cur = math.round (clampPercent
      ((1 - ((cur.idle - prev.idle).toNat : ℚ) / ((cur.total - prev.total).toNat : ℚ)) * 100)) := by
  unfold computeUsage
  rw [if_neg (UInt64.not_le.mpr htotal), ← clamp_eq_clampPercent]

/-- The result is always a percentage. -/
theorem computeUsage_mem (prev cur : CpuSample) :
    0 ≤ computeUsage prev cur ∧ computeUsage prev cur ≤ 100 := by
  by_cases htotal : cur.total ≤ prev.total
  · rw [computeUsage, if_pos htotal]
    exact ⟨le_refl 0, by norm_num⟩
  · rw [computeUsage_of_lt (UInt64.not_le.mp htotal)]
    exact math.round_mem (clampPercent_nonneg _) (clampPercent_le _)

theorem toNat_sub_cast {a b : UInt64} (h : b ≤ a) :
    ((a - b).toNat : ℚ) = (a.toNat : ℚ) - b.toNat := by
  rw [UInt64.toNat_sub_of_le _ _ h, Nat.cast_sub (UInt64.le_iff_toNat_le.mp h)]

section Back

variable {prev cur : CpuSample}

/-- A step back of the idle time wraps around, to more than the total time can be. -/
theorem total_lt_idle_of_back (hprev : prev.idle ≤ prev.total) (htotal : prev.total < cur.total)
    (hback : cur.idle < prev.idle) :
    (cur.total - prev.total).toNat < (cur.idle - prev.idle).toNat := by
  rw [UInt64.le_iff_toNat_le] at hprev
  rw [UInt64.lt_iff_toNat_lt] at htotal hback
  rw [UInt64.toNat_sub, UInt64.toNat_sub]
  have hbound := cur.total.toNat_lt
  omega

theorem computeUsage_of_back (hprev : prev.idle ≤ prev.total) (htotal : prev.total < cur.total)
    (hback : cur.idle < prev.idle) : computeUsage prev cur = 0 := by
  have hpos : 0 < (cur.total - prev.total).toNat := by
    rw [UInt64.toNat_sub_of_le _ _ (UInt64.le_of_lt htotal)]
    exact Nat.sub_pos_of_lt (UInt64.lt_iff_toNat_lt.mp htotal)
  have hratio : (1 : ℚ) < ((cur.idle - prev.idle).toNat : ℚ) / ((cur.total - prev.total).toNat : ℚ) := by
    rw [one_lt_div (by exact_mod_cast hpos)]
    exact_mod_cast total_lt_idle_of_back hprev htotal hback
  have hzero : clampPercent ((1 - ((cur.idle - prev.idle).toNat : ℚ) /
      ((cur.total - prev.total).toNat : ℚ)) * 100) = (0 : ℕ) := by
    unfold clampPercent
    rw [Nat.cast_zero]
    exact max_eq_left (le_trans (min_le_right _ _) (by linarith))
  rw [computeUsage_of_lt htotal, hzero, math.round_natCast]
  rfl

theorem exactUsage_of_back (htotal : prev.total < cur.total) (hback : cur.idle < prev.idle) :
    exactUsage prev cur = 100 := by
  rw [UInt64.lt_iff_toNat_lt] at htotal hback
  have htotal' : (0 : ℚ) < (cur.total.toNat : ℚ) - prev.total.toNat :=
    sub_pos.mpr (by exact_mod_cast htotal)
  have hback' : (cur.idle.toNat : ℚ) - prev.idle.toNat < 0 :=
    sub_neg.mpr (by exact_mod_cast hback)
  have hratio := div_neg_of_neg_of_pos hback' htotal'
  have hfull : clampPercent (100 * (1 - ((cur.idle.toNat : ℚ) - prev.idle.toNat) /
      ((cur.total.toNat : ℚ) - prev.total.toNat))) = (100 : ℕ) := by
    unfold clampPercent
    rw [min_eq_left (by linarith), max_eq_right (by norm_num)]
    rfl
  unfold exactUsage
  dsimp only
  rw [hfull, math.round_natCast]
  rfl

/-- The result is the usage of the samples iff the idle time has not gone back. -/
theorem computeUsage_eq_iff (hprev : prev.idle ≤ prev.total) (htotal : prev.total < cur.total) :
    computeUsage prev cur = exactUsage prev cur ↔ prev.idle ≤ cur.idle := by
  constructor
  · intro heq
    by_contra hnot
    have hback : cur.idle < prev.idle := UInt64.not_le.mp hnot
    rw [computeUsage_of_back hprev htotal hback, exactUsage_of_back htotal hback] at heq
    norm_num at heq
  · intro hidle
    rw [computeUsage_of_lt htotal, exactUsage, toNat_sub_cast hidle,
      toNat_sub_cast (UInt64.le_of_lt htotal), mul_comm]

end Back

/-! ## A step back -/

/-- Two samples one second apart: 200 more jiffies of user time, 100 less of
`iowait`. -/
def sampleBefore : CpuSample := sampleOf [100, 0, 0, 1000, 500]
def sampleAfter : CpuSample := sampleOf [300, 0, 0, 1000, 400]

theorem computeUsage_eq_iff_sample :
    computeUsage sampleBefore sampleAfter = exactUsage sampleBefore sampleAfter ↔
      sampleBefore.idle ≤ sampleAfter.idle :=
  computeUsage_eq_iff (by decide) (by decide)

/-- A busy CPU whose `iowait` has gone back is reported as idle. -/
theorem computeUsage_fails :
    readProcStat (some "cpu  100 0 0 1000 500 0 0 0 0 0\nintr 1\n") = .ok sampleBefore ∧
    readProcStat (some "cpu  300 0 0 1000 400 0 0 0 0 0\nintr 2\n") = .ok sampleAfter ∧
    sampleBefore.idle ≤ sampleBefore.total ∧ sampleAfter.idle ≤ sampleAfter.total ∧
    sampleBefore.total < sampleAfter.total ∧
    computeUsage sampleBefore sampleAfter = 0 ∧ exactUsage sampleBefore sampleAfter = 100 := by
  have hback : sampleAfter.idle < sampleBefore.idle := by decide
  have htotal : sampleBefore.total < sampleAfter.total := by decide
  refine ⟨by decide +kernel, by decide +kernel, by decide, by decide, htotal, ?_, ?_⟩
  · exact computeUsage_of_back (by decide) htotal hback
  · exact exactUsage_of_back htotal hback

end McKube.CpuUtil
