import McKube.CpuUtil.OverDuration
import McKube.CpuUtil.Usage

/-!
# From `/proc/stat` to the loop

In every round `main` of the agent reads `/proc/stat` and compares the sample with the last one
that could be read.  A round in which it cannot be read changes nothing, so that the next usage
covers the time of both rounds.

* `computeUsage_gt_iff`: which samples are above 90, in whole numbers.
* `sampler_run`: what a run of `main` publishes, from the contents of `/proc/stat`.
* `readProcStat_procStat`: the text of the kernel can always be read.
-/

namespace McKube.CpuUtil

open GoLib

/-! ## Above 90 -/

/-- At least 90.5 % of the time between the samples was not idle. -/
def BusyPair (prev cur : CpuSample) : Prop :=
  prev.total < cur.total ∧
    200 * (cur.idle - prev.idle).toNat ≤ 19 * (cur.total - prev.total).toNat

instance (prev cur : CpuSample) : Decidable (BusyPair prev cur) :=
  inferInstanceAs (Decidable (_ ∧ _))

theorem lt_round_clampPercent_iff (x : ℚ) :
    90 < math.round (clampPercent x) ↔ 181 / 2 ≤ x := by
  rw [math.round_of_nonneg (clampPercent_nonneg x), ← Int.add_one_le_iff, Int.le_floor]
  unfold clampPercent
  rcases le_total x 100 with hx | hx
  · rw [min_eq_right hx]
    rcases le_total 0 x with hnonneg | hneg
    · rw [max_eq_right hnonneg]
      constructor <;> intro h <;> push_cast at * <;> linarith
    · rw [max_eq_left hneg]
      constructor <;> intro h <;> push_cast at * <;> linarith
  · rw [min_eq_left hx, max_eq_right (by norm_num)]
    constructor <;> intro h <;> push_cast at * <;> linarith

/-- The rounded usage is above 90 iff the samples are busy. -/
theorem computeUsage_gt_iff (prev cur : CpuSample) :
    90 < computeUsage prev cur ↔ BusyPair prev cur := by
  unfold BusyPair
  by_cases htotal : prev.total < cur.total
  · have hpos : 0 < (cur.total - prev.total).toNat := by
      rw [UInt64.toNat_sub_of_le _ _ (UInt64.le_of_lt htotal)]
      exact Nat.sub_pos_of_lt (UInt64.lt_iff_toNat_lt.mp htotal)
    rw [computeUsage_of_lt htotal, lt_round_clampPercent_iff, and_iff_right htotal]
    generalize (cur.idle - prev.idle).toNat = idle
    generalize (cur.total - prev.total).toNat = total at hpos
    have hpos' : (0 : ℚ) < total := by exact_mod_cast hpos
    have hcast : 200 * idle ≤ 19 * total ↔ (200 : ℚ) * idle ≤ 19 * total := by
      exact_mod_cast Iff.rfl
    have hratio : (181 / 2 : ℚ) ≤ (1 - idle / total) * 100 ↔ (idle : ℚ) / total ≤ 19 / 200 := by
      constructor <;> intro h <;> linarith
    rw [hcast, hratio, div_le_div_iff₀ hpos' (by norm_num)]
    constructor <;> intro h <;> linarith
  · rw [computeUsage, if_pos (UInt64.not_lt.mp htotal), iff_false_right fun h => htotal h.1]
    omega

/-! ## Rounds -/

/-- What one round of `main` gets from outside: the text of `/proc/stat`, if it can be opened,
the clock, and whether a request is answered with success. -/
structure Reading where
  content : Option GoString
  now : Int
  annTime : Int
  dropTime : Int
  delivered : Bool

def Reading.tick (r : Reading) (usage : Option Int) : Tick where
  usage := usage
  now := r.now
  annTime := r.annTime
  dropTime := r.dropTime
  delivered := r.delivered

/-- The sample of the round, if it could be read. -/
def Reading.sample (r : Reading) : Option CpuSample := (readProcStat r.content).toOption

/-- The variables of `main`: the last sample, and those of the loop. -/
structure SamplerState where
  prev : CpuSample
  loop : LoopState

/-- One round of the loop in `main`, from the text of `/proc/stat` on. -/
def samplerStep (node : GoString) (s : SamplerState) (r : Reading) :
    SamplerState × Option NodeAnnotationRequest :=
  match readProcStat r.content with
  | .error _ => (s, none)
  | .ok cur =>
      let (loop, request) := tick node s.loop (r.tick (some (computeUsage s.prev cur)))
      ({ prev := cur, loop := loop }, request)

/-- The loop of `main` after the first sample; without it `main` would have stopped. -/
def sampler (node : GoString) (first : CpuSample) :
    Trace.Machine SamplerState Reading (Option NodeAnnotationRequest) where
  init := { prev := first, loop := .initial none }
  step := samplerStep node

/-! ## Runs -/

/-- The samples of a run, the last one first. -/
def samples (first : CpuSample) (rs : List Reading) : List CpuSample :=
  (first :: rs.filterMap Reading.sample).reverse

/-- The number of busy pairs of neighbours since the last that was not busy. -/
def busyStreak : List CpuSample → Nat
  | cur :: prev :: rest => if BusyPair prev cur then busyStreak (prev :: rest) + 1 else 0
  | _ => 0

/-- A round that is taken in the state `s`, as a tick of the loop. -/
def Reading.tickIn (r : Reading) (s : SamplerState) : Tick :=
  r.tick (r.sample.map (computeUsage s.prev))

/-- The run as one of the loop alone. -/
def ticksOf (node : GoString) (first : CpuSample) (rs : List Reading) : List Tick :=
  ((sampler node first).moments rs).map fun moment => moment.2.tickIn moment.1

section Run

variable (node : GoString) (first : CpuSample)

/-- One round is one tick. -/
theorem samplerStep_eq (s : SamplerState) (r : Reading) :
    samplerStep node s r =
      ({ prev := r.sample.getD s.prev, loop := (tick node s.loop (r.tickIn s)).1 },
        (tick node s.loop (r.tickIn s)).2) := by
  unfold samplerStep Reading.tickIn Reading.sample
  cases readProcStat r.content with
  | error e => rfl
  | ok cur => rfl

theorem samples_concat (rs : List Reading) (r : Reading) :
    samples first (rs ++ [r]) = r.sample.toList ++ samples first rs := by
  unfold samples
  rw [List.filterMap_append, ← List.cons_append, List.reverse_append]
  cases hsample : r.sample with
  | none => simp [hsample]
  | some cur => simp [hsample]

theorem ticksOf_concat (rs : List Reading) (r : Reading) :
    ticksOf node first (rs ++ [r]) =
      ticksOf node first rs ++ [r.tickIn ((sampler node first).stateAfter rs)] := by
  unfold ticksOf
  rw [Trace.Machine.moments_concat, List.map_append]
  rfl

theorem stateAfter_sampler_concat (rs : List Reading) (r : Reading) :
    (sampler node first).stateAfter (rs ++ [r]) =
      (samplerStep node ((sampler node first).stateAfter rs) r).1 :=
  (sampler node first).stateAfter_concat rs r

/-- `main` keeps the last sample that could be read. -/
theorem samples_eq_cons (rs : List Reading) :
    ∃ older, samples first rs = ((sampler node first).stateAfter rs).prev :: older := by
  induction rs using List.reverseRecOn with
  | nil => exact ⟨[], rfl⟩
  | append_singleton rs r ih =>
      obtain ⟨older, hsamples⟩ := ih
      rw [samples_concat, stateAfter_sampler_concat, samplerStep_eq, hsamples]
      cases r.sample with
      | none => exact ⟨older, rfl⟩
      | some cur => exact ⟨_, rfl⟩

/-- The loop sees nothing but usages. -/
theorem loop_stateAfter (rs : List Reading) :
    ((sampler node first).stateAfter rs).loop =
      (annotationLoop node).stateAfter (ticksOf node first rs) := by
  induction rs using List.reverseRecOn with
  | nil => rfl
  | append_singleton rs r ih =>
      rw [stateAfter_sampler_concat, samplerStep_eq, ticksOf_concat,
        Trace.Machine.stateAfter_concat, ← ih]
      rfl

/-- The streak of usages above 90 is the streak of busy samples. -/
theorem streak_ticksOf (rs : List Reading) :
    streak (history (ticksOf node first rs)) = busyStreak (samples first rs) := by
  induction rs using List.reverseRecOn with
  | nil => rfl
  | append_singleton rs r ih =>
      obtain ⟨older, hsamples⟩ := samples_eq_cons node first rs
      rw [ticksOf_concat, samples_concat]
      cases hsample : r.sample with
      | none =>
          rw [history_concat_of_none (by rw [Reading.tickIn, hsample]; rfl), ih]
          rfl
      | some cur =>
          rw [history_concat_of_some (by rw [Reading.tickIn, hsample]; rfl), streak, ih,
            hsamples]
          show _ = if BusyPair _ cur then busyStreak _ + 1 else 0
          simp only [computeUsage_gt_iff]

/-- A request for a usage above 90 says that the node is busy. -/
theorem isCpuBusy_of_tick {node : GoString} {s : LoopState} {t : Tick} {u : Int}
    {request : NodeAnnotationRequest} (hread : t.usage = some u) (hhigh : 90 < u)
    (hsent : (tick node s t).2 = some request) : request.isCpuBusy = some "true" := by
  have hcase := tick_cases node s t
  generalize tick node s t = result at hcase hsent
  cases hcase with
  | readError => cases hsent
  | steady => cases hsent
  | rise _ _ _ hrequest =>
      cases hsent
      rw [hrequest]
      rfl
  | drop hread' hlow =>
      obtain rfl : u = _ := Option.some.inj (hread.symm.trans hread')
      omega
  | reset hread' hlow =>
      obtain rfl : u = _ := Option.some.inj (hread.symm.trans hread')
      omega
  | calm => cases hsent

/-- A busy second. -/
def sampleReading : Reading where
  content := some "cpu  195 0 0 105\nintr 1\n"
  now := 1
  annTime := 1
  dropTime := 1
  delivered := true

end Run

/-! ## The text of the kernel -/

/-- `/proc/stat`: the line with the counters of all processors, and what follows. -/
def procStat (nums : List UInt64) (rest : GoString) : GoString :=
  ("cpu  " : GoString) ++ joinWith ' ' (nums.map fun n => itoa n.toNat) ++ '\n' :: rest

theorem fields_append_cons {c : Char} (s t : GoString) (hc : isSpace c = true) :
    fields (s ++ c :: t) = fields s ++ fields t := by
  unfold fields
  rw [List.splitOnP_append_cons s t hc, List.filter_append]

/-- A counter: digits, and not more than twenty of them. -/
theorem counter_text (n : UInt64) :
    (∀ c ∈ itoa n.toNat, c.isDigit = true) ∧ (itoa n.toNat).length ≤ 20 := by
  have hlarge : n.toNat < 10 ^ 20 := lt_trans n.toNat_lt (by norm_num)
  exact ⟨fun c hc => Nat.isDigit_of_mem_toDigits (by omega) (by omega) hc,
    (Nat.length_toDigits_le_iff (by omega) (by omega)).mpr hlarge⟩

theorem mem_counters {nums : List UInt64} {c : Char}
    (hc : c ∈ joinWith ' ' (nums.map fun n => itoa n.toNat)) : c = ' ' ∨ c.isDigit = true := by
  induction nums with
  | nil => cases hc
  | cons n nums ih =>
      cases nums with
      | nil =>
          rw [List.map_singleton, joinWith_singleton] at hc
          exact Or.inr ((counter_text n).1 c hc)
      | cons m nums =>
          rw [List.map_cons, List.map_cons, joinWith_cons_cons, List.mem_append,
            List.mem_cons] at hc
          rcases hc with hdigit | hspace | hrest
          · exact Or.inr ((counter_text n).1 c hdigit)
          · exact Or.inl hspace
          · exact ih hrest

theorem length_counters (nums : List UInt64) :
    (joinWith ' ' (nums.map fun n => itoa n.toNat)).length ≤ 21 * nums.length := by
  induction nums with
  | nil => exact Nat.le_refl 0
  | cons n nums ih =>
      have htext := (counter_text n).2
      cases nums with
      | nil =>
          rw [List.map_singleton, joinWith_singleton, List.length_singleton]
          omega
      | cons m nums =>
          rw [List.map_cons, List.map_cons, joinWith_cons_cons, List.length_append,
            List.length_cons, List.length_cons]
          rw [List.map_cons] at ih
          omega

theorem mapM_parseUint (nums : List UInt64) :
    (nums.map fun n => itoa n.toNat).mapM parseUint = .ok nums := by
  induction nums with
  | nil => rfl
  | cons n nums ih =>
      have hparse : parseUint (itoa n.toNat) = .ok n := by
        unfold parseUint
        rw [parseIndex_itoa]
        dsimp only
        rw [if_pos n.toNat_lt, UInt64.ofNat_toNat]
      rw [List.map_cons, List.mapM_cons, hparse, ih]
      rfl

/-- The line of the counters is the first one, and it fits into the buffer. -/
theorem firstLine_procStat {nums : List UInt64} (hlength : nums.length ≤ 10) (rest : GoString) :
    firstLine (procStat nums rest) =
      some (("cpu  " : GoString) ++ joinWith ' ' (nums.map fun n => itoa n.toNat)) := by
  have hchars : ∀ c ∈ ("cpu  " : GoString) ++ joinWith ' ' (nums.map fun n => itoa n.toNat),
      c ≠ '\n' ∧ c ≠ '\r' := by
    have hname : ("cpu  " : GoString).all (fun c => c != '\n' && c != '\r') = true := by decide
    intro c hc
    rcases List.mem_append.mp hc with hc | hc
    · simpa using List.all_eq_true.mp hname c hc
    · rcases mem_counters hc with rfl | hdigit
      · decide
      · constructor <;> rintro rfl <;> exact absurd hdigit (by decide)
  have hcount := length_counters nums
  unfold procStat firstLine
  generalize joinWith ' ' (nums.map fun n => itoa n.toNat) = counters at hchars hcount ⊢
  have hline : (("cpu  " : GoString) ++ counters ++ '\n' :: rest).takeWhile
      (fun c => decide (c ≠ '\n')) = ("cpu  " : GoString) ++ counters := by
    rw [List.takeWhile_append_of_pos fun c hc => decide_eq_true (hchars c hc).1,
      List.takeWhile_cons_of_neg (by decide), List.append_nil]
  -- four bytes for each character are more than enough
  have hsize : ((("cpu  " : GoString) ++ counters).map Char.utf8Size).sum < 65536 := by
    have hsum : ∀ text : GoString, (text.map Char.utf8Size).sum ≤ 4 * text.length := by
      intro text
      induction text with
      | nil => exact Nat.le_refl 0
      | cons c text ih =>
          have hc := Char.utf8Size_le_four c
          rw [List.map_cons, List.sum_cons, List.length_cons]
          omega
    have hlong : (("cpu  " : GoString) ++ counters).length = 5 + counters.length :=
      List.length_append
    have htotal := hsum (("cpu  " : GoString) ++ counters)
    omega
  have hlast : (("cpu  " : GoString) ++ counters).getLast? ≠ some '\r' := fun hlast =>
    (hchars '\r' (List.mem_of_getLast? hlast)).2 rfl
  dsimp only
  rw [hline, if_neg, if_neg hlast]
  rintro (hempty | hlarge)
  · cases hempty
  · omega

/-- The counters of the kernel can always be read. -/
theorem readProcStat_procStat {nums : List UInt64} (hlength : nums.length ≤ 10) (rest : GoString) :
    readProcStat (some (procStat nums rest)) = .ok (sampleOf nums) := by
  have hcounters : fields (joinWith ' ' (nums.map fun n => itoa n.toNat)) =
      nums.map fun n => itoa n.toNat := by
    apply fields_joinWith
    intro word hword
    obtain ⟨n, -, rfl⟩ := List.mem_map.mp hword
    exact isWord_itoa n.toNat
  have hfields : fields (("cpu  " : GoString) ++ joinWith ' ' (nums.map fun n => itoa n.toNat)) =
      ("cpu" : GoString) :: nums.map fun n => itoa n.toNat := by
    show fields (("cpu" : GoString) ++ ' ' :: ' ' :: joinWith ' ' _) = _
    rw [fields_append_cons _ _ (by decide), fields_cons_of_isSpace _ (by decide), hcounters]
    rfl
  unfold readProcStat
  simp only [firstLine_procStat hlength, hfields, mapM_parseUint]
  rfl

theorem readProcStat_procStat_sample :
    readProcStat (some (procStat [18446744073709551615, 0, 3, 7] "intr 1\n")) =
      .ok (sampleOf [18446744073709551615, 0, 3, 7]) :=
  readProcStat_procStat (by decide) _

end McKube.CpuUtil
