import McKube.Bpf.LazyTable
import McKube.Trace.Latch

/-!
# The overrun hook

`onUpdateCurrDlSe` is the `fentry` program on `update_curr_dl_se`.  A `Call` is
what one call of it reads from the kernel.  The hook keeps one bit for each
`sched_dl_entity` in the map `se_state`, and submits an event on the ring buffer
when an armed entity is seen overrun.

* `onUpdateCurrDlSe_of_passes`, `onUpdateCurrDlSe_of_not_passes`: the hook is a
  lazy table driven by the calls that pass its filters.
* `lookup_stateAfter`: the map holds the latches of the entities it tracks.
* `outputAt_eq`, `submittedFor_iff`: which call of a run submits an event.
-/

namespace McKube.Ebpf

/-! ## Data -/

/-- `struct event`. -/
structure Event where
  ts : UInt64
  cpu : UInt32
  nrRunning : UInt32
  runtimeNs : Int64
  pad : UInt32
  tgPtr : UInt64
  cgid : UInt64
  deriving DecidableEq, Repr

/-- `struct last_state`. -/
structure LastState where
  wasPos : UInt8
  deriving DecidableEq, Repr

/-- What a call of the hook reads.  Pointers are numbers, and 0 is `NULL`;
`reserve` is the memory that a `bpf_ringbuf_reserve` at this moment would give. -/
structure Call where
  dlSe : UInt64
  dlServer : Bool
  myQ : UInt64
  rtTg : UInt64
  rtNrRunning : UInt32
  runtime : Int64
  dlThrottled : Bool
  dlRuntime : UInt64
  ktimeNs : UInt64
  cpu : UInt32
  cgroupId : UInt64
  reserve : Option Event
  deriving DecidableEq, Repr

/-- `max_entries` of the map `se_state`. -/
def seStateEntries : Nat := 8192

/-- The map `se_state`. -/
abbrev SeState := Bpf.HashMap UInt64 LastState seStateEntries

/-- `OVERRUN_THRESHOLD_NS`. -/
def overrunThresholdNs : Int64 := -100000

/-! ## The hook -/

/-- `on_update_curr_dl_se`: the map after the call, and the submitted event. -/
def onUpdateCurrDlSe (seState : SeState) (c : Call) : SeState × Option Event :=
  if c.dlSe = 0 then (seState, none)
  else if c.dlServer = false then (seState, none)
  else
    let tg := if c.myQ ≠ 0 then c.rtTg else 0
    if tg = 0 then (seState, none)
    else
      let nrRunning := if c.myQ ≠ 0 then c.rtNrRunning else 0
      if nrRunning = 0 then (seState, none)
      else
        let key := c.dlSe
        let init : LastState := { wasPos := 1 }
        -- the second lookup fails if the first did and the map is full
        let seState := match seState.lookup key with
          | some _ => seState
          | none => seState.update key init
        match seState.lookup key with
        | none => (seState, none)
        | some st =>
            if st.wasPos ≠ 0 ∧ c.runtime ≤ overrunThresholdNs ∧ c.dlThrottled = true ∧
                c.dlRuntime ≠ 50000000 then
              let event := c.reserve.map fun e =>
                { e with
                  ts := c.ktimeNs
                  cpu := c.cpu
                  nrRunning := nrRunning
                  runtimeNs := c.runtime
                  tgPtr := tg
                  cgid := c.cgroupId }
              (seState.update key { st with wasPos := 0 }, event)
            else if st.wasPos = 0 ∧ 0 < c.runtime then
              (seState.update key { st with wasPos := 1 }, none)
            else (seState, none)

/-- The hook as a machine: its inputs are the calls, in the order in which they
run. -/
def detector : Trace.Machine SeState Call (Option Event) where
  init := Bpf.HashMap.empty
  step := onUpdateCurrDlSe

/-! ## Calls by what they show -/

namespace Call

variable (c : Call)

/-- The call gets through the filters: it is about a server with a task group
that has running tasks. -/
def passes : Bool :=
  c.dlSe ≠ 0 && c.dlServer && c.myQ ≠ 0 && c.rtTg ≠ 0 && c.rtNrRunning ≠ 0

/-- The budget is overrun beyond the threshold. -/
def overruns : Bool :=
  c.runtime ≤ overrunThresholdNs && c.dlThrottled && c.dlRuntime ≠ 50000000

/-- The full condition for a report. -/
def reports : Bool := c.passes && c.overruns

/-- The hook sees a budget that is positive. -/
def replenishes : Bool := c.passes && 0 < c.runtime

/-- The call is about the entity `d`. -/
def isOn (d : UInt64) : Bool := c.dlSe = d

/-- The event of the call, in the reserved memory `e`. -/
def fill (e : Event) : Event where
  ts := c.ktimeNs
  cpu := c.cpu
  nrRunning := c.rtNrRunning
  runtimeNs := c.runtime
  pad := e.pad
  tgPtr := c.rtTg
  cgid := c.cgroupId

theorem isOn_iff {d : UInt64} : c.isOn d = true ↔ c.dlSe = d := by
  simp [isOn]

theorem passes_iff :
    c.passes = true ↔
      c.dlSe ≠ 0 ∧ c.dlServer = true ∧ c.myQ ≠ 0 ∧ c.rtTg ≠ 0 ∧ c.rtNrRunning ≠ 0 := by
  simp [passes, and_assoc]

theorem overruns_iff :
    c.overruns = true ↔
      c.runtime ≤ overrunThresholdNs ∧ c.dlThrottled = true ∧ c.dlRuntime ≠ 50000000 := by
  simp [overruns, and_assoc]

theorem reports_iff : c.reports = true ↔ c.passes = true ∧ c.overruns = true := by
  simp [reports]

/-- No call is both an overrun and a replenishment. -/
theorem replenishes_eq_false_of_overruns (hoverruns : c.overruns = true) :
    c.replenishes = false := by
  obtain ⟨hruntime, -, -⟩ := c.overruns_iff.mp hoverruns
  have hthreshold : overrunThresholdNs < 0 := by decide
  have hnegative : ¬ 0 < c.runtime := by
    intro hpositive
    exact Int64.lt_irrefl (Int64.lt_trans (Int64.lt_of_le_of_lt hruntime hthreshold) hpositive)
  simp [replenishes, hnegative]

end Call

/-- A call about a throttled server of 10 ms with one running task. -/
def Call.sample (d : UInt64) (runtime : Int64) : Call where
  dlSe := d
  dlServer := true
  myQ := 0xffff888100a00000
  rtTg := 0xffff888100b00000
  rtNrRunning := 1
  runtime := runtime
  dlThrottled := true
  dlRuntime := 10000000
  ktimeNs := 1000000000
  cpu := 2
  cgroupId := 4242
  reserve := some ⟨0, 0, 0, 0, 0, 0, 0⟩

/-! ## The hook as a table -/

/-- The bit of one entity: what a call that passes stores in it. -/
def table : Bpf.LazyTable UInt64 LastState Call where
  key := Call.dlSe
  init := { wasPos := 1 }
  write := fun st c =>
    if st.wasPos ≠ 0 ∧ c.overruns = true then some { st with wasPos := 0 }
    else if st.wasPos = 0 ∧ 0 < c.runtime then some { st with wasPos := 1 }
    else none

/-- A call that is filtered out does nothing. -/
theorem onUpdateCurrDlSe_of_not_passes {c : Call} (hpasses : c.passes = false)
    (seState : SeState) : onUpdateCurrDlSe seState c = (seState, none) := by
  have hfilter : ¬ (c.dlSe ≠ 0 ∧ c.dlServer = true ∧ c.myQ ≠ 0 ∧ c.rtTg ≠ 0 ∧
      c.rtNrRunning ≠ 0) := by
    rw [← c.passes_iff, hpasses]
    exact Bool.false_ne_true
  by_cases hdlSe : c.dlSe = 0
  · simp [onUpdateCurrDlSe, hdlSe]
  by_cases hserver : c.dlServer = false
  · simp [onUpdateCurrDlSe, hserver]
  by_cases hmyQ : c.myQ = 0
  · simp [onUpdateCurrDlSe, hmyQ]
  by_cases htg : c.rtTg = 0
  · simp [onUpdateCurrDlSe, htg]
  · have hnrRunning : c.rtNrRunning = 0 := by
      by_contra hne
      exact hfilter ⟨hdlSe, by simpa using hserver, hmyQ, htg, hne⟩
    simp [onUpdateCurrDlSe, hnrRunning]

/-- A call that passes drives the bit of its entity, and submits an event iff
it finds the bit set and the budget overrun. -/
theorem onUpdateCurrDlSe_of_passes {c : Call} (hpasses : c.passes = true)
    (seState : SeState) :
    onUpdateCurrDlSe seState c =
      (table.step seState c,
        match (seState.ensure c.dlSe table.init).lookup c.dlSe with
        | some st =>
            if st.wasPos ≠ 0 ∧ c.overruns = true then c.reserve.map c.fill else none
        | none => none) := by
  obtain ⟨hdlSe, hserver, hmyQ, htg, hnrRunning⟩ := c.passes_iff.mp hpasses
  have hensure : (match seState.lookup c.dlSe with
      | some _ => seState
      | none => seState.update c.dlSe { wasPos := 1 }) =
        seState.ensure c.dlSe table.init := by
    cases hlookup : seState.lookup c.dlSe <;> simp [Bpf.HashMap.ensure, hlookup, table]
  have hkey : table.key c = c.dlSe := rfl
  simp only [onUpdateCurrDlSe, Bpf.LazyTable.step, hdlSe, hserver, hmyQ, htg, hnrRunning, hensure,
    hkey, if_false, ne_eq, not_false_eq_true, if_true, Bool.true_eq_false]
  cases (seState.ensure c.dlSe table.init).lookup c.dlSe with
  | none => rfl
  | some st =>
      by_cases hdisarm : ¬ st.wasPos = 0 ∧ c.overruns = true
      · have hcode : ¬ st.wasPos = 0 ∧ c.runtime ≤ overrunThresholdNs ∧ c.dlThrottled = true ∧
            ¬ c.dlRuntime = 50000000 := ⟨hdisarm.1, c.overruns_iff.mp hdisarm.2⟩
        have hwrite : table.write st c = some { wasPos := 0 } := if_pos hdisarm
        simp only [hwrite, if_pos hdisarm, if_pos hcode]
        rfl
      · have hcode : ¬ (¬ st.wasPos = 0 ∧ c.runtime ≤ overrunThresholdNs ∧
            c.dlThrottled = true ∧ ¬ c.dlRuntime = 50000000) := by
          intro hcode
          exact hdisarm ⟨hcode.1, c.overruns_iff.mpr hcode.2⟩
        by_cases hrearm : st.wasPos = 0 ∧ 0 < c.runtime
        · have hwrite : table.write st c = some { wasPos := 1 } :=
            (if_neg hdisarm).trans (if_pos hrearm)
          simp only [hwrite, if_neg hdisarm, if_neg hcode, if_pos hrearm]
        · have hwrite : table.write st c = none := (if_neg hdisarm).trans (if_neg hrearm)
          simp only [hwrite, if_neg hdisarm, if_neg hcode, if_neg hrearm]

/-- The map after a run: only the calls that pass have driven it. -/
theorem stateAfter_eq (calls : List Call) :
    detector.stateAfter calls = table.after seStateEntries (calls.filter Call.passes) := by
  induction calls using List.reverseRecOn with
  | nil => rfl
  | append_singleton calls c ih =>
      rw [Trace.Machine.stateAfter_concat, ih, List.filter_append]
      show (onUpdateCurrDlSe _ c).1 = _
      cases hpasses : c.passes with
      | false => simp [onUpdateCurrDlSe_of_not_passes hpasses, hpasses]
      | true => simp [onUpdateCurrDlSe_of_passes hpasses, hpasses]

/-! ## The latch of an entity -/

/-- The call `c` meets the full condition for a report on the entity `d`. -/
def reportsOn (d : UInt64) (c : Call) : Bool := c.isOn d && c.reports

/-- The hook sees at the call `c` that the budget of `d` is positive. -/
def replenishesOn (d : UInt64) (c : Call) : Bool := c.isOn d && c.replenishes

theorem reportsOn_iff {d : UInt64} {c : Call} :
    reportsOn d c = true ↔ c.dlSe = d ∧ c.reports = true := by
  simp [reportsOn, Call.isOn]

theorem replenishesOn_eq_false_of_reportsOn {d : UInt64} {c : Call}
    (hreports : reportsOn d c = true) : replenishesOn d c = false := by
  have hoverruns := (c.reports_iff.mp (reportsOn_iff.mp hreports).2).2
  simp [replenishesOn, c.replenishes_eq_false_of_overruns hoverruns]

/-- The bit of the entity `d` as a latch. -/
def latch (d : UInt64) : Trace.Latch Call where
  disarms := reportsOn d
  rearms := replenishesOn d
  exclusive := fun _ => replenishesOn_eq_false_of_reportsOn

theorem latch_quiet {d : UInt64} {c : Call} (hquiet : c.isOn d = false ∨ c.passes = false) :
    (latch d).disarms c = false ∧ (latch d).rearms c = false := by
  rcases hquiet with hd | hpasses
  · simp [latch, reportsOn, replenishesOn, hd]
  · simp [latch, reportsOn, replenishesOn, Call.reports, Call.replenishes, hpasses]

/-- A call that passes drives the stored bit as it drives the latch. -/
theorem next_eq {c : Call} (hpasses : c.passes = true) (armed : Bool) :
    table.next { wasPos := if armed then 1 else 0 } c =
      { wasPos := if (latch c.dlSe).step armed c then 1 else 0 } := by
  have hdisarms : (latch c.dlSe).disarms c = c.overruns := by
    simp [latch, reportsOn, Call.isOn, Call.reports, hpasses]
  have hrearms : (latch c.dlSe).rearms c = decide (0 < c.runtime) := by
    simp [latch, replenishesOn, Call.isOn, Call.replenishes, hpasses]
  cases armed with
  | true =>
      cases hoverruns : c.overruns <;>
        simp [Bpf.LazyTable.next, table, Trace.Latch.step, hdisarms, hoverruns]
  | false =>
      by_cases hpositive : 0 < c.runtime <;>
        simp [Bpf.LazyTable.next, table, Trace.Latch.step, hrearms, hpositive]

/-- The stored bit is the state of the latch. -/
theorem valueAfter_eq (d : UInt64) (calls : List Call) :
    table.valueAfter d (calls.filter Call.passes) =
      { wasPos := if (latch d).armedAfter calls then 1 else 0 } := by
  induction calls using List.reverseRecOn with
  | nil => rfl
  | append_singleton calls c ih =>
      rw [List.filter_append, Trace.Latch.armedAfter_concat]
      cases hpasses : c.passes with
      | false =>
          obtain ⟨hdisarms, hrearms⟩ := latch_quiet (d := d) (Or.inr hpasses)
          rw [(latch d).step_other hdisarms hrearms, ← ih]
          simp [hpasses]
      | true =>
          rw [List.filter_cons_of_pos hpasses, List.filter_nil]
          by_cases hd : c.dlSe = d
          · subst hd
            rw [show c.dlSe = table.key c from rfl, table.valueAfter_concat_self]
            show table.next (table.valueAfter c.dlSe _) c = _
            rw [ih]
            exact next_eq hpasses _
          · obtain ⟨hdisarms, hrearms⟩ :=
              latch_quiet (d := d) (c := c) (Or.inl (by simp [Call.isOn, hd]))
            rw [(latch d).step_other hdisarms hrearms, table.valueAfter_concat_of_ne _ hd, ih]

/-! ## Which calls submit an event -/

/-- The entity is one of the first that were seen by calls that pass, and so it
has an entry in the map. -/
def Tracked (calls : List Call) (d : UInt64) : Prop :=
  d ∈ Bpf.firstKeys seStateEntries ((calls.filter Call.passes).map Call.dlSe)

instance (calls : List Call) (d : UInt64) : Decidable (Tracked calls d) :=
  inferInstanceAs (Decidable (d ∈ Bpf.firstKeys seStateEntries _))

/-- The map after a run against the latches. -/
theorem lookup_stateAfter (calls : List Call) (d : UInt64) :
    (detector.stateAfter calls).lookup d =
      if Tracked calls d then
        some { wasPos := if (latch d).armedAfter calls then 1 else 0 }
      else none := by
  rw [stateAfter_eq, table.lookup_after, valueAfter_eq]
  rfl

/-- The event submitted by the call `c` after the calls `pre`. -/
theorem outputAt_eq (pre : List Call) (c : Call) :
    detector.outputAt pre c =
      if c.reports = true ∧ Tracked (pre ++ [c]) c.dlSe ∧ (latch c.dlSe).armedAfter pre = true then
        c.reserve.map c.fill
      else none := by
  show (onUpdateCurrDlSe (detector.stateAfter pre) c).2 = _
  cases hpasses : c.passes with
  | false => simp [onUpdateCurrDlSe_of_not_passes hpasses, Call.reports, hpasses]
  | true =>
      have htracked : Tracked (pre ++ [c]) c.dlSe ↔ c.dlSe ∈ Bpf.firstKeys seStateEntries
          ((pre.filter Call.passes).map table.key ++ [c.dlSe]) := by
        simp [Tracked, table, hpasses]
      rw [onUpdateCurrDlSe_of_passes hpasses, stateAfter_eq, table.lookup_ensure_after,
        valueAfter_eq]
      by_cases hkey : Tracked (pre ++ [c]) c.dlSe
      · rw [if_pos (htracked.mp hkey)]
        cases harmed : (latch c.dlSe).armedAfter pre <;> simp [hkey, Call.reports, hpasses]
      · rw [if_neg (fun h => hkey (htracked.mpr h))]
        simp [hkey]

/-- An entry of the trace that submits an event for `d`. -/
def submittedFor (d : UInt64) (e : Call × Option Event) : Bool := e.1.isOn d && e.2.isSome

theorem submittedFor_iff (d : UInt64) (pre : List Call) (c : Call) :
    submittedFor d (c, detector.outputAt pre c) = true ↔
      reportsOn d c = true ∧ Tracked (pre ++ [c]) d ∧ (latch d).armedAfter pre = true ∧
        c.reserve.isSome = true := by
  rw [submittedFor, Bool.and_eq_true, outputAt_eq, reportsOn_iff, Call.isOn_iff]
  constructor
  · rintro ⟨rfl, hsome⟩
    split at hsome
    · next hfires =>
        rw [Option.isSome_map] at hsome
        exact ⟨⟨rfl, hfires.1⟩, hfires.2.1, hfires.2.2, hsome⟩
    · cases hsome
  · rintro ⟨⟨rfl, hreports⟩, htracked, harmed, hreserve⟩
    rw [if_pos ⟨hreports, htracked, harmed⟩, Option.isSome_map]
    exact ⟨rfl, hreserve⟩

/-- Whether an entity is tracked is settled by its first call that passes. -/
theorem tracked_append_iff {calls : List Call} {c : Call} (hc : c ∈ calls)
    (hpasses : c.passes = true) (more : List Call) :
    Tracked (calls ++ more) c.dlSe ↔ Tracked calls c.dlSe := by
  rw [Tracked, List.filter_append, List.map_append]
  apply Bpf.mem_firstKeys_append_iff
  exact List.mem_map_of_mem (List.mem_filter.mpr ⟨hc, hpasses⟩)

end McKube.Ebpf
