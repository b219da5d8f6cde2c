import McKube.Ebpf.LoopStatements
import McKube.Ebpf.Statistics
import McKube.GoLib.Scan

/-!
# The report on a signal

A signal makes a second goroutine call `saveStats`, which copies the total and ranges over
the map, while the loop goes on.  There is no lock.

* `Saver.Follows`: what the report has taken from the counters so far.
* `follows_stateAfter`: this holds at every moment after the call, for every schedule.
* `saved_total_iff`: when the total of the report is the sum of its list.
-/

namespace McKube.Ebpf.Monitor

open GoLib

/-! ## Two goroutines -/

/-- How far the goroutine of the signal has come in `saveStats`, and what it has read.  A
range loop has to list the keys `due`, which the map had when it was started; `saved` has what
stands in the file. -/
inductive Saver
  | waiting
  | called (totalCnt : Int64)
  | headed (totalCnt size : Int64)
  | ranging (totalCnt size : Int64) (due : List GoString) (stats : List ContainerStat)
  | saved (totalCnt size : Int64) (stats : List ContainerStat)
  deriving DecidableEq

structure Process where
  loop : Loop
  saver : Saver

/-- The scheduler lets the loop execute a statement, or the goroutine of the signal: it
calls `saveStats`, writes `len(overrunCount)`, starts the range loop, comes to a key, or
leaves the loop and writes the sorted list. -/
inductive Choice
  | loop (t : Turn)
  | call
  | head
  | range
  | visit (cid : GoString)
  | finish (sorted : List ContainerStat)

namespace Process

/-- `main` has returned or panicked, or `os.Exit` has been called after the report. -/
def ended (s : Process) : Bool :=
  s.loop.ended ||
    match s.saver with
    | .saved _ _ _ => true
    | _ => false

/-- The goroutine of the signal after a choice; one that is not its next has no effect. -/
def save (s : Process) : Choice → Saver
  | .loop _ => s.saver
  | .call =>
      match s.saver with
      | .waiting => .called s.loop.totalCnt
      | other => other
  | .head =>
      match s.saver with
      | .called totalCnt => .headed totalCnt s.loop.overrunCount.len
      | other => other
  | .range =>
      match s.saver with
      -- a key that is added from now on may be listed, but need not be
      | .headed totalCnt size => .ranging totalCnt size s.loop.overrunCount.keys []
      | other => other
  | .visit cid =>
      match s.saver with
      | .ranging totalCnt size due stats =>
          if cid ∈ s.loop.overrunCount.keys ∧ cid ∉ stats.map ContainerStat.cid then
            .ranging totalCnt size due (stats ++ [⟨cid, s.loop.overrunCount.get cid⟩])
          else .ranging totalCnt size due stats
      | other => other
  | .finish sorted =>
      match s.saver with
      | .ranging totalCnt size due stats =>
          if (∀ cid ∈ due, cid ∈ stats.map ContainerStat.cid) ∧ sorted.Perm stats ∧
              sorted.Pairwise fun stat next => next.count ≤ stat.count then
            .saved totalCnt size sorted
          else .ranging totalCnt size due stats
      | other => other

def step (s : Process) (a : Choice) : Process × Option Post :=
  if s.ended then (s, none)
  else
    match a with
    | .loop t => ({ s with loop := (s.loop.exec t).1 }, (s.loop.exec t).2)
    | a => ({ s with saver := s.save a }, none)

end Process

def process (pc : PathCache) : Trace.Machine Process Choice (Option Post) where
  init :=
    { loop := { pc := pc, overrunCount := Tally.empty, totalCnt := 0, point := .reading }
      saver := .waiting }
  step := Process.step

/-! ## What the loop counts -/

/-- The container that the choice counts. -/
def Process.counts (s : Process) : Choice → Option GoString
  | .loop _ => if s.ended then none else s.loop.counts
  | _ => none

/-- What the loop counts in the choices `q`, after the choices `p`. -/
def countedSince (pc : PathCache) (p q : List Choice) : List GoString :=
  ((process pc).momentsFrom ((process pc).stateAfter p) q).filterMap fun moment =>
    moment.1.counts moment.2

/-- What the loop has counted. -/
def counted (pc : PathCache) (choices : List Choice) : List GoString := countedSince pc [] choices

section Counted

variable (pc : PathCache)

theorem countedSince_append (p q r : List Choice) :
    countedSince pc p (q ++ r) = countedSince pc p q ++ countedSince pc (p ++ q) r := by
  rw [countedSince, Trace.Machine.momentsFrom_append, List.filterMap_append]
  show _ ++ _ = _ ++ (((process pc).momentsFrom ((process pc).stateAfter (p ++ q)) r).filterMap _)
  rw [Trace.Machine.stateAfter, Trace.Machine.stateAfter, List.foldl_append]
  rfl

theorem countedSince_singleton (p : List Choice) (a : Choice) :
    countedSince pc p [a] = (((process pc).stateAfter p).counts a).toList := by
  show List.filterMap _ [(((process pc).stateAfter p), a)] = _
  rw [List.filterMap_cons, List.filterMap_nil]
  cases ((process pc).stateAfter p).counts a <;> rfl

theorem length_countedSince_le (p q : List Choice) : (countedSince pc p q).length ≤ q.length := by
  unfold countedSince
  refine (List.length_filterMap_le _ _).trans ?_
  rw [Trace.Machine.length_momentsFrom]

/-- The loop is balanced at every moment. -/
theorem balanced_stateAfter (choices : List Choice) :
    ((process pc).stateAfter choices).loop.Balanced (counted pc choices) := by
  induction choices using List.reverseRecOn with
  | nil => exact ⟨Tally.counts_empty, rfl⟩
  | append_singleton choices a ih =>
      rw [counted, countedSince_append, List.nil_append, countedSince_singleton,
        Trace.Machine.stateAfter_concat]
      show (Process.step _ a).1.loop.Balanced (counted pc choices ++ _)
      unfold Process.step Process.counts
      cases hended : ((process pc).stateAfter choices).ended with
      | true =>
          cases a <;> simpa using ih
      | false =>
          cases a with
          | loop t => exact ih.exec t
          | _ => simpa using ih

end Counted

/-! ## What the report takes -/

/-- The range loop may come to the key next. -/
def Process.Visits (s : Process) (cid : GoString) : Prop :=
  s.ended = false ∧
    match s.saver with
    | .ranging _ _ _ stats =>
        cid ∈ s.loop.overrunCount.keys ∧ cid ∉ stats.map ContainerStat.cid
    | _ => False

/-- What the report has taken, if `saveStats` was called with `totalCnt` after the loop had
counted `before`, and `since` has been counted since; `late` of the overruns in the list are
of these. -/
def Saver.Follows (totalCnt : Int64) (before since : List GoString) (late : Nat) : Saver → Prop
  | .waiting => False
  | .called total => total = totalCnt ∧ late = 0
  | .headed total _ => total = totalCnt ∧ late = 0
  | .ranging total _ due stats => total = totalCnt ∧ (∀ cid ∈ before, cid ∈ due) ∧
      Tally.Scan ContainerStat.cid ContainerStat.count before since stats late
  | .saved total _ stats => total = totalCnt ∧
      (∀ cid ∈ before, cid ∈ stats.map ContainerStat.cid) ∧
      Tally.Scan ContainerStat.cid ContainerStat.count before since stats late

section Follows

variable {s : Process} {totalCnt : Int64} {before since : List GoString} {late : Nat}

/-- The counters grow behind the report. -/
theorem Saver.Follows.occur {saver : Saver} (h : saver.Follows totalCnt before since late)
    (more : List GoString) : saver.Follows totalCnt before (since ++ more) late := by
  cases saver with
  | waiting => exact h
  | called total => exact h
  | headed total size => exact h
  | ranging total size due stats => exact ⟨h.1, h.2.1, h.2.2.occur more⟩
  | saved total size stats => exact ⟨h.1, h.2.1, h.2.2.occur more⟩

/-- The range loop comes to a key. -/
theorem follows_visit (hbalanced : s.loop.Balanced (before ++ since))
    (h : s.saver.Follows totalCnt before since late) {cid : GoString} (hvisits : s.Visits cid) :
    (s.save (.visit cid)).Follows totalCnt before since (late + Tally.occurs since cid) := by
  obtain ⟨loop, saver⟩ := s
  obtain ⟨-, hnext⟩ := hvisits
  cases saver with
  | ranging total size due stats =>
      have hsave : Process.save ⟨loop, .ranging total size due stats⟩ (.visit cid) =
          .ranging total size due (stats ++ [⟨cid, loop.overrunCount.get cid⟩]) := if_pos hnext
      rw [hsave]
      exact ⟨h.1, h.2.1, h.2.2.visit hbalanced.counts hnext.2 rfl⟩
  | _ => exact hnext.elim

/-- Everything else that the goroutine does leaves the list alone. -/
theorem follows_save (hbalanced : s.loop.Balanced (before ++ since))
    (h : s.saver.Follows totalCnt before since late) (hrunning : s.ended = false) {a : Choice}
    (ha : ∀ cid, a = .visit cid → ¬ s.Visits cid) :
    (s.save a).Follows totalCnt before since late := by
  obtain ⟨loop, saver⟩ := s
  cases a with
  | loop t => exact h
  | call =>
      cases saver with
      | waiting => exact h.elim
      | _ => exact h
  | head =>
      cases saver with
      | called total => exact h
      | _ => exact h
  | range =>
      cases saver with
      | headed total size =>
          obtain ⟨htotal, rfl⟩ := h
          refine ⟨htotal, fun cid hcid => ?_, Tally.scan_nil⟩
          exact (hbalanced.counts.mem_keys cid).mpr (List.mem_append_left since hcid)
      | _ => exact h
  | visit cid =>
      cases saver with
      | ranging total size due stats =>
          have hsave : Process.save ⟨loop, .ranging total size due stats⟩ (.visit cid) =
              .ranging total size due stats :=
            if_neg fun hnext => ha cid rfl ⟨hrunning, hnext⟩
          rw [hsave]
          exact h
      | _ => exact h
  | finish sorted =>
      cases saver with
      | ranging total size due stats =>
          unfold Process.save
          dsimp only
          split
          · next hfinish =>
              obtain ⟨hdue, hperm, -⟩ := hfinish
              refine ⟨h.1, fun cid hcid => ?_, h.2.2.perm hperm⟩
              exact (hperm.map ContainerStat.cid).mem_iff.mpr (hdue cid (h.2.1 cid hcid))
          · exact h
      | _ => exact h

end Follows

/-! ## Runs with a report -/

/-- The choice after `p` makes the goroutine call `saveStats`; the choices `q` follow. -/
structure CalledAt (pc : PathCache) (choices p q : List Choice) : Prop where
  split : choices = p ++ .call :: q
  waiting : ((process pc).stateAfter p).saver = .waiting
  running : ((process pc).stateAfter p).ended = false

/-- When the range loop comes to a container, the loop has not counted it since the call. -/
def ListedInTime (pc : PathCache) (p q : List Choice) : Prop :=
  ∀ q' cid r, q = q' ++ .visit cid :: r →
    ((process pc).stateAfter (p ++ .call :: q')).Visits cid →
    cid ∉ countedSince pc (p ++ [.call]) q'

theorem listedInTime_concat_iff {pc : PathCache} {p q : List Choice} {a : Choice} :
    ListedInTime pc p (q ++ [a]) ↔ ListedInTime pc p q ∧
      ∀ cid, a = .visit cid → ((process pc).stateAfter (p ++ .call :: q)).Visits cid →
        cid ∉ countedSince pc (p ++ [.call]) q := by
  constructor
  · intro h
    refine ⟨fun q' cid r hsplit => h q' cid (r ++ [a]) ?_, fun cid ha => h q cid [] ?_⟩
    · rw [hsplit, List.append_assoc, List.cons_append]
    · rw [ha]
  · rintro ⟨hinit, hlast⟩ q' cid r hsplit
    rcases Trace.concat_eq_append_cons_iff.mp hsplit with ⟨r', -, hq⟩ | ⟨-, rfl, rfl⟩
    · exact hinit q' cid r' hq
    · exact hlast cid rfl

section Runs

variable {pc : PathCache} {choices p q : List Choice}

theorem counted_call (p q : List Choice) :
    counted pc (p ++ .call :: q) = counted pc p ++ countedSince pc (p ++ [.call]) q := by
  have hcall : countedSince pc p [.call] = [] := countedSince_singleton pc p .call
  rw [counted, countedSince_append, ← List.singleton_append, countedSince_append, List.nil_append,
    hcall, List.nil_append]
  rfl

/-- At every moment after the call the report follows the counters, and nothing in it is late
as long as the containers are listed in time. -/
theorem follows_stateAfter (h : CalledAt pc choices p q) (q : List Choice) :
    ∃ late, ((process pc).stateAfter (p ++ .call :: q)).saver.Follows
        ((process pc).stateAfter p).loop.totalCnt (counted pc p)
        (countedSince pc (p ++ [.call]) q) late ∧
      (late = 0 ↔ ListedInTime pc p q) := by
  induction q using List.reverseRecOn with
  | nil =>
      have hcall : ((process pc).stateAfter (p ++ [.call])).saver =
          .called ((process pc).stateAfter p).loop.totalCnt := by
        rw [Trace.Machine.stateAfter_concat]
        show (Process.step _ .call).1.saver = _
        simp [Process.step, Process.save, h.running, h.waiting]
      refine ⟨0, ?_, ?_⟩
      · rw [hcall]
        exact ⟨rfl, rfl⟩
      · simp [ListedInTime]
  | append_singleton q a ih =>
      obtain ⟨late, hfollows, hlate⟩ := ih
      have hbalanced := balanced_stateAfter pc (p ++ .call :: q)
      rw [counted_call] at hbalanced
      rw [listedInTime_concat_iff, countedSince_append, countedSince_singleton,
        ← List.cons_append, ← List.append_assoc, Trace.Machine.stateAfter_concat,
        List.append_assoc p, List.singleton_append]
      show ∃ late, (Process.step _ a).1.saver.Follows _ _ _ _ ∧ _
      generalize (process pc).stateAfter (p ++ .call :: q) = s at *
      cases hended : s.ended with
      | true =>
          -- a process that has ended neither counts nor lists
          have hstep : (s.step a).1 = s := by simp [Process.step, hended]
          have hcounts : s.counts a = none := by cases a <;> simp [Process.counts, hended]
          have hvisits : ∀ cid, ¬ s.Visits cid := by
            rintro cid ⟨hrunning, -⟩
            rw [hended] at hrunning
            cases hrunning
          refine ⟨late, ?_, ?_⟩
          · rw [hstep, hcounts, Option.toList_none, List.append_nil]
            exact hfollows
          · simp [hlate, hvisits]
      | false =>
          by_cases hvisit : ∃ cid, a = .visit cid ∧ s.Visits cid
          · obtain ⟨cid, rfl, hvisits⟩ := hvisit
            -- late is what has been counted for this container since the call
            refine ⟨late + Tally.occurs (countedSince pc (p ++ [.call]) q) cid, ?_, ?_⟩
            · have hsaver : (s.step (.visit cid)).1.saver = s.save (.visit cid) := by
                simp [Process.step, hended]
              rw [hsaver]
              show Saver.Follows _ _ (_ ++ []) _ _
              rw [List.append_nil]
              exact follows_visit hbalanced hfollows hvisits
            · rw [Nat.add_eq_zero_iff, hlate, Tally.occurs_eq_zero_iff]
              simp [hvisits]
          · have hother : ∀ cid, a = .visit cid → ¬ s.Visits cid :=
              fun cid ha hvisits => hvisit ⟨cid, ha, hvisits⟩
            have hsaver : (s.step a).1.saver = s.save a := by
              unfold Process.step
              cases a <;> simp [hended, Process.save]
            refine ⟨late, ?_, ?_⟩
            · rw [hsaver]
              exact (follows_save hbalanced hfollows hended hother).occur _
            · rw [hlate]
              constructor
              · exact fun hinit => ⟨hinit, fun cid ha hvisits => absurd hvisits (hother cid ha)⟩
              · exact fun hall => hall.1

theorem exists_calledAt (choices : List Choice)
    (h : ((process pc).stateAfter choices).saver ≠ .waiting) : ∃ p q, CalledAt pc choices p q := by
  induction choices using List.reverseRecOn with
  | nil => exact absurd rfl h
  | append_singleton choices a ih =>
      by_cases hwaiting : ((process pc).stateAfter choices).saver = .waiting
      · rw [Trace.Machine.stateAfter_concat] at h
        change (Process.step _ a).1.saver ≠ _ at h
        have hrunning : ((process pc).stateAfter choices).ended = false := by
          rw [← Bool.not_eq_true]
          intro hended
          exact h (by simp [Process.step, hended, hwaiting])
        -- no other choice moves a goroutine that waits
        have hcall : a = .call := by
          by_contra hne
          apply h
          cases a <;> simp_all [Process.step, Process.save]
        exact ⟨choices, [], by rw [hcall], hwaiting, hrunning⟩
      · obtain ⟨p, q, hcalled⟩ := ih hwaiting
        refine ⟨p, q ++ [a], ?_, hcalled.waiting, hcalled.running⟩
        rw [hcalled.split, List.append_assoc, List.cons_append]

/-- `saveStats` is called while the loop is not between its two statements, and comes to every
container before the loop counts it again. -/
def Undisturbed (pc : PathCache) (choices : List Choice) : Prop :=
  ∃ p q, CalledAt pc choices p q ∧ ((process pc).stateAfter p).loop.isTotalling = false ∧
    ListedInTime pc p q

/-- The numbers of a report, by what the loop has counted before the call of `saveStats`. -/
theorem CalledAt.saved_sum (h : CalledAt pc choices p q) {total size : Int64}
    {stats : List ContainerStat}
    (hsaved : ((process pc).stateAfter choices).saver = .saved total size stats) :
    ∃ late, (late = 0 ↔ ListedInTime pc p q) ∧
      (counted pc p).length + late + 1 ≤ choices.length ∧
      total + (if ((process pc).stateAfter p).loop.isTotalling then 1 else 0) =
        Int64.ofNat (counted pc p).length ∧
      (stats.map ContainerStat.count).sum = Int64.ofNat ((counted pc p).length + late) ∧
      ((counted pc p).length + late < 2 ^ 63 →
        (stats.map fun stat => stat.count.toInt).sum = ((counted pc p).length + late : Nat)) := by
  obtain ⟨late, hfollows, hlate⟩ := follows_stateAfter h q
  rw [← h.split, hsaved] at hfollows
  obtain ⟨htotal, hall, hscan⟩ := hfollows
  have hbalanced := balanced_stateAfter pc p
  have hbefore : (counted pc p).length ≤ p.length := length_countedSince_le pc [] p
  have hsince : (countedSince pc (p ++ [.call]) q).length ≤ q.length :=
    length_countedSince_le pc _ q
  have hlength : choices.length = p.length + (q.length + 1) := by
    rw [h.split, List.length_append, List.length_cons]
  have hle := hscan.late_le_length
  refine ⟨late, hlate, by omega, ?_, hscan.complete hall⟩
  rw [htotal]
  exact hbalanced.total

/-- The total of a saved report is the sum of its list if the report was undisturbed.  With
fewer than 2^63 choices, as numbers without overflow, this is the only case. -/
theorem saved_total_iff {total size : Int64} {stats : List ContainerStat}
    (hsaved : ((process pc).stateAfter choices).saver = .saved total size stats) :
    (Undisturbed pc choices → total = (stats.map ContainerStat.count).sum) ∧
      (choices.length < 2 ^ 63 →
        (total.toInt = (stats.map fun stat => stat.count.toInt).sum ↔ Undisturbed pc choices)) := by
  constructor
  · rintro ⟨p, q, hcalled, hpoint, hintime⟩
    obtain ⟨late, hlate, -, htotal, hsum, -⟩ := hcalled.saved_sum hsaved
    rw [hpoint, if_neg Bool.false_ne_true, Int64.add_zero] at htotal
    rw [hsum, hlate.mpr hintime, htotal, Nat.add_zero]
  · intro hfew
    constructor
    · intro hsame
      have hstarted : ((process pc).stateAfter choices).saver ≠ .waiting := by
        rw [hsaved]
        exact Saver.noConfusion
      obtain ⟨p, q, hcalled⟩ := exists_calledAt choices hstarted
      obtain ⟨late, hlate, hlength, htotal, -, hexact⟩ := hcalled.saved_sum hsaved
      rw [hexact (by omega)] at hsame
      have htotal' : total = Int64.ofNat ((counted pc p).length + late) := by
        rw [← Int64.ofInt_toInt total, hsame, Int64.ofInt_eq_ofNat]
      cases hpoint : ((process pc).stateAfter p).loop.isTotalling with
      | false =>
          -- both numbers are exact, so nothing in the list is late
          rw [hpoint, if_neg Bool.false_ne_true, Int64.add_zero, htotal'] at htotal
          have hints := congrArg Int64.toInt htotal
          rw [Int64.toInt_ofNat_of_lt (by omega), Int64.toInt_ofNat_of_lt (by omega)] at hints
          exact ⟨p, q, hcalled, hpoint, hlate.mp (by omega)⟩
      | true =>
          -- the list is at least one ahead of the total
          have hnext : Int64.ofNat ((counted pc p).length + late + 1) =
              Int64.ofNat (counted pc p).length := by
            rw [hpoint, if_pos rfl, htotal'] at htotal
            rw [Int64.ofNat_add]
            exact htotal
          have hints := congrArg Int64.toInt hnext
          rw [Int64.toInt_ofNat_of_lt (by omega), Int64.toInt_ofNat_of_lt (by omega)] at hints
          omega
    · rintro ⟨p, q, hcalled, hpoint, hintime⟩
      obtain ⟨late, hlate, hlength, htotal, -, hexact⟩ := hcalled.saved_sum hsaved
      rw [hpoint, if_neg Bool.false_ne_true, Int64.add_zero] at htotal
      rw [hexact (by omega), hlate.mpr hintime, htotal, Int64.toInt_ofNat_of_lt (by omega),
        Nat.add_zero]

end Runs

/-- The path of a container is in the cache under the id 0. -/
def sampleCache : PathCache where
  root := []
  byIno := AList.singleton 0 (("cri-containerd-" : GoString) ++ List.replicate 64 'a')

/-- A record of this container. -/
def sampleTurn : Turn where
  read := .record (List.replicate 48 0)
  walk := []

def sampleStat : ContainerStat := ⟨List.replicate 64 'a', 1⟩

/-- The goroutine of the signal saves its report without a pause. -/
def sampleSave : List Choice := [.call, .head, .range, .visit sampleStat.cid, .finish [sampleStat]]

theorem saved_total_iff_sample :
    (Undisturbed sampleCache (List.replicate 6 (.loop sampleTurn) ++ sampleSave) →
        1 = ([sampleStat].map ContainerStat.count).sum) ∧
      ((List.replicate 6 (Choice.loop sampleTurn) ++ sampleSave).length < 2 ^ 63 →
        ((1 : Int64).toInt = ([sampleStat].map fun stat => stat.count.toInt).sum ↔
          Undisturbed sampleCache (List.replicate 6 (.loop sampleTurn) ++ sampleSave))) := by
  have hsaved : ((process sampleCache).stateAfter
      (List.replicate 6 (.loop sampleTurn) ++ sampleSave)).saver = .saved 1 1 [sampleStat] := by
    decide +kernel
  exact saved_total_iff hsaved

/-- The signal comes between the two statements, and the report lists an overrun with the total
zero; or the loop counts again before the container is listed, and the list is ahead. -/
theorem saved_total_iff_fails :
    (((process sampleCache).stateAfter
          (List.replicate 5 (.loop sampleTurn) ++ sampleSave)).saver = .saved 0 1 [sampleStat] ∧
        (0 : Int64) ≠ ([sampleStat].map ContainerStat.count).sum) ∧
      ((process sampleCache).stateAfter
          (List.replicate 6 (.loop sampleTurn) ++ [.call, .head, .range] ++
            List.replicate 7 (.loop sampleTurn) ++
            [.visit sampleStat.cid, .finish [⟨sampleStat.cid, 2⟩]])).saver =
          .saved 1 1 [⟨sampleStat.cid, 2⟩] ∧
        (1 : Int64) ≠ ([⟨sampleStat.cid, 2⟩].map ContainerStat.count).sum := by
  decide +kernel

end McKube.Ebpf.Monitor
