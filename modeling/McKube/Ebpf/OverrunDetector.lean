import McKube.Ebpf.OverrunHook

/-!
# The detector against its edge-triggered reference

The reference has no map and no bits.  It decides from the trace alone: a call
that shows an overrun submits an event iff no earlier call on its entity has, or
a replenishment of the entity was seen since the last one that has.

* `armedAfter_iff_armedSince`: the latch of an entity, read off the trace.
* `CallsServed.trace_eq_referenceTrace`: while the map and the ring buffer have
  room, the detector is the reference, and the entities do not interfere.
* `CallsServed.reports_after_replenishment`: what rearms the detector.
* `events_separated`: nothing else does, not even in runs without room.
-/

namespace McKube.Ebpf

/-! ## The reference -/

/-- What the reference submits at the call `c` after the entries `trace`. -/
def referenceOutput (trace : List (Call × Option Event)) (c : Call) : Option Event :=
  if c.reports = true ∧
      Trace.ArmedSince (submittedFor c.dlSe) (fun e => replenishesOn c.dlSe e.1) trace then
    c.reserve.map c.fill
  else none

/-- The trace of the reference. -/
def referenceTrace (calls : List Call) : List (Call × Option Event) :=
  calls.foldl (fun trace c => trace ++ [(c, referenceOutput trace c)]) []

@[simp] theorem referenceTrace_nil : referenceTrace [] = [] := rfl

@[simp] theorem referenceTrace_concat (calls : List Call) (c : Call) :
    referenceTrace (calls ++ [c]) =
      referenceTrace calls ++ [(c, referenceOutput (referenceTrace calls) c)] := by
  simp [referenceTrace, List.foldl_append]

/-! ## Runs with room -/

/-- The entities that pass the filters fit in the map, and the reservations of
the calls that may report succeed. -/
structure CallsServed (calls : List Call) : Prop where
  entities : ((calls.filter Call.passes).map Call.dlSe).toFinset.card ≤ seStateEntries
  reserved : ∀ c ∈ calls, c.reports = true → c.reserve.isSome = true

instance (calls : List Call) : Decidable (CallsServed calls) :=
  decidable_of_iff (((calls.filter Call.passes).map Call.dlSe).toFinset.card ≤ seStateEntries ∧
    ∀ c ∈ calls, c.reports = true → c.reserve.isSome = true)
    ⟨fun h => ⟨h.1, h.2⟩, fun h => ⟨h.entities, h.reserved⟩⟩

namespace CallsServed

variable {calls : List Call}

theorem of_subset (hserved : CallsServed calls) {calls' : List Call} (hsubset : calls' ⊆ calls) :
    CallsServed calls' where
  entities := by
    refine le_trans (Finset.card_le_card ?_) hserved.entities
    intro d hd
    simp only [List.mem_toFinset, List.mem_map, List.mem_filter] at hd ⊢
    obtain ⟨c, ⟨hc, hpasses⟩, rfl⟩ := hd
    exact ⟨c, ⟨hsubset hc, hpasses⟩, rfl⟩
  reserved := fun c hc => hserved.reserved c (hsubset hc)

theorem tracked (hserved : CallsServed calls) {c : Call} (hc : c ∈ calls)
    (hpasses : c.passes = true) : Tracked calls c.dlSe := by
  apply (Bpf.mem_firstKeys_iff_of_card_le hserved.entities).mpr
  exact List.mem_map_of_mem (List.mem_filter.mpr ⟨hc, hpasses⟩)

/-- With room, the latch alone decides. -/
theorem outputAt_eq {pre : List Call} {c : Call} (hserved : CallsServed (pre ++ [c])) :
    detector.outputAt pre c =
      if c.reports = true ∧ (latch c.dlSe).armedAfter pre = true then c.reserve.map c.fill
      else none := by
  rw [Ebpf.outputAt_eq]
  by_cases hreports : c.reports = true
  · have htracked := hserved.tracked (by simp) (c.reports_iff.mp hreports).1
    simp [htracked]
  · simp [hreports]

theorem submittedFor_iff {pre : List Call} {c : Call} (hserved : CallsServed (pre ++ [c]))
    (d : UInt64) :
    submittedFor d (c, detector.outputAt pre c) = true ↔
      reportsOn d c = true ∧ (latch d).armedAfter pre = true := by
  rw [Ebpf.submittedFor_iff]
  constructor
  · rintro ⟨hreports, -, harmed, -⟩
    exact ⟨hreports, harmed⟩
  · rintro ⟨hreportsOn, harmed⟩
    obtain ⟨rfl, hreports⟩ := reportsOn_iff.mp hreportsOn
    have htracked := hserved.tracked (by simp) (c.reports_iff.mp hreports).1
    exact ⟨hreportsOn, htracked, harmed, hserved.reserved c (by simp) hreports⟩

/-- The latch of an entity, read off the trace. -/
theorem armedAfter_iff_armedSince (hserved : CallsServed calls) (d : UInt64) :
    (latch d).armedAfter calls = true ↔
      Trace.ArmedSince (submittedFor d) (fun e => replenishesOn d e.1) (detector.trace calls) := by
  induction calls using List.reverseRecOn with
  | nil =>
      exact ⟨fun _ => Trace.armedSince_nil _ _, fun _ => rfl⟩
  | append_singleton calls c ih =>
      have hinit := ih (hserved.of_subset (List.subset_append_left calls [c]))
      rw [Trace.Latch.armedAfter_concat, (latch d).step_eq_true_iff, Trace.Machine.trace_concat,
        Trace.armedSince_concat, ← hinit, ← Bool.not_eq_true (submittedFor d _),
        hserved.submittedFor_iff]
      show reportsOn d c = false ∧ (replenishesOn d c = true ∨ _) ↔ _
      -- a call that reports is submitted iff the latch was armed before it
      cases hreports : reportsOn d c with
      | false => simp
      | true => simp [replenishesOn_eq_false_of_reportsOn hreports]

theorem trace_eq (hserved : CallsServed calls) :
    detector.trace calls = referenceTrace calls := by
  induction calls using List.reverseRecOn with
  | nil => rfl
  | append_singleton calls c ih =>
      have hinit := hserved.of_subset (List.subset_append_left calls [c])
      have houtput : detector.outputAt calls c = referenceOutput (detector.trace calls) c := by
        rw [hserved.outputAt_eq, referenceOutput]
        simp only [hinit.armedAfter_iff_armedSince]
      rw [Trace.Machine.trace_concat, referenceTrace_concat, houtput, ih hinit]

/-- The calls on other entities change nothing in the trace of an entity. -/
theorem filter_trace (hserved : CallsServed calls) (d : UInt64) :
    (detector.trace calls).filter (fun e => e.1.isOn d) =
      detector.trace (calls.filter (fun c => c.isOn d)) := by
  induction calls using List.reverseRecOn with
  | nil => rfl
  | append_singleton calls c ih =>
      have hinit := ih (hserved.of_subset (List.subset_append_left calls [c]))
      rw [Trace.Machine.trace_concat, List.filter_append, List.filter_append, hinit]
      cases hd : c.isOn d with
      | false => simp [hd]
      | true =>
          have hserved' : CallsServed (calls.filter (fun c => c.isOn d) ++ [c]) := by
            apply hserved.of_subset
            intro c' hc'
            rcases List.mem_append.mp hc' with hc' | hc'
            · exact List.mem_append_left _ (List.mem_of_mem_filter hc')
            · exact List.mem_append_right _ hc'
          have harmed : (latch c.dlSe).armedAfter (calls.filter (fun c => c.isOn d)) =
              (latch c.dlSe).armedAfter calls := by
            rw [Call.isOn_iff] at hd
            subst hd
            exact Trace.Latch.armedAfter_filter _ (fun c' hc' => latch_quiet (Or.inl hc')) calls
          have houtput : detector.outputAt calls c =
              detector.outputAt (calls.filter (fun c => c.isOn d)) c := by
            rw [hserved.outputAt_eq, hserved'.outputAt_eq, harmed]
          simp [hd, houtput]

/-- The detector is its reference, and the calls on one entity are answered as
if there were no other entities. -/
theorem trace_eq_referenceTrace (hserved : CallsServed calls) :
    detector.trace calls = referenceTrace calls ∧
      ∀ d, (detector.trace calls).filter (fun e => e.1.isOn d) =
        detector.trace (calls.filter (fun c => c.isOn d)) :=
  ⟨hserved.trace_eq, hserved.filter_trace⟩

/-- A server overruns, another one does, the first is replenished and overruns
again. -/
def sampleCalls : List Call :=
  [.sample 0xffff888100400000 (-250000), .sample 0xffff888100500000 (-300000),
    .sample 0xffff888100400000 9000000, .sample 0xffff888100400000 (-120000)]

theorem trace_eq_referenceTrace_sample :
    CallsServed sampleCalls ∧
      ((referenceTrace sampleCalls).map fun e => e.2.isSome) = [true, true, false, true] ∧
      detector.trace sampleCalls = referenceTrace sampleCalls :=
  ⟨by decide +kernel, by decide +kernel, (trace_eq_referenceTrace (by decide +kernel)).1⟩

/-! ## Replenishments -/

/-- When the hook has seen the budget of `d` positive, and has submitted no
event for `d` since, the next overrun of `d` is reported. -/
theorem reports_after_replenishment (hserved : CallsServed calls) {d : UInt64}
    {p q r : List (Call × Option Event)} {y e : Call × Option Event}
    (htrace : detector.trace calls = p ++ y :: (q ++ e :: r))
    (hreplenished : replenishesOn d y.1 = true) (hquiet : ∀ z ∈ q, submittedFor d z = false)
    (hreports : reportsOn d e.1 = true) : e.2.isSome = true := by
  obtain ⟨p₀, q₀, -, -, hy⟩ := detector.trace_eq_append_cons htrace
  rw [← List.cons_append, ← List.append_assoc] at htrace
  obtain ⟨pre, post, rfl, hpre, he⟩ := detector.trace_eq_append_cons htrace
  obtain ⟨rfl, hreports'⟩ := reportsOn_iff.mp hreports
  have hserved' : CallsServed (pre ++ [e.1]) :=
    hserved.of_subset (by simp [List.append_subset])
  have hy_quiet : submittedFor e.1.dlSe y = false := by
    rw [← Bool.not_eq_true]
    intro hsubmitted
    have hentry : submittedFor e.1.dlSe (y.1, detector.outputAt p₀ y.1) = true := by
      rw [hy]
      exact hsubmitted
    have hreportsOn := ((Ebpf.submittedFor_iff _ _ _).mp hentry).1
    rw [replenishesOn_eq_false_of_reportsOn hreportsOn] at hreplenished
    cases hreplenished
  have harmed : (latch e.1.dlSe).armedAfter pre = true := by
    rw [(hserved'.of_subset (List.subset_append_left pre [e.1])).armedAfter_iff_armedSince, hpre]
    refine Trace.armedSince_append_cons _ _ ?_ ?_
    · exact hreplenished
    intro z hz
    rcases List.mem_cons.mp hz with rfl | hz
    · exact hy_quiet
    · exact hquiet z hz
  rw [← he, hserved'.outputAt_eq, if_pos ⟨hreports', harmed⟩, Option.isSome_map]
  exact hserved'.reserved e.1 (by simp) hreports'

theorem reports_after_replenishment_sample :
    (detector.outputAt (sampleCalls.take 3) (.sample 0xffff888100400000 (-120000))).isSome =
      true :=
  let overrun : Call := .sample 0xffff888100400000 (-120000)
  @reports_after_replenishment sampleCalls (by decide +kernel) 0xffff888100400000
    (detector.trace (sampleCalls.take 2)) [] [] (.sample 0xffff888100400000 9000000, none)
    (overrun, detector.outputAt (sampleCalls.take 3) overrun) (by decide +kernel) (by decide)
    (by decide) (by decide)

/-- A replenishment that the hook could see, but at which no task was running,
does not rearm: the call is filtered out before its budget is read. -/
theorem idle_replenishment_rearms_fails :
    ¬ ∀ calls, CallsServed calls → ∀ d p y q e r,
      detector.trace calls = p ++ y :: (q ++ e :: r) →
      y.1.isOn d = true → y.1.dlServer = true → y.1.myQ ≠ 0 → y.1.rtTg ≠ 0 → 0 < y.1.runtime →
      (∀ z ∈ q, submittedFor d z = false) →
      reportsOn d e.1 = true → e.2.isSome = true := by
  intro h
  let overrun : Call := .sample 0xffff888100400000 (-250000)
  let idle : Call := { Call.sample 0xffff888100400000 9000000 with rtNrRunning := 0 }
  have hreported := h [overrun, idle, overrun] (by decide +kernel) 0xffff888100400000
    (detector.trace [overrun]) (idle, none) [] (overrun, none) [] (by decide +kernel) (by decide)
    (by decide) (by decide) (by decide) (by decide) (by decide) (by decide)
  exact Bool.false_ne_true hreported

end CallsServed

/-! ## Two events -/

/-- Between two events of one entity the hook has seen its budget positive, however full the map
and the ring buffer are. -/
theorem events_separated {p q : List Call} {c c' : Call} (hsame : c'.dlSe = c.dlSe)
    (hfirst : (detector.outputAt p c).isSome = true)
    (hsecond : (detector.outputAt (p ++ c :: q) c').isSome = true) :
    ∃ y ∈ q, replenishesOn c.dlSe y = true := by
  have hsubmitted : ∀ pre call, call.dlSe = c.dlSe → (detector.outputAt pre call).isSome = true →
      reportsOn c.dlSe call = true ∧ (latch c.dlSe).armedAfter pre = true := by
    intro pre call hcall hsome
    have hfor : submittedFor c.dlSe (call, detector.outputAt pre call) = true := by
      rw [submittedFor, Bool.and_eq_true, Call.isOn_iff]
      exact ⟨hcall, hsome⟩
    obtain ⟨hreports, -, harmed, -⟩ := (submittedFor_iff c.dlSe pre call).mp hfor
    exact ⟨hreports, harmed⟩
  obtain ⟨hdisarms, -⟩ := hsubmitted p c rfl hfirst
  obtain ⟨-, harmed⟩ := hsubmitted _ c' hsame hsecond
  by_contra hnone
  push Not at hnone
  -- without a replenishment the latch would still be where the first event has left it
  have hquiet : ∀ y ∈ q, (latch c.dlSe).rearms y = false := fun y hy =>
    Bool.eq_false_iff.mpr (hnone y hy)
  rw [← List.singleton_append, ← List.append_assoc,
    Trace.Latch.armedAfter_append_of_not_rearms _ hquiet, Trace.Latch.armedAfter_concat,
    (latch c.dlSe).step_disarms hdisarms] at harmed
  exact Bool.false_ne_true harmed.1

theorem events_separated_sample :
    ∃ y ∈ (CallsServed.sampleCalls.take 3).tail, replenishesOn 0xffff888100400000 y = true :=
  let overrun : Call := .sample 0xffff888100400000 (-250000)
  @events_separated [] (CallsServed.sampleCalls.take 3).tail overrun
    (.sample 0xffff888100400000 (-120000)) rfl (by decide +kernel) (by decide +kernel)

end McKube.Ebpf
