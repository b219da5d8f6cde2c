import McKube.Ebpf.OverrunHook

/-!
# Overrun episodes

An episode of an entity is a stretch of the run between two replenishments of
it, as long as possible.  The calls on other entities are in it too.

* `Episode.submits_iff`: an episode submits an event iff its entity is tracked
  and the first call that may report has its reservation granted.
* `overrunsKept_iff`: when a full ring buffer loses no episode of a run.
-/

namespace McKube.Ebpf

/-- The part `episode` of the run `calls` is an episode of the entity `d`: no
replenishment is seen in it, and it starts and stops at one or with the run. -/
structure Episode (d : UInt64) (calls before episode after : List Call) : Prop where
  split : calls = before ++ episode ++ after
  start : before = [] ∨ ∃ init c, before = init ++ [c] ∧ replenishesOn d c = true
  quiet : ∀ c ∈ episode, replenishesOn d c = false
  stop : after = [] ∨ ∃ c rest, after = c :: rest ∧ replenishesOn d c = true

namespace Episode

variable {d : UInt64} {calls before episode after : List Call}

/-- An episode starts with the latch of its entity armed. -/
theorem armedAfter_before (h : Episode d calls before episode after) :
    (latch d).armedAfter before = true := by
  rcases h.start with rfl | ⟨init, c, rfl, hc⟩
  · rfl
  · rw [Trace.Latch.armedAfter_concat]
    exact (latch d).step_rearms hc _

/-- In an episode the latch is armed until the first call that may report. -/
theorem armedAfter_iff (h : Episode d calls before episode after) {p q : List Call}
    (hsplit : episode = p ++ q) :
    (latch d).armedAfter (before ++ p) = true ↔ ∀ c ∈ p, reportsOn d c = false := by
  have hrearms : ∀ c ∈ p, (latch d).rearms c = false := by
    intro c hc
    apply h.quiet
    rw [hsplit]
    exact List.mem_append_left q hc
  rw [(latch d).armedAfter_append_of_not_rearms hrearms]
  exact ⟨fun harmed => harmed.2, fun hquiet => ⟨h.armedAfter_before, hquiet⟩⟩

/-- When an episode submits an event.  The latch is disarmed by the first call
that may report, whether its reservation is granted or not. -/
theorem submits_iff (h : Episode d calls before episode after) :
    (∃ e ∈ detector.traceFrom (detector.stateAfter before) episode, submittedFor d e = true) ↔
      Tracked calls d ∧
        ∃ first, episode.find? (reportsOn d) = some first ∧ first.reserve.isSome = true := by
  have htracked : ∀ {p c q}, episode = p ++ c :: q → reportsOn d c = true →
      (Tracked (before ++ p ++ [c]) d ↔ Tracked calls d) := by
    intro p c q hsplit hc
    obtain ⟨rfl, hreports⟩ := reportsOn_iff.mp hc
    have hcalls : calls = before ++ p ++ [c] ++ (q ++ after) := by
      rw [h.split, hsplit]
      simp
    rw [hcalls]
    exact (tracked_append_iff (by simp) (c.reports_iff.mp hreports).1 (q ++ after)).symm
  constructor
  · rintro ⟨e, he, hsubmitted⟩
    obtain ⟨p, q, hsplit, houtput⟩ := detector.mem_traceFrom_iff.mp he
    have hentry : submittedFor d (e.1, detector.outputAt (before ++ p) e.1) = true := by
      rw [houtput]
      exact hsubmitted
    obtain ⟨hreports, hkey, harmed, hreserve⟩ := (submittedFor_iff d _ _).mp hentry
    refine ⟨(htracked hsplit hreports).mp hkey, e.1, ?_, hreserve⟩
    have hfirst := (h.armedAfter_iff hsplit).mp harmed
    rw [List.find?_eq_some_iff_append]
    exact ⟨hreports, p, q, hsplit, fun c hc => by rw [hfirst c hc]; rfl⟩
  · rintro ⟨hkey, first, hfind, hreserve⟩
    obtain ⟨hreports, p, q, hsplit, hfirst⟩ := List.find?_eq_some_iff_append.mp hfind
    refine ⟨(first, detector.outputAt (before ++ p) first),
      detector.mem_traceFrom_iff.mpr ⟨p, q, hsplit, rfl⟩, ?_⟩
    rw [submittedFor_iff]
    refine ⟨hreports, (htracked hsplit hreports).mpr hkey, ?_, hreserve⟩
    rw [h.armedAfter_iff hsplit]
    intro c hc
    simpa using hfirst c hc

end Episode

/-! ## Full ring buffers -/

/-- An episode in which some call that may report would have its reservation
granted submits an event. -/
def OverrunsKept (calls : List Call) : Prop :=
  ∀ d before episode after, Episode d calls before episode after →
    (∃ c ∈ episode, reportsOn d c = true ∧ c.reserve.isSome = true) →
    ∃ e ∈ detector.traceFrom (detector.stateAfter before) episode, submittedFor d e = true

/-- In these episodes the entity has an entry in the map, and already the first
call that may report has its reservation granted. -/
def FirstReportsGranted (calls : List Call) : Prop :=
  ∀ d before episode after, Episode d calls before episode after →
    (∃ c ∈ episode, reportsOn d c = true ∧ c.reserve.isSome = true) →
    Tracked calls d ∧
      ∃ first, episode.find? (reportsOn d) = some first ∧ first.reserve.isSome = true

/-- A later call of an episode does not make up for its first report. -/
theorem overrunsKept_iff (calls : List Call) :
    OverrunsKept calls ↔ FirstReportsGranted calls := by
  constructor
  · intro h d before episode after hepisode hgrantable
    exact hepisode.submits_iff.mp (h d before episode after hepisode hgrantable)
  · intro h d before episode after hepisode hgrantable
    exact hepisode.submits_iff.mpr (h d before episode after hepisode hgrantable)

/-- The ring buffer is full at the first overrun that the hook sees, and has
room again while the server is still throttled: nothing is submitted. -/
theorem overrunsKept_fails :
    ¬ OverrunsKept
      [.sample 0xffff888100400000 9000000,
        { Call.sample 0xffff888100400000 (-250000) with reserve := none },
        .sample 0xffff888100400000 (-260000),
        .sample 0xffff888100400000 9000000] := by
  intro h
  let positive : Call := .sample 0xffff888100400000 9000000
  let full : Call := { Call.sample 0xffff888100400000 (-250000) with reserve := none }
  let overrun : Call := .sample 0xffff888100400000 (-260000)
  have hepisode : Episode 0xffff888100400000 [positive, full, overrun, positive] [positive]
      [full, overrun] [positive] :=
    { split := rfl
      start := Or.inr ⟨[], positive, rfl, by decide⟩
      quiet := by decide
      stop := Or.inr ⟨positive, [], rfl, by decide⟩ }
  exact absurd (h _ _ _ _ hepisode ⟨overrun, by decide, by decide, rfl⟩) (by decide +kernel)

end McKube.Ebpf
