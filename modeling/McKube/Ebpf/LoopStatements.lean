import McKube.Ebpf.Accounting

/-!
# The event loop, statement by statement

The loop of `Accounting` takes one record in one step.  Here each statement of its body is
a step, so that another goroutine may run between any two of them.

* `exec_cases`: what a statement does to the counters.
* `executes_iteration`: the statements of an iteration do what `EventLoop.step` does.
* `Balanced.exec`: the counters, with the total one behind between two of the statements.
-/

namespace McKube.Ebpf.Monitor

open GoLib

/-! ## Statements -/

/-- The statement that comes next, with the variables that it reads. -/
inductive Point
  | reading
  | decoding (rawSample : List UInt8)
  | lookingUp (ev : Event)
  | refreshing (ev : Event)
  | lookingUpAgain (ev : Event)
  | extracting (ev : Event) (path : GoString)
  | counting (ev : Event) (path cid : GoString)
  | totalling (ev : Event) (path cid : GoString)
  | logging (ev : Event) (path cid : GoString)
  | posting (ev : Event) (path cid : GoString)
  | returned
  | panicked

structure Loop where
  pc : PathCache
  overrunCount : Tally GoString
  totalCnt : Int64
  point : Point

namespace Loop

/-- One statement of the loop; only the read and the walk look at `t`. -/
def exec (s : Loop) (t : Turn) : Loop × Option Post :=
  match s.point with
  | .reading =>
      match t.read with
      | .closed => ({ s with point := .returned }, none)
      | .failed => ({ s with point := .reading }, none)
      | .record rawSample => ({ s with point := .decoding rawSample }, none)
  | .decoding rawSample =>
      match binary.read Event.decoder rawSample with
      | .error _ => ({ s with point := .reading }, none)
      | .ok ev => ({ s with point := .lookingUp ev }, none)
  | .lookingUp ev =>
      match s.pc.lookup ev.cgid with
      | some path => ({ s with point := .extracting ev path }, none)
      | none => ({ s with point := .refreshing ev }, none)
  | .refreshing ev => ({ s with pc := s.pc.refresh t.walk, point := .lookingUpAgain ev }, none)
  | .lookingUpAgain ev =>
      match s.pc.lookup ev.cgid with
      | some path => ({ s with point := .extracting ev path }, none)
      | none => ({ s with point := .reading }, none)
  | .extracting ev path =>
      match extractContainerID path with
      | none => ({ s with point := .reading }, none)
      | some cid => ({ s with point := .counting ev path cid }, none)
  | .counting ev path cid =>
      ({ s with overrunCount := s.overrunCount.increment cid, point := .totalling ev path cid },
        none)
  | .totalling ev path cid =>
      ({ s with totalCnt := s.totalCnt + 1, point := .logging ev path cid }, none)
  | .logging ev path cid =>
      match sliceTo cid 12 with
      | none => ({ s with point := .panicked }, none)
      | some _ => ({ s with point := .posting ev path cid }, none)
  | .posting ev path cid =>
      ({ s with point := .reading }, some { containerID := cid, event := ev, path := path })
  | .returned => (s, none)
  | .panicked => (s, none)

/-- The loop is between `overrunCount[cid]++` and `totalCnt++`. -/
def isTotalling (s : Loop) : Bool :=
  match s.point with
  | .totalling _ _ _ => true
  | _ => false

/-- The container whose counter the next statement increments. -/
def counts (s : Loop) : Option GoString :=
  match s.point with
  | .counting _ _ cid => some cid
  | _ => none

/-- The program has ended. -/
def ended (s : Loop) : Bool :=
  match s.point with
  | .returned => true
  | .panicked => true
  | _ => false

/-! ## Iterations -/

/-- The state as the loop without statements has it; it is of use at the start of an
iteration and after the end. -/
def coarse (s : Loop) : EventLoop where
  pc := s.pc
  overrunCount := s.overrunCount
  totalCnt := s.totalCnt
  status :=
    match s.point with
    | .returned => .returned
    | .panicked => .panicked
    | _ => .running

/-- Some statements, with the posts that they make. -/
inductive Executes (t : Turn) : Loop → List Post → Loop → Prop
  | none (s : Loop) : Executes t s [] s
  | next {s s' : Loop} {posts : List Post} (h : Executes t (s.exec t).1 posts s') :
      Executes t s ((s.exec t).2.toList ++ posts) s'

/-- The loop is at the start of an iteration, or at its end. -/
def AtRest (s : Loop) : Prop := s.point = .reading ∨ s.ended = true

/-- What statements from `s` on have to do, to be an iteration that ends in `r`. -/
def Does (t : Turn) (s : Loop) (r : EventLoop × Option Post) : Prop :=
  ∃ s', Executes t s r.2.toList s' ∧ s'.AtRest ∧ s'.coarse = r.1

variable {t : Turn}

theorem Does.step {s s' : Loop} {r : EventLoop × Option Post} (hexec : s.exec t = (s', none))
    (h : Does t s' r) : Does t s r := by
  obtain ⟨last, hexecutes, hrest⟩ := h
  have hnext : Executes t s ((s.exec t).2.toList ++ r.2.toList) last :=
    .next (by rwa [hexec])
  rw [hexec] at hnext
  exact ⟨last, hnext, hrest⟩

theorem does_of_atRest {s : Loop} (h : s.AtRest) : Does t s (s.coarse, none) :=
  ⟨s, .none s, h, rfl⟩

variable (pc : PathCache) (overrunCount : Tally GoString) (totalCnt : Int64)

theorem does_counting (ev : Event) (path cid : GoString) :
    Does t ⟨pc, overrunCount, totalCnt, .counting ev path cid⟩
      (EventLoop.count ⟨pc, overrunCount, totalCnt, .running⟩ cid ev path) := by
  -- the two increments; what is left of the iteration is the slice in the log line
  refine Does.step rfl (Does.step rfl ?_)
  unfold EventLoop.count
  cases hslice : sliceTo cid 12 with
  | none => exact Does.step (by simp [exec, hslice]; rfl) (does_of_atRest (Or.inr rfl))
  | some shown =>
      refine Does.step (by simp [exec, hslice]; rfl) ?_
      exact ⟨_, .next (.none _), Or.inl rfl, rfl⟩

theorem does_extracting (ev : Event) (path : GoString) :
    Does t ⟨pc, overrunCount, totalCnt, .extracting ev path⟩
      (match extractContainerID path with
        | none => (⟨pc, overrunCount, totalCnt, .running⟩, none)
        | some cid => EventLoop.count ⟨pc, overrunCount, totalCnt, .running⟩ cid ev path) := by
  cases hextract : extractContainerID path with
  | none => exact Does.step (by simp [exec, hextract]; rfl) (does_of_atRest (Or.inl rfl))
  | some cid =>
      exact Does.step (by simp [exec, hextract]) (does_counting pc overrunCount totalCnt _ _ _)

theorem does_lookingUp (ev : Event) :
    Does t ⟨pc, overrunCount, totalCnt, .lookingUp ev⟩
      (EventLoop.handleEvent ⟨pc, overrunCount, totalCnt, .running⟩ ev t.walk) := by
  unfold EventLoop.handleEvent PathCache.resolve
  cases hlookup : pc.lookup ev.cgid with
  | some path =>
      exact Does.step (by simp [exec, hlookup]) (does_extracting pc overrunCount totalCnt _ _)
  | none =>
      -- from here on the cache is the refreshed one, whether it helps or not
      refine Does.step (by simp [exec, hlookup]; rfl) (Does.step rfl ?_)
      dsimp only
      cases hagain : (pc.refresh t.walk).lookup ev.cgid with
      | none => exact Does.step (by simp [exec, hagain]; rfl) (does_of_atRest (Or.inl rfl))
      | some path =>
          exact Does.step (by simp [exec, hagain])
            (does_extracting (pc.refresh t.walk) overrunCount totalCnt _ _)

/-- The statements of an iteration do what a step of the event loop does. -/
theorem executes_iteration {s : Loop} (hreading : s.point = .reading) (t : Turn) :
    Does t s (s.coarse.step t) := by
  obtain ⟨pc, overrunCount, totalCnt, point⟩ := s
  change point = .reading at hreading
  subst hreading
  unfold EventLoop.step
  dsimp only [coarse]
  cases hread : t.read with
  | closed => exact Does.step (by simp [exec, hread]; rfl) (does_of_atRest (Or.inr rfl))
  | failed => exact Does.step (by simp [exec, hread]; rfl) (does_of_atRest (Or.inl rfl))
  | record rawSample =>
      refine Does.step (by simp [exec, hread]; rfl) ?_
      dsimp only
      cases hdecode : binary.read Event.decoder rawSample with
      | error e => exact Does.step (by simp [exec, hdecode]; rfl) (does_of_atRest (Or.inl rfl))
      | ok ev =>
          exact Does.step (by simp [exec, hdecode])
            (does_lookingUp pc overrunCount totalCnt ev)

/-! ## The counters -/

/-- A statement increments one of the two counters, or leaves both alone. -/
theorem exec_cases (s : Loop) (t : Turn) :
    (∃ cid, s.counts = some cid ∧ s.isTotalling = false ∧
        (s.exec t).1.overrunCount = s.overrunCount.increment cid ∧
        (s.exec t).1.totalCnt = s.totalCnt ∧ (s.exec t).1.isTotalling = true) ∨
      (s.counts = none ∧ s.isTotalling = true ∧ (s.exec t).1.overrunCount = s.overrunCount ∧
        (s.exec t).1.totalCnt = s.totalCnt + 1 ∧ (s.exec t).1.isTotalling = false) ∨
      (s.counts = none ∧ s.isTotalling = false ∧ (s.exec t).1.overrunCount = s.overrunCount ∧
        (s.exec t).1.totalCnt = s.totalCnt ∧ (s.exec t).1.isTotalling = false) := by
  obtain ⟨pc, overrunCount, totalCnt, point⟩ := s
  cases point with
  | counting ev path cid => exact Or.inl ⟨cid, rfl, rfl, rfl, rfl, rfl⟩
  | totalling ev path cid => exact Or.inr (Or.inl ⟨rfl, rfl, rfl, rfl, rfl⟩)
  -- all other statements only move on
  | reading =>
      refine Or.inr (Or.inr ⟨rfl, rfl, ?_⟩)
      cases hread : t.read <;> simp [exec, hread, isTotalling]
  | decoding rawSample =>
      refine Or.inr (Or.inr ⟨rfl, rfl, ?_⟩)
      cases hdecode : binary.read Event.decoder rawSample <;> simp [exec, hdecode, isTotalling]
  | lookingUp ev =>
      refine Or.inr (Or.inr ⟨rfl, rfl, ?_⟩)
      cases hlookup : pc.lookup ev.cgid <;> simp [exec, hlookup, isTotalling]
  | refreshing ev => exact Or.inr (Or.inr ⟨rfl, rfl, rfl, rfl, rfl⟩)
  | lookingUpAgain ev =>
      refine Or.inr (Or.inr ⟨rfl, rfl, ?_⟩)
      cases hlookup : pc.lookup ev.cgid <;> simp [exec, hlookup, isTotalling]
  | extracting ev path =>
      refine Or.inr (Or.inr ⟨rfl, rfl, ?_⟩)
      cases hextract : extractContainerID path <;> simp [exec, hextract, isTotalling]
  | logging ev path cid =>
      refine Or.inr (Or.inr ⟨rfl, rfl, ?_⟩)
      cases hslice : sliceTo cid 12 <;> simp [exec, hslice, isTotalling]
  | posting ev path cid => exact Or.inr (Or.inr ⟨rfl, rfl, rfl, rfl, rfl⟩)
  | returned => exact Or.inr (Or.inr ⟨rfl, rfl, rfl, rfl, rfl⟩)
  | panicked => exact Or.inr (Or.inr ⟨rfl, rfl, rfl, rfl, rfl⟩)

/-- The counters when the loop has counted `ids`; between its two statements the total is one
behind. -/
structure Balanced (s : Loop) (ids : List GoString) : Prop where
  counts : s.overrunCount.Counts ids
  total : s.totalCnt + (if s.isTotalling then 1 else 0) = Int64.ofNat ids.length

theorem Balanced.exec {s : Loop} {ids : List GoString} (h : s.Balanced ids) (t : Turn) :
    (s.exec t).1.Balanced (ids ++ s.counts.toList) := by
  have htotal := h.total
  rcases s.exec_cases t with ⟨cid, hcounts, hpoint, hcount, hcnt, hpoint'⟩ |
    ⟨hcounts, hpoint, hcount, hcnt, hpoint'⟩ | ⟨hcounts, hpoint, hcount, hcnt, hpoint'⟩
  · rw [hpoint, if_neg Bool.false_ne_true, Int64.add_zero] at htotal
    exact
      { counts := by
          rw [hcount, hcounts]
          exact h.counts.increment cid
        total := by
          rw [hcnt, hpoint', hcounts, Option.toList_some, List.length_append,
            List.length_singleton, Int64.ofNat_add, htotal]
          rfl }
  · rw [hpoint, if_pos rfl] at htotal
    exact
      { counts := by
          rw [hcount, hcounts, Option.toList_none, List.append_nil]
          exact h.counts
        total := by
          rw [hcnt, hpoint', hcounts, Option.toList_none, List.append_nil, htotal,
            if_neg Bool.false_ne_true, Int64.add_zero] }
  · rw [hpoint, if_neg Bool.false_ne_true, Int64.add_zero] at htotal
    exact
      { counts := by
          rw [hcount, hcounts, Option.toList_none, List.append_nil]
          exact h.counts
        total := by
          rw [hcnt, hpoint', hcounts, Option.toList_none, List.append_nil, htotal,
            if_neg Bool.false_ne_true, Int64.add_zero] }

end Loop

end McKube.Ebpf.Monitor
