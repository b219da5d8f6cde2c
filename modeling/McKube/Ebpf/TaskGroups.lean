import McKube.Ebpf.OverrunHook

/-!
# Task groups and their cgroups

An event carries two identities.  `tg_ptr` is the task group of the server, and `cgid` is
the cgroup of the task that is current on the CPU when the hook runs.  The agent uses only
the second one.

* `onUpdateCurrDlSe_submits_iff`: what a submitted event is made of.
* `cgroupOf_stateAfter_append`: a task group keeps its cgroup for its lifetime.
* `chargedToOwner_iff`: when all overruns of a run are charged to the cgroup of their server.
-/

namespace McKube.Ebpf

/-! ## The node -/

/-- A task group is created for a cgroup or is destroyed, or the hook is called. -/
inductive GroupEvent
  | create (tg cgroup : UInt64)
  | destroy (tg : UInt64)
  | hook (c : Call)

/-- The cgroups of the live task groups, and the map of the hook. -/
structure Node where
  cgroupOf : UInt64 → Option UInt64
  seState : SeState

namespace Node

def step (s : Node) : GroupEvent → Node × Option Event
  | .create tg cgroup => ({ s with cgroupOf := Function.update s.cgroupOf tg (some cgroup) }, none)
  | .destroy tg => ({ s with cgroupOf := Function.update s.cgroupOf tg none }, none)
  | .hook c =>
      let result := onUpdateCurrDlSe s.seState c
      ({ s with seState := result.1 }, result.2)

/-- A task group is created at an address where none is alive. -/
def Possible (s : Node) : GroupEvent → Prop
  | .create tg _ => s.cgroupOf tg = none
  | .destroy _ => True
  | .hook _ => True

end Node

def node : Trace.Machine Node GroupEvent (Option Event) where
  init := { cgroupOf := fun _ => none, seState := Bpf.HashMap.empty }
  step := Node.step

/-- The task groups of the run are created one after the other at each address. -/
def PossibleRun (events : List GroupEvent) : Prop :=
  ∀ p e q, events = p ++ e :: q → (node.stateAfter p).Possible e

theorem possibleRun_nil : PossibleRun [] := by
  intro p e q hsplit
  exact absurd hsplit.symm (List.append_ne_nil_of_right_ne_nil p (List.cons_ne_nil e q))

theorem PossibleRun.concat {events : List GroupEvent} (h : PossibleRun events) {e : GroupEvent}
    (he : (node.stateAfter events).Possible e) : PossibleRun (events ++ [e]) := by
  intro p e' q hsplit
  rcases Trace.concat_eq_append_cons_iff.mp hsplit with ⟨q', -, hevents⟩ | ⟨-, rfl, rfl⟩
  · exact h p e' q' hevents
  · exact he

/-! ## What the hook submits -/

/-- The call shows an overrun of an entity that the map holds armed, or that it has room
for, and the ring buffer has room for the event. -/
structure Call.Submits (c : Call) (seState : SeState) : Prop where
  reports : c.reports = true
  armed : ∃ st, (seState.ensure c.dlSe table.init).lookup c.dlSe = some st ∧ st.wasPos ≠ 0
  reserved : c.reserve.isSome = true

theorem onUpdateCurrDlSe_submits_iff {seState : SeState} {c : Call} {e : Event} :
    (onUpdateCurrDlSe seState c).2 = some e ↔
      c.Submits seState ∧ ∃ memory ∈ c.reserve, e = c.fill memory := by
  cases hpasses : c.passes with
  | false =>
      have hreports : ¬ c.reports = true := by simp [Call.reports, hpasses]
      rw [onUpdateCurrDlSe_of_not_passes hpasses]
      constructor
      · intro hnone
        cases hnone
      · rintro ⟨hsubmits, -⟩
        exact absurd hsubmits.reports hreports
  | true =>
      have hreports : c.reports = true ↔ c.overruns = true := by simp [Call.reports, hpasses]
      rw [onUpdateCurrDlSe_of_passes hpasses]
      dsimp only
      constructor
      · intro hsome
        split at hsome
        · next st hlookup =>
            split at hsome
            · next hfires =>
                obtain ⟨memory, hmemory, rfl⟩ := Option.map_eq_some_iff.mp hsome
                refine ⟨⟨hreports.mpr hfires.2, ⟨st, hlookup, hfires.1⟩, ?_⟩,
                  memory, hmemory, rfl⟩
                rw [hmemory]
                rfl
            · cases hsome
        · cases hsome
      · rintro ⟨hsubmits, memory, hmemory, rfl⟩
        obtain ⟨st, hlookup, hbit⟩ := hsubmits.armed
        rw [hlookup]
        dsimp only
        rw [if_pos ⟨hbit, hreports.mp hsubmits.reports⟩, hmemory]
        rfl

/-! ## Lifetimes -/

/-- A live task group keeps its cgroup until it is destroyed. -/
theorem cgroupOf_step {s : Node} {e : GroupEvent} (hpossible : s.Possible e) {tg cgroup : UInt64}
    (hlive : s.cgroupOf tg = some cgroup) (hkept : e ≠ .destroy tg) :
    (s.step e).1.cgroupOf tg = some cgroup := by
  cases e with
  | create other _ =>
      have hne : tg ≠ other := by
        rintro rfl
        rw [show s.cgroupOf tg = none from hpossible] at hlive
        cases hlive
      exact (Function.update_of_ne hne _ _).trans hlive
  | destroy other =>
      have hne : tg ≠ other := by
        rintro rfl
        exact hkept rfl
      exact (Function.update_of_ne hne _ _).trans hlive
  | hook c => exact hlive

theorem cgroupOf_stateAfter_append {p q r : List GroupEvent} (hpossible : PossibleRun (p ++ q ++ r))
    {tg cgroup : UInt64} (hlive : (node.stateAfter p).cgroupOf tg = some cgroup)
    (hkept : .destroy tg ∉ q) : (node.stateAfter (p ++ q)).cgroupOf tg = some cgroup := by
  induction q using List.reverseRecOn generalizing r with
  | nil => rwa [List.append_nil]
  | append_singleton q e ih =>
      rw [List.mem_append, List.mem_singleton, not_or] at hkept
      have hinit : (node.stateAfter (p ++ q)).cgroupOf tg = some cgroup := by
        apply ih (r := [e] ++ r) _ hkept.1
        rwa [← List.append_assoc (p ++ q), List.append_assoc p]
      have he : (node.stateAfter (p ++ q)).Possible e :=
        hpossible (p ++ q) e r (by simp)
      rw [← List.append_assoc, Trace.Machine.stateAfter_concat]
      exact cgroupOf_step he hinit (Ne.symm hkept.2)

/-! ## Who is charged -/

/-- An event about a live task group carries the id of its cgroup. -/
def ChargedToOwner (events : List GroupEvent) : Prop :=
  ∀ p c q e, events = p ++ .hook c :: q → node.outputAt p (.hook c) = some e →
    ∀ cgroup ∈ (node.stateAfter p).cgroupOf e.tgPtr, e.cgid = cgroup

/-- Two events about one task group, within its lifetime, carry the same id. -/
def ChargedAlike (events : List GroupEvent) : Prop :=
  ∀ p c q c' r e e', events = p ++ .hook c :: (q ++ .hook c' :: r) →
    node.outputAt p (.hook c) = some e →
    node.outputAt (p ++ .hook c :: q) (.hook c') = some e' →
    e.tgPtr = e'.tgPtr → ((node.stateAfter p).cgroupOf e.tgPtr).isSome = true →
    .destroy e.tgPtr ∉ q → e.cgid = e'.cgid

/-- Whenever the hook submits an event, the current task is in the cgroup of the task group
of the server. -/
def RunsInOwner (events : List GroupEvent) : Prop :=
  ∀ p c q, events = p ++ .hook c :: q → c.Submits (node.stateAfter p).seState →
    ∀ cgroup ∈ (node.stateAfter p).cgroupOf c.rtTg, c.cgroupId = cgroup

theorem outputAt_hook_iff {p : List GroupEvent} {c : Call} {e : Event} :
    node.outputAt p (.hook c) = some e ↔
      c.Submits (node.stateAfter p).seState ∧ ∃ memory ∈ c.reserve, e = c.fill memory :=
  onUpdateCurrDlSe_submits_iff

theorem chargedToOwner_iff_runsInOwner (events : List GroupEvent) :
    ChargedToOwner events ↔ RunsInOwner events := by
  constructor
  · intro h p c q hsplit hsubmits cgroup hcgroup
    obtain ⟨memory, hmemory⟩ := Option.isSome_iff_exists.mp hsubmits.reserved
    exact h p c q _ hsplit (outputAt_hook_iff.mpr ⟨hsubmits, memory, hmemory, rfl⟩) cgroup hcgroup
  · intro h p c q e hsplit houtput cgroup hcgroup
    obtain ⟨hsubmits, memory, -, rfl⟩ := outputAt_hook_iff.mp houtput
    exact h p c q hsplit hsubmits cgroup hcgroup

theorem ChargedToOwner.chargedAlike {events : List GroupEvent} (hpossible : PossibleRun events)
    (h : ChargedToOwner events) : ChargedAlike events := by
  intro p c q c' r e e' hsplit houtput houtput' htg hlive hkept
  obtain ⟨cgroup, hcgroup⟩ := Option.isSome_iff_exists.mp hlive
  -- the group is still the same at the second event, which compares both with one cgroup
  have hlater : (node.stateAfter (p ++ .hook c :: q)).cgroupOf e.tgPtr = some cgroup := by
    apply cgroupOf_stateAfter_append (r := .hook c' :: r) _ hcgroup
    · rw [List.mem_cons, not_or]
      exact ⟨GroupEvent.noConfusion, hkept⟩
    · rwa [List.append_assoc, List.cons_append, ← hsplit]
  have hfirst := h p c (q ++ .hook c' :: r) e hsplit houtput cgroup hcgroup
  have hsecond := h (p ++ .hook c :: q) c' r e' (by rw [hsplit]; simp) houtput' cgroup
    (by rw [← htg]; exact hlater)
  rw [hfirst, hsecond]

/-- The overruns of a run are charged to the cgroups of their servers, and so to one cgroup
each, iff the hook has found a task of the server's cgroup current whenever it has submitted
an event. -/
theorem chargedToOwner_iff {events : List GroupEvent} (hpossible : PossibleRun events) :
    (ChargedToOwner events ∧ ChargedAlike events) ↔ RunsInOwner events := by
  rw [← chargedToOwner_iff_runsInOwner]
  constructor
  · exact fun h => h.1
  · exact fun h => ⟨h, h.chargedAlike hpossible⟩

/-- The task group of the sample calls. -/
def sampleGroup : GroupEvent := .create 0xffff888100b00000 4242

/-- A server of this group overruns while one of its own tasks is current. -/
def ownOverrun : Call := .sample 0xffff888100400000 (-250000)

/-- The server of the group on another CPU is updated there from the idle task, which is in
the root cgroup. -/
def remoteOverrun : Call := { Call.sample 0xffff888100500000 (-300000) with cgroupId := 1 }

theorem possibleRun_sample : PossibleRun [sampleGroup, .hook ownOverrun] :=
  (possibleRun_nil.concat (e := sampleGroup) rfl).concat (e := .hook ownOverrun) trivial

theorem chargedToOwner_iff_sample :
    (ChargedToOwner [sampleGroup, .hook ownOverrun] ∧
        ChargedAlike [sampleGroup, .hook ownOverrun]) ↔
      RunsInOwner [sampleGroup, .hook ownOverrun] :=
  chargedToOwner_iff possibleRun_sample

/-- Two overruns of one task group are charged to different cgroups. -/
theorem chargedToOwner_iff_fails :
    PossibleRun [sampleGroup, .hook ownOverrun, .hook remoteOverrun] ∧
      ¬ ChargedAlike [sampleGroup, .hook ownOverrun, .hook remoteOverrun] := by
  constructor
  · exact possibleRun_sample.concat (e := .hook remoteOverrun) trivial
  · intro h
    have hsame := h [sampleGroup] ownOverrun [] remoteOverrun []
      (ownOverrun.fill ⟨0, 0, 0, 0, 0, 0, 0⟩) (remoteOverrun.fill ⟨0, 0, 0, 0, 0, 0, 0⟩)
      rfl (by decide +kernel) (by decide +kernel) rfl (by decide +kernel) List.not_mem_nil
    exact absurd hsame (by decide)

end McKube.Ebpf
