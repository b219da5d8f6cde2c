import McKube.Bpf.RingBuffer
import McKube.Ebpf.Accounting
import McKube.Ebpf.OverrunDetector
import McKube.Ebpf.TaskGroups
import McKube.Trace.Component

/-!
# From the hook to the counters

The hook, the ring buffer and the event loop run side by side, while cgroups come and go.  The
hook puts its events into the buffer, and the loop takes them out, decodes them and counts them
for the container of their cgroup.

* `hookPart`, `loopPart`, `cachePart`: every part sees only its own steps.
* `ledger_concat`, `exists_ledger`: what has been submitted has been read, in this order, or is
  in the buffer.
* `posts_sublist`: nothing is invented, counted twice or counted for another container.
* `overrunCount_exact`: while there is room, and cgroups outlive their events, the counters are
  those of the reference detector.
-/

namespace McKube.Ebpf.Monitor

open GoLib

/-! ## The system -/

/-- `max_entries` of the map `events`, in bytes. -/
def eventsBytes : Nat := 16777216

/-- What happens next: the kernel calls the hook, a cgroup directory is made or removed, or the
loop reads; with a read stands what a walk would see at that moment. -/
inductive Input
  | hook (c : Call) (padding : Nat → UInt8)
  | mkdir (d : Directory)
  | rmdir (ino : UInt64)
  | poll (walk : List Visit)
  | fail
  | close

/-- The map of the hook, the ring buffer and the loop. -/
structure Pipeline where
  seState : SeState
  ring : Bpf.RingBuffer eventsBytes
  loop : EventLoop

structure Output where
  submitted : Option Ebpf.Event
  post : Option Post

namespace Pipeline

variable (s : Pipeline)

/-- The call as the hook sees it: a reservation fails without room. -/
def granted (c : Call) : Call :=
  { c with reserve := if s.ring.HasRoom eventSize then c.reserve else none }

/-- The loop does a turn. -/
def turn (t : Turn) : Pipeline × Output :=
  ({ s with loop := (s.loop.step t).1 }, { submitted := none, post := (s.loop.step t).2 })

/-- The record that the loop can read now; a loop that has ended reads no more. -/
def next? : Option (List UInt8) :=
  if s.loop.status = .running then s.ring.records.head? else none

/-- One step; a read waits as long as there is no record. -/
def step : Input → Pipeline × Output
  | .hook c padding =>
      match onUpdateCurrDlSe s.seState (s.granted c) with
      | (seState, none) => ({ s with seState := seState }, { submitted := none, post := none })
      | (seState, some e) =>
          ({ s with seState := seState, ring := s.ring.submit (e.sample padding) },
            { submitted := some e, post := none })
  | .mkdir _ => (s, { submitted := none, post := none })
  | .rmdir _ => (s, { submitted := none, post := none })
  | .poll walk =>
      if s.loop.status = .running then
        match s.ring.read with
        | none => (s, { submitted := none, post := none })
        | some (rawSample, ring) =>
            { s with ring := ring }.turn { read := .record rawSample, walk := walk }
      else (s, { submitted := none, post := none })
  | .fail => s.turn { read := .failed, walk := [] }
  | .close => s.turn { read := .closed, walk := [] }

/-! ### What a step is for each part -/

/-- The call of the hook. -/
def call? : Input → Option Call
  | .hook c _ => some (s.granted c)
  | _ => none

/-- The turn of the loop. -/
def turn? : Input → Option Turn
  | .poll walk => s.next?.map fun rawSample => { read := .record rawSample, walk := walk }
  | .fail => some { read := .failed, walk := [] }
  | .close => some { read := .closed, walk := [] }
  | _ => none

/-- What the cache of the loop sees. -/
def action? : Input → Option Action
  | .mkdir d => some (.mkdir d)
  | .rmdir ino => some (.rmdir ino)
  | .poll walk => s.next?.bind fun rawSample =>
      (binary.read Event.decoder rawSample).toOption.map fun ev => .event ev.cgid walk
  | _ => none

/-- The ways in which a step can go. -/
inductive StepCase (s : Pipeline) : Input → Pipeline × Output → Prop
  | submits {c : Call} {padding : Nat → UInt8} {seState : SeState} {e : Ebpf.Event}
      {ring : Bpf.RingBuffer eventsBytes}
      (hhook : onUpdateCurrDlSe s.seState (s.granted c) = (seState, some e))
      (hring : ring.records = s.ring.records ++ [e.sample padding]) :
      StepCase s (.hook c padding)
        ({ s with seState := seState, ring := ring }, { submitted := some e, post := none })
  | silent {c : Call} {padding : Nat → UInt8} {seState : SeState}
      (hhook : onUpdateCurrDlSe s.seState (s.granted c) = (seState, none)) :
      StepCase s (.hook c padding)
        ({ s with seState := seState }, { submitted := none, post := none })
  | mkdir (d : Directory) : StepCase s (.mkdir d) (s, { submitted := none, post := none })
  | rmdir (ino : UInt64) : StepCase s (.rmdir ino) (s, { submitted := none, post := none })
  | reads {walk : List Visit} {rawSample : List UInt8} {ring : Bpf.RingBuffer eventsBytes}
      (hrunning : s.loop.status = .running) (hnext : s.next? = some rawSample)
      (hrecords : s.ring.records = rawSample :: ring.records) :
      StepCase s (.poll walk)
        ({ s with ring := ring }.turn { read := .record rawSample, walk := walk })
  | waits {walk : List Visit} (hnext : s.next? = none) :
      StepCase s (.poll walk) (s, { submitted := none, post := none })
  | fails : StepCase s .fail (s.turn { read := .failed, walk := [] })
  | closes : StepCase s .close (s.turn { read := .closed, walk := [] })

variable {s}

/-- An event that is submitted has a reservation. -/
theorem reserve_isSome_of_submits {seState seState' : SeState} {c : Call} {e : Ebpf.Event}
    (h : onUpdateCurrDlSe seState c = (seState', some e)) : c.reserve.isSome = true := by
  have hsnd : (onUpdateCurrDlSe seState c).2 = some e := by rw [h]
  exact (onUpdateCurrDlSe_submits_iff.mp hsnd).1.reserved

theorem step_cases (s : Pipeline) (x : Input) : StepCase s x (s.step x) := by
  cases x with
  | hook c padding =>
      cases hhook : onUpdateCurrDlSe s.seState (s.granted c) with
      | mk seState event =>
          cases event with
          | none =>
              have hstep : s.step (.hook c padding) =
                  ({ s with seState := seState }, { submitted := none, post := none }) := by
                simp only [step, hhook]
              rw [hstep]
              exact .silent hhook
          | some e =>
              have hstep : s.step (.hook c padding) =
                  ({ s with seState := seState, ring := s.ring.submit (e.sample padding) },
                    { submitted := some e, post := none }) := by
                simp only [step, hhook]
              have hroom : s.ring.HasRoom (e.sample padding).length := by
                rw [length_sample]
                by_contra hfull
                have hreserve := reserve_isSome_of_submits hhook
                have hnone : (s.granted c).reserve = none := if_neg hfull
                rw [hnone] at hreserve
                cases hreserve
              rw [hstep]
              exact .submits hhook (s.ring.records_submit hroom)
  | mkdir d => exact .mkdir d
  | rmdir ino => exact .rmdir ino
  | poll walk =>
      cases hread : s.ring.read with
      | none =>
          have hstep : s.step (.poll walk) = (s, { submitted := none, post := none }) := by
            simp only [step, hread, ite_self]
          have hnext : s.next? = none := by
            rw [next?, s.ring.records_of_read_none hread]
            exact ite_self none
          rw [hstep]
          exact .waits hnext
      | some found =>
          have hrecords := s.ring.records_of_read hread
          by_cases hrunning : s.loop.status = .running
          · have hstep : s.step (.poll walk) =
                { s with ring := found.2 }.turn { read := .record found.1, walk := walk } := by
              simp only [step, hread, if_pos hrunning]
            have hnext : s.next? = some found.1 := by
              rw [next?, if_pos hrunning, hrecords]
              rfl
            rw [hstep]
            exact .reads hrunning hnext hrecords
          · have hstep : s.step (.poll walk) = (s, { submitted := none, post := none }) := by
              simp only [step, if_neg hrunning]
            rw [hstep]
            exact .waits (if_neg hrunning)
  | fail => exact .fails
  | close => exact .closes

end Pipeline

/-- The system with the cache that the loop starts from. -/
def pipeline (pc : PathCache) : Trace.Machine Pipeline Input Output where
  init := { seState := Bpf.HashMap.empty, ring := .empty, loop := (eventLoop pc).init }
  step := Pipeline.step

/-! ## The parts -/

namespace EventLoop

theorem pc_count (s : EventLoop) (cid : GoString) (ev : Event) (path : GoString) :
    (s.count cid ev path).1.pc = s.pc := by
  unfold count
  cases sliceTo cid 12 with
  | none => rfl
  | some _ => rfl

theorem pc_handleEvent (s : EventLoop) (ev : Event) (walk : List Visit) :
    (s.handleEvent ev walk).1.pc = (s.pc.resolve ev.cgid walk).1 := by
  unfold handleEvent
  cases s.pc.resolve ev.cgid walk with
  | mk pc found =>
      cases found with
      | none => rfl
      | some path =>
          dsimp only
          cases extractContainerID path with
          | none => rfl
          | some cid => exact pc_count _ cid ev path

theorem step_of_decoded {s : EventLoop} (hrunning : s.status = .running) {rawSample : List UInt8}
    {ev : Event} (hdecode : binary.read Event.decoder rawSample = .ok ev) (walk : List Visit) :
    s.step { read := .record rawSample, walk := walk } = s.handleEvent ev walk := by
  simp only [step, hrunning, hdecode]

theorem step_of_not_decoded {s : EventLoop} {rawSample : List UInt8}
    {err : binary.ReadError}
    (hdecode : binary.read Event.decoder rawSample = .error err) (walk : List Visit) :
    s.step { read := .record rawSample, walk := walk } = (s, none) := by
  cases hstatus : s.status with
  | running => simp only [step, hstatus, hdecode]
  | returned => simp only [step, hstatus]
  | panicked => simp only [step, hstatus]

/-- A read without a record leaves the cache and the counters alone, and posts nothing. -/
theorem step_of_no_record (s : EventLoop) {t : Turn} (h : ∀ rawSample, t.read ≠ .record rawSample) :
    (s.step t).1.pc = s.pc ∧ (s.step t).2 = none := by
  unfold step
  cases s.status with
  | running =>
      cases hread : t.read with
      | closed => exact ⟨rfl, rfl⟩
      | failed => exact ⟨rfl, rfl⟩
      | record rawSample => exact absurd hread (h rawSample)
  | returned => exact ⟨rfl, rfl⟩
  | panicked => exact ⟨rfl, rfl⟩

end EventLoop

section Parts

variable (pc : PathCache)

/-- The hook, as if it were alone but for the reservations. -/
def hookPart : Trace.Component (pipeline pc) detector where
  state := Pipeline.seState
  input := Pipeline.call?
  init := rfl
  step s x := by
    show (s.step x).1.seState = _
    have hcase := s.step_cases x
    generalize s.step x = result at hcase ⊢
    cases hcase with
    | submits hhook _ => exact (congrArg Prod.fst hhook).symm
    | silent hhook => exact (congrArg Prod.fst hhook).symm
    | mkdir => rfl
    | rmdir => rfl
    | reads => rfl
    | waits => rfl
    | fails => rfl
    | closes => rfl

/-- The loop, with the records that it takes out of the buffer. -/
def loopPart : Trace.Component (pipeline pc) (eventLoop pc) where
  state := Pipeline.loop
  input := Pipeline.turn?
  init := rfl
  step s x := by
    show (s.step x).1.loop = _
    have hcase := s.step_cases x
    generalize s.step x = result at hcase ⊢
    cases hcase with
    | submits => rfl
    | silent => rfl
    | mkdir => rfl
    | rmdir => rfl
    | reads _ hnext => simp only [Pipeline.turn?, hnext]; rfl
    | waits hnext => simp only [Pipeline.turn?, hnext]; rfl
    | fails => rfl
    | closes => rfl

/-- The cache of the loop, with the events that the loop looks up. -/
def cachePart : Trace.Component (pipeline pc) (pathResolver pc) where
  state s := s.loop.pc
  input := Pipeline.action?
  init := rfl
  step s x := by
    show (s.step x).1.loop.pc = _
    have hcase := s.step_cases x
    generalize s.step x = result at hcase ⊢
    cases hcase with
    | submits => rfl
    | silent => rfl
    | mkdir => rfl
    | rmdir => rfl
    | @reads walk rawSample ring hrunning hnext _ =>
        simp only [Pipeline.action?, hnext, Option.bind_some]
        show (s.loop.step { read := .record rawSample, walk := walk }).1.pc = _
        cases hdecode : binary.read Event.decoder rawSample with
        | error err => rw [EventLoop.step_of_not_decoded hdecode]; rfl
        | ok ev =>
            rw [EventLoop.step_of_decoded hrunning hdecode, EventLoop.pc_handleEvent]
            rfl
    | waits hnext => simp only [Pipeline.action?, hnext]; rfl
    | fails => exact (s.loop.step_of_no_record fun _ => ReadResult.noConfusion).1
    | closes => exact (s.loop.step_of_no_record fun _ => ReadResult.noConfusion).1

/-- The calls of the hook, with the reservations that the buffer allows. -/
def grantedCalls (xs : List Input) : List Call := (hookPart pc).inputs xs

def loopTurns (xs : List Input) : List Turn := (loopPart pc).inputs xs

/-- The events that have gone into the buffer. -/
def submittedEvents (xs : List Input) : List Ebpf.Event :=
  Trace.Component.outputs Output.submitted (pipeline pc) xs

def sentPosts (xs : List Input) : List Post := Trace.Component.outputs Output.post (pipeline pc) xs

theorem submittedEvents_eq (xs : List Input) :
    submittedEvents pc xs = (detector.trace (grantedCalls pc xs)).filterMap Prod.snd := by
  apply (hookPart pc).outputs_eq
  intro s x
  show (s.step x).2.submitted = (s.call? x).bind fun c => (onUpdateCurrDlSe s.seState c).2
  have hcase := s.step_cases x
  generalize s.step x = result at hcase ⊢
  cases hcase with
  | submits hhook _ => exact (congrArg Prod.snd hhook).symm
  | silent hhook => exact (congrArg Prod.snd hhook).symm
  | mkdir => rfl
  | rmdir => rfl
  | reads => rfl
  | waits => rfl
  | fails => rfl
  | closes => rfl

theorem sentPosts_eq (xs : List Input) :
    sentPosts pc xs = postsOf pc (loopTurns pc xs) := by
  apply (loopPart pc).outputs_eq
  intro s x
  show (s.step x).2.post = (s.turn? x).bind fun t => (s.loop.step t).2
  have hcase := s.step_cases x
  generalize s.step x = result at hcase ⊢
  cases hcase with
  | submits => rfl
  | silent => rfl
  | mkdir => rfl
  | rmdir => rfl
  | reads _ hnext => simp only [Pipeline.turn?, hnext]; rfl
  | waits hnext => simp only [Pipeline.turn?, hnext]; rfl
  | fails => rfl
  | closes => rfl

/-- The buffer gets at most one record in a step. -/
theorem length_records_le (xs : List Input) :
    ((pipeline pc).stateAfter xs).ring.records.length ≤ xs.length := by
  induction xs using List.reverseRecOn with
  | nil => exact Nat.le_refl 0
  | append_singleton xs x ih =>
      rw [Trace.Machine.stateAfter_concat, List.length_append, List.length_singleton]
      show (((pipeline pc).stateAfter xs).step x).1.ring.records.length ≤ _
      have hcase := ((pipeline pc).stateAfter xs).step_cases x
      generalize ((pipeline pc).stateAfter xs).step x = result at hcase ⊢
      cases hcase with
      | submits _ hring =>
          rw [hring, List.length_append, List.length_singleton]
          omega
      | reads _ _ hrecords =>
          rw [hrecords, List.length_cons] at ih
          exact Nat.le_succ_of_le (Nat.le_of_succ_le ih)
      | _ => exact Nat.le_succ_of_le ih

end Parts

/-! ## The way of an event -/

/-- A record of the event, whatever is in its padding. -/
def IsSampleOf (rawSample : List UInt8) (e : Ebpf.Event) : Prop :=
  ∃ padding, rawSample = e.sample padding

/-- What the controller is told about an overrun. -/
def Post.charge (post : Post) : GoString × UInt64 := (post.containerID, post.event.ts)

namespace CgroupHistory

variable (h : CgroupHistory)

/-- The path of the one directory that the id ever had. -/
def pathOf (cgid : UInt64) : Option GoString :=
  (h.directories.find? fun d => decide (d.1 = cgid)).map Prod.snd

/-- The container whose overrun the event is, with the time. -/
def charge (e : Ebpf.Event) : Option (GoString × UInt64) :=
  ((h.pathOf e.cgid).bind extractContainerID).map fun cid => (cid, e.ts)

theorem pathOf_eq {cgid : UInt64} {path : GoString} (hpath : (cgid, path) ∈ h.directories) :
    h.pathOf cgid = some path := by
  unfold pathOf
  cases hfind : h.directories.find? fun d => decide (d.1 = cgid) with
  | none =>
      have hnone := List.find?_eq_none.mp hfind (cgid, path) hpath
      simp at hnone
  | some d =>
      have hd : d.1 = cgid := by simpa using List.find?_some hfind
      have hmem : (cgid, d.2) ∈ h.directories := by
        rw [← hd]
        exact List.mem_of_find?_eq_some hfind
      rw [Option.map_some, h.path_unique hmem hpath]

end CgroupHistory

/-- What the loop posts for a record of an event. -/
theorem EventLoop.step_sample {s : EventLoop} (hrunning : s.status = .running)
    {rawSample : List UInt8} {e : Ebpf.Event} (hsample : IsSampleOf rawSample e)
    (walk : List Visit) :
    (∃ ev, binary.read Event.decoder rawSample = .ok ev ∧ ev.cgid = e.cgid) ∧
      (s.step { read := .record rawSample, walk := walk }).2.map Post.charge =
        ((s.pc.resolve e.cgid walk).2.bind extractContainerID).map fun cid => (cid, e.ts) := by
  obtain ⟨padding, rfl⟩ := hsample
  obtain ⟨ev, hread, hrecovers⟩ := read_sample padding e
  refine ⟨⟨ev, hread, hrecovers.cgid⟩, ?_⟩
  rw [step_of_decoded hrunning hread, handleEvent, hrecovers.cgid]
  cases s.pc.resolve e.cgid walk with
  | mk pc found =>
      cases found with
      | none => rfl
      | some path =>
          dsimp only [Option.bind_some]
          cases hextract : extractContainerID path with
          | none => rfl
          | some cid =>
              have hid := (extractContainerID_eq_some_iff.mp hextract).isContainerID
              dsimp only
              rw [count_of_isContainerID hid]
              show some (cid, ev.ts) = some (cid, e.ts)
              rw [hrecovers.ts]

/-- The events that have been submitted: the loop has handled the first of them, and the others
are the records in the buffer.  The posts are those of the handled events; if all directories
are `live`, none is missing. -/
structure Ledger (h : CgroupHistory) (records : List (List UInt8)) (events : List Ebpf.Event)
    (posts : List (GoString × UInt64)) (live : Prop) (handled pending : List Ebpf.Event) :
    Prop where
  submitted : events = handled ++ pending
  buffered : List.Forall₂ IsSampleOf records pending
  sublist : posts.Sublist (handled.filterMap h.charge)
  exact_of_live : live → posts = handled.filterMap h.charge

namespace Ledger

variable {h : CgroupHistory} {records : List (List UInt8)}
  {events handled pending : List Ebpf.Event} {posts : List (GoString × UInt64)}
  {live live' : Prop} {rawSample : List UInt8}

theorem mono (ht : Ledger h records events posts live handled pending) (hlive : live' → live) :
    Ledger h records events posts live' handled pending :=
  { ht with exact_of_live := fun h' => ht.exact_of_live (hlive h') }

theorem submit (ht : Ledger h records events posts live handled pending) {e : Ebpf.Event}
    (hsample : IsSampleOf rawSample e) :
    Ledger h (records ++ [rawSample]) (events ++ [e]) posts live handled (pending ++ [e]) where
  submitted := by rw [ht.submitted, List.append_assoc]
  buffered := List.rel_append ht.buffered (List.Forall₂.cons hsample List.Forall₂.nil)
  sublist := ht.sublist
  exact_of_live := ht.exact_of_live

/-- A step without an event and without a post. -/
theorem quiet (ht : Ledger h records events posts live handled pending) {post : Option Post}
    (hpost : post = none) :
    Ledger h records (events ++ (none : Option Ebpf.Event).toList)
      (posts ++ (post.map Post.charge).toList) live handled pending := by
  rw [hpost]
  simpa using ht

/-- The oldest record is read. -/
theorem read (ht : Ledger h (rawSample :: records) events posts live handled pending)
    (hlive : live' → live) {post : Option (GoString × UInt64)}
    (hpost : ∀ e, IsSampleOf rawSample e →
      (post = none ∨ post = h.charge e) ∧ (live' → post = h.charge e)) :
    ∃ handled' pending',
      Ledger h records events (posts ++ post.toList) live' handled' pending' := by
  obtain ⟨e, pending, hsample, hrest, rfl⟩ := List.forall₂_cons_left_iff.mp ht.buffered
  obtain ⟨hsome, hexact⟩ := hpost e hsample
  have hhandled : (handled ++ [e]).filterMap h.charge =
      handled.filterMap h.charge ++ (h.charge e).toList := Trace.filterMap_concat _ _ _
  refine ⟨handled ++ [e], pending, ?_⟩
  exact
    { submitted := by rw [ht.submitted, List.append_assoc, List.singleton_append]
      buffered := hrest
      sublist := by
        rw [hhandled]
        apply ht.sublist.append
        rcases hsome with rfl | rfl
        · exact List.nil_sublist _
        · exact List.Sublist.refl _
      exact_of_live := by
        intro h'
        rw [hhandled, ht.exact_of_live (hlive h'), hexact h'] }

end Ledger

/-! ## Runs -/

/-- The cache with which the loop starts. -/
def startCache (h : CgroupHistory) : PathCache := buildPathCache h.root h.walk

/-- The directory of every event that is handled still exists then. -/
def Live (h : CgroupHistory) (xs : List Input) : Prop :=
  ∀ p x q, xs = p ++ x :: q → ∀ cgid walk,
    ((pipeline (startCache h)).stateAfter p).action? x = some (.event cgid walk) →
      ∃ path, (cgid, path) ∈ existing h.initial ((cachePart (startCache h)).inputs p)

section Runs

variable (h : CgroupHistory)

theorem Live.of_append {xs ys : List Input} (hlive : Live h (xs ++ ys)) : Live h xs := by
  rintro p x q rfl
  exact hlive p x (q ++ ys) (by simp)

/-- The run is one in which the cgroups have this history. -/
def During (xs : List Input) : Prop :=
  ∃ rest, h.actions = (cachePart (startCache h)).inputs xs ++ rest

theorem During.of_concat {xs : List Input} {x : Input} (hduring : During h (xs ++ [x])) :
    During h xs := by
  obtain ⟨rest, hactions⟩ := hduring
  rw [Trace.Component.inputs_concat, List.append_assoc] at hactions
  exact ⟨_, hactions⟩

theorem During.of_append {xs ys : List Input} (hduring : During h (xs ++ ys)) : During h xs := by
  induction ys using List.reverseRecOn with
  | nil => rwa [List.append_nil] at hduring
  | append_singleton ys y ih =>
      rw [← List.append_assoc] at hduring
      exact ih (hduring.of_concat h)

/-- What the loop finds for an event in a run. -/
theorem resolve_in_run {xs : List Input} {walk : List Visit} {e : Ebpf.Event}
    (hevent : ((pipeline (startCache h)).stateAfter xs).action? (.poll walk) =
      some (.event e.cgid walk)) (hduring : During h (xs ++ [.poll walk])) :
    let found := (((pipeline (startCache h)).stateAfter xs).loop.pc.resolve e.cgid walk).2
    let post := (found.bind extractContainerID).map fun cid => (cid, e.ts)
    (post = none ∨ post = h.charge e) ∧ (Live h (xs ++ [.poll walk]) → post = h.charge e) := by
  obtain ⟨rest, hactions⟩ := hduring
  rw [Trace.Component.inputs_concat] at hactions
  have hsplit : h.actions =
      (cachePart (startCache h)).inputs xs ++ .event e.cgid walk :: rest := by
    rw [hactions, List.append_assoc]
    show _ ++ ((((pipeline (startCache h)).stateAfter xs).action? (.poll walk)).toList ++ rest) = _
    rw [hevent]
    rfl
  have hpc : ((pipeline (startCache h)).stateAfter xs).loop.pc =
      h.resolver.stateAfter ((cachePart (startCache h)).inputs xs) :=
    (cachePart (startCache h)).stateAfter_inputs xs
  obtain ⟨hexisting, hunique⟩ := h.resolved_path hsplit
  have houtput : (((pipeline (startCache h)).stateAfter xs).loop.pc.resolve e.cgid walk).2 =
      h.resolver.outputAt ((cachePart (startCache h)).inputs xs) (.event e.cgid walk) := by
    rw [hpc]
    rfl
  dsimp only
  rw [houtput]
  constructor
  · cases hfound : h.resolver.outputAt ((cachePart (startCache h)).inputs xs)
        (.event e.cgid walk) with
    | none => exact Or.inl rfl
    | some path =>
        have hpath := h.pathOf_eq ((hunique path hfound path).mpr rfl)
        exact Or.inr (by rw [CgroupHistory.charge, hpath])
  · intro hlive
    obtain ⟨path, hpath⟩ := hlive xs (.poll walk) [] rfl e.cgid walk hevent
    have hfound := hexisting path hpath
    have htrue := h.pathOf_eq ((hunique path hfound path).mpr rfl)
    rw [hfound, CgroupHistory.charge, htrue]

/-- The ledger of a run. -/
def LedgerAfter (xs : List Input) (handled pending : List Ebpf.Event) : Prop :=
  Ledger h ((pipeline (startCache h)).stateAfter xs).ring.records
    (submittedEvents (startCache h) xs) ((sentPosts (startCache h) xs).map Post.charge)
    (Live h xs) handled pending

/-- The ledger is kept by a step. -/
theorem ledger_concat {xs : List Input} {x : Input} {handled pending : List Ebpf.Event}
    (hduring : During h (xs ++ [x])) (ht : LedgerAfter h xs handled pending) :
    ∃ handled' pending', LedgerAfter h (xs ++ [x]) handled' pending' := by
  have hposts : (sentPosts (startCache h) (xs ++ [x])).map Post.charge =
      (sentPosts (startCache h) xs).map Post.charge ++
        ((((pipeline (startCache h)).stateAfter xs).step x).2.post.map Post.charge).toList := by
    unfold sentPosts
    rw [Trace.Component.outputs_concat, List.map_append, Option.toList_map]
    rfl
  have hsubmitted : submittedEvents (startCache h) (xs ++ [x]) =
      submittedEvents (startCache h) xs ++
        (((pipeline (startCache h)).stateAfter xs).step x).2.submitted.toList :=
    Trace.Component.outputs_concat _ xs x
  have hstate : (pipeline (startCache h)).stateAfter (xs ++ [x]) =
      (((pipeline (startCache h)).stateAfter xs).step x).1 :=
    (pipeline (startCache h)).stateAfter_concat xs x
  have hlive : Live h (xs ++ [x]) → Live h xs := Live.of_append h
  unfold LedgerAfter at ht ⊢
  have ht' := ht.mono hlive
  rw [hposts, hsubmitted, hstate]
  have hcase := ((pipeline (startCache h)).stateAfter xs).step_cases x
  generalize ((pipeline (startCache h)).stateAfter xs).step x = result at hcase ⊢
  cases hcase with
  | @submits c padding seState e ring hhook hring =>
      rw [hring]
      refine ⟨handled, pending ++ [e], ?_⟩
      show Ledger h _ _ (_ ++ []) _ _ _
      rw [List.append_nil]
      exact ht'.submit ⟨padding, rfl⟩
  | silent => exact ⟨handled, pending, ht'.quiet rfl⟩
  | mkdir => exact ⟨handled, pending, ht'.quiet rfl⟩
  | rmdir => exact ⟨handled, pending, ht'.quiet rfl⟩
  | @reads walk rawSample ring hrunning hnext hrecords =>
      rw [hrecords] at ht
      show ∃ handled pending, Ledger h ring.records (_ ++ []) _ _ handled pending
      rw [List.append_nil]
      refine ht.read hlive fun e hsample => ?_
      obtain ⟨⟨ev, hdecode, hcgid⟩, hcharge⟩ := EventLoop.step_sample hrunning hsample walk
      have hevent : ((pipeline (startCache h)).stateAfter xs).action? (.poll walk) =
          some (.event e.cgid walk) := by
        simp only [Pipeline.action?, hnext, Option.bind_some, hdecode]
        rw [← hcgid]
        rfl
      have hrun := resolve_in_run h hevent hduring
      dsimp only at hrun
      rw [← hcharge] at hrun
      exact hrun
  | waits => exact ⟨handled, pending, ht'.quiet rfl⟩
  | fails =>
      have hnone := EventLoop.step_of_no_record ((pipeline (startCache h)).stateAfter xs).loop
        (t := { read := .failed, walk := [] }) fun _ => ReadResult.noConfusion
      exact ⟨handled, pending, ht'.quiet hnone.2⟩
  | closes =>
      have hnone := EventLoop.step_of_no_record ((pipeline (startCache h)).stateAfter xs).loop
        (t := { read := .closed, walk := [] }) fun _ => ReadResult.noConfusion
      exact ⟨handled, pending, ht'.quiet hnone.2⟩

theorem exists_ledger {xs : List Input} (hduring : During h xs) :
    ∃ handled pending, LedgerAfter h xs handled pending := by
  induction xs using List.reverseRecOn with
  | nil =>
      exact ⟨[], [],
        { submitted := rfl
          buffered := List.Forall₂.nil
          sublist := List.Sublist.slnil
          exact_of_live := fun _ => rfl }⟩
  | append_singleton xs x ih =>
      obtain ⟨handled, pending, ht⟩ := ih (hduring.of_concat h)
      exact ledger_concat h hduring ht

/-- The posts of a run are overruns that the hook has reported, in the same order, each for the
container of its cgroup; none is invented and none is sent twice. -/
theorem posts_sublist {xs : List Input} (hduring : During h xs) :
    ((sentPosts (startCache h) xs).map Post.charge).Sublist
      ((submittedEvents (startCache h) xs).filterMap h.charge) := by
  obtain ⟨handled, pending, ht⟩ := exists_ledger h hduring
  rw [ht.submitted, List.filterMap_append]
  exact ht.sublist.trans (List.sublist_append_left _ _)

/-! ## Runs with room -/

/-- How many records of the hook fit into the buffer. -/
def eventsCapacity : Nat := 299593

/-- There are not more entities than the map has entries, at every call the kernel could give
memory, and the loop is never so far behind that the buffer is full. -/
structure Roomy (xs : List Input) : Prop where
  entities : (((grantedCalls (startCache h) xs).filter Call.passes).map Call.dlSe).toFinset.card ≤
    seStateEntries
  memory : ∀ c padding, .hook c padding ∈ xs → c.reserve.isSome = true
  backlog : ∀ p q, xs = p ++ q →
    ((pipeline (startCache h)).stateAfter p).ring.records.length < eventsCapacity

theorem length_of_record {xs : List Input} (hduring : During h xs) :
    ∀ rawSample ∈ ((pipeline (startCache h)).stateAfter xs).ring.records,
      rawSample.length = eventSize := by
  obtain ⟨handled, pending, ht⟩ := exists_ledger h hduring
  have hlengths : ∀ rawSample e, IsSampleOf rawSample e →
      rawSample.length = eventSize ∧ IsSampleOf rawSample e := by
    rintro _ e ⟨padding, rfl⟩
    exact ⟨length_sample padding e, padding, rfl⟩
  exact ((List.forall₂_and_left _ _).mp (ht.buffered.imp hlengths)).1

/-- Every reservation succeeds. -/
theorem Roomy.callsServed {xs : List Input} (hroomy : Roomy h xs) (hduring : During h xs) :
    CallsServed (grantedCalls (startCache h) xs) where
  entities := hroomy.entities
  reserved := by
    intro granted hgranted _
    obtain ⟨p, x, q, hsplit, hcall⟩ := (hookPart (startCache h)).mem_inputs hgranted
    cases x with
    | hook c padding =>
        obtain rfl : ((pipeline (startCache h)).stateAfter p).granted c = granted :=
          Option.some.inj hcall
        have hmemory : c.reserve.isSome = true :=
          hroomy.memory c padding (by rw [hsplit]; simp)
        have hroom : ((pipeline (startCache h)).stateAfter p).ring.HasRoom eventSize := by
          have hbefore : During h p := by
            rw [hsplit] at hduring
            exact hduring.of_append h
          have hbacklog := hroomy.backlog p _ hsplit
          refine Bpf.RingBuffer.hasRoom_of_few _ (length_of_record h hbefore) ?_
          unfold eventsCapacity at hbacklog
          show _ * 56 < 16777216
          omega
        show (if _ then c.reserve else none).isSome = true
        rw [if_pos hroom]
        exact hmemory
    | _ => cases hcall

/-- The containers of the overruns that the reference detector reports. -/
def reportedIDs (calls : List Call) : List GoString :=
  (((referenceTrace calls).filterMap Prod.snd).filterMap h.charge).map Prod.fst

/-- While there is room, and every cgroup outlives its events, a loop that has caught up has
posted what the reference detector reports. -/
theorem postedIDs_eq {xs : List Input} (hduring : During h xs) (hroomy : Roomy h xs)
    (hlive : Live h xs)
    (hcaught : ((pipeline (startCache h)).stateAfter xs).ring.records = []) :
    postedIDs (startCache h) (loopTurns (startCache h) xs) =
      reportedIDs h (grantedCalls (startCache h) xs) := by
  obtain ⟨handled, pending, ht⟩ := exists_ledger h hduring
  have hpending : pending = [] := by
    have hbuffered := ht.buffered
    rw [hcaught] at hbuffered
    exact List.forall₂_nil_left_iff.mp hbuffered
  have hhandled : handled =
      (referenceTrace (grantedCalls (startCache h) xs)).filterMap Prod.snd := by
    rw [← (hroomy.callsServed h hduring).trace_eq, ← submittedEvents_eq, ht.submitted, hpending,
      List.append_nil]
  unfold reportedIDs
  rw [← hhandled, ← ht.exact_of_live hlive, sentPosts_eq, List.map_map]
  rfl

theorem loop_eq (xs : List Input) :
    ((pipeline (startCache h)).stateAfter xs).loop =
      (eventLoop (startCache h)).stateAfter (loopTurns (startCache h) xs) :=
  (loopPart (startCache h)).stateAfter_inputs xs

/-- Then the counter of every container is the number of its reported overruns. -/
theorem overrunCount_exact {xs : List Input} (hduring : During h xs) (hroomy : Roomy h xs)
    (hlive : Live h xs)
    (hcaught : ((pipeline (startCache h)).stateAfter xs).ring.records = []) (cid : GoString) :
    ((pipeline (startCache h)).stateAfter xs).loop.overrunCount.get cid =
      Int64.ofNat (Tally.occurs (reportedIDs h (grantedCalls (startCache h) xs)) cid) := by
  have hcounts := (invariant_stateAfter (startCache h) (loopTurns (startCache h) xs)).counts
  rw [loop_eq, hcounts.get, postedIDs_eq h hduring hroomy hlive hcaught]

end Runs

/-! ## A run -/

deriving instance DecidableEq for Visit
deriving instance DecidableEq for Action

def samplePath : GoString :=
  ("/c/cri-containerd-" : GoString) ++ List.replicate 64 'a' ++ (".scope" : GoString)

/-- What a walk sees when the container has been made. -/
def sampleWalk : List Visit := [⟨"/c", false, true, some 1⟩, ⟨samplePath, false, true, some 4242⟩]

/-- A container is made and overruns its budget, and the loop reads the event. -/
def sampleRun : List Input :=
  [.mkdir (4242, samplePath), .hook (Call.sample 0xffff888100400000 (-250000)) fun _ => 0,
    .poll sampleWalk]

def sampleCgroups : CgroupHistory where
  root := "/c"
  initial := [(1, "/c")]
  walk := [⟨"/c", false, true, some 1⟩]
  actions := [.mkdir (4242, samplePath), .event 4242 sampleWalk]
  walk_sound := by decide
  walks_see := by
    refine ⟨⟨?_, ?_⟩, trivial⟩
    all_goals decide
  ids_nodup := by decide

theorem during_sampleRun : During sampleCgroups sampleRun := ⟨[], by decide +kernel⟩

theorem roomy_sampleRun : Roomy sampleCgroups sampleRun where
  entities := by decide +kernel
  memory := by
    intro c padding hmem
    simp only [sampleRun, List.mem_cons, List.not_mem_nil, or_false, reduceCtorEq, false_or,
      Input.hook.injEq] at hmem
    rw [hmem.1]
    rfl
  backlog := by
    intro p q hsplit
    have hlength : p.length ≤ 3 := by
      have hall := congrArg List.length hsplit
      rw [List.length_append] at hall
      show p.length ≤ sampleRun.length
      omega
    exact lt_of_le_of_lt (length_records_le _ p) (lt_of_le_of_lt hlength (by decide))

theorem live_sampleRun : Live sampleCgroups sampleRun := by
  rintro p x q hsplit cgid walk haction
  unfold sampleRun at hsplit
  rcases p with _ | ⟨a, _ | ⟨b, _ | ⟨c, p⟩⟩⟩
  · simp only [List.nil_append, List.cons.injEq] at hsplit
    obtain ⟨rfl, -⟩ := hsplit
    cases haction
  · simp only [List.cons_append, List.nil_append, List.cons.injEq] at hsplit
    obtain ⟨rfl, rfl, -⟩ := hsplit
    cases haction
  · simp only [List.cons_append, List.nil_append, List.cons.injEq] at hsplit
    obtain ⟨rfl, rfl, rfl, -⟩ := hsplit
    have hevent : ((pipeline (startCache sampleCgroups)).stateAfter (sampleRun.take 2)).action?
        (.poll sampleWalk) = some (.event 4242 sampleWalk) := by decide +kernel
    obtain ⟨rfl, -⟩ := Action.event.inj (Option.some.inj (haction.symm.trans hevent))
    exact ⟨samplePath, by decide +kernel⟩
  · simp at hsplit

theorem overrunCount_exact_sample :
    ((pipeline (startCache sampleCgroups)).stateAfter sampleRun).loop.overrunCount.get
        (List.replicate 64 'a') = 1 := by
  have hexact := overrunCount_exact sampleCgroups during_sampleRun roomy_sampleRun live_sampleRun
    (by decide +kernel) (List.replicate 64 'a')
  rw [hexact]
  decide +kernel

end McKube.Ebpf.Monitor
