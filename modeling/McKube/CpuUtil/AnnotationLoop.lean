import McKube.GoLib.Strconv
import McKube.Trace.Machine
import Mathlib.Tactic.Convert

/-!
# The annotation loop

`main` of the agent reads the CPU usage on every tick and publishes it on the
node object while the node is busy, and until it has been calm for five seconds.
A `Tick` is what one round of the loop gets from outside: the sample, the clock
and the outcome of the request.  `published` is what the node object carries.

* `tick_cases`: the ways in which a tick can go; `moment_cases` is the same at a
  moment of a run.
* `request_of_tick`: what a request carries.
-/

namespace McKube.CpuUtil

open GoLib

/-! ## Requests -/

def annUsageKey : GoString := "mckube.sdv.com/cpu-usage"
def annDurKey : GoString := "mckube.sdv.com/cpu-over90-duration-s"
def annCpuBusyKey : GoString := "mckube.sdv.com/isCpuBusy"

def apiServerPort : GoString := "8888"

/-- `NodeAnnotationRequest`, with the URL to which it is sent. -/
structure NodeAnnotationRequest where
  url : GoString
  annotations : List (GoString × GoString)
  deriving DecidableEq

/-- The request of `annotateViaHTTP`. -/
def annotateViaHTTP (node : GoString) (usage : Int) (over90time : Int64) (isCpuBusy : GoString) :
    NodeAnnotationRequest where
  url := ("http://localhost:" : GoString) ++ apiServerPort ++ ("/api/v1/nodes/" : GoString) ++
    node ++ ("/annotations" : GoString)
  annotations :=
    [(annUsageKey, itoa usage), (annDurKey, itoa over90time.toInt), (annCpuBusyKey, isCpuBusy)]

/-- The flag `isCpuBusy` that a request carries. -/
def NodeAnnotationRequest.isCpuBusy (request : NodeAnnotationRequest) : Option GoString :=
  request.annotations.lookup annCpuBusyKey

/-- The usage that a request carries. -/
def NodeAnnotationRequest.cpuUsage (request : NodeAnnotationRequest) : Option GoString :=
  request.annotations.lookup annUsageKey

/-- The duration above 90 % that a request carries. -/
def NodeAnnotationRequest.over90Duration (request : NodeAnnotationRequest) : Option GoString :=
  request.annotations.lookup annDurKey

section Request

variable (node : GoString) (usage : Int) (over90time : Int64) (isCpuBusy : GoString)

@[simp] theorem isCpuBusy_annotateViaHTTP :
    (annotateViaHTTP node usage over90time isCpuBusy).isCpuBusy = some isCpuBusy := rfl

@[simp] theorem cpuUsage_annotateViaHTTP :
    (annotateViaHTTP node usage over90time isCpuBusy).cpuUsage = some (itoa usage) := rfl

@[simp] theorem over90Duration_annotateViaHTTP :
    (annotateViaHTTP node usage over90time isCpuBusy).over90Duration =
      some (itoa over90time.toInt) := rfl

end Request

/-! ## Time -/

/-- `time.Second`, in nanoseconds. -/
def second : Int := 1000000000

/-- `Time.Sub`: the difference of two readings of the clock, in nanoseconds, cut
to the range of `time.Duration`. -/
def timeSub (t u : Int) : Int :=
  max (-9223372036854775808) (min 9223372036854775807 (t - u))

/-- Inside the range, a difference that is cut is compared like the exact one. -/
theorem le_timeSub_iff {d t u : Int} (hlow : -9223372036854775808 < d)
    (hhigh : d ≤ 9223372036854775807) : d ≤ timeSub t u ↔ d ≤ t - u := by
  unfold timeSub
  omega

/-! ## The loop -/

/-- The variables of the loop, and what the node object carries.  Times are in
nanoseconds since the zero `time.Time`. -/
structure LoopState where
  over90time : Int64
  lastAnnUsage : Int
  lastAnnTime : Int
  droppedBelowTime : Int
  waitingForBusyFalse : Bool
  published : Option NodeAnnotationRequest
  deriving DecidableEq

/-- One tick: the usage computed from `/proc/stat`, if it could be read; the
clock when `time.Since` is asked, and when `lastAnnTime` and `droppedBelowTime`
are set; whether `annotateViaHTTP` succeeds if it is called. -/
structure Tick where
  usage : Option Int
  now : Int
  annTime : Int
  dropTime : Int
  delivered : Bool
  deriving DecidableEq

/-- One round of the loop in `main`: the new state, and the request sent. -/
def tick (node : GoString) (s : LoopState) (t : Tick) :
    LoopState × Option NodeAnnotationRequest :=
  match t.usage with
  | none => (s, none)
  | some u =>
      let s := { s with over90time := if u > 90 then s.over90time + 1 else 0 }
      if u > 90 then
        let s := { s with waitingForBusyFalse := false }
        if u ≠ s.lastAnnUsage ∨ timeSub t.now s.lastAnnTime > 5 * second then
          let request := annotateViaHTTP node u s.over90time "true"
          if t.delivered then
            ({ s with
              published := some request
              lastAnnUsage := u
              lastAnnTime := t.annTime }, some request)
          else (s, some request)
        else (s, none)
      else if s.lastAnnUsage > 90 then
        let request := annotateViaHTTP node u s.over90time "true"
        if t.delivered then
          ({ s with
            published := some request
            lastAnnUsage := u
            lastAnnTime := t.annTime
            droppedBelowTime := t.dropTime
            waitingForBusyFalse := true }, some request)
        else (s, some request)
      else if s.waitingForBusyFalse = true ∧ timeSub t.now s.droppedBelowTime ≥ 5 * second then
        let request := annotateViaHTTP node u s.over90time "false"
        if t.delivered then
          ({ s with
            published := some request
            lastAnnUsage := u
            lastAnnTime := t.annTime
            waitingForBusyFalse := false }, some request)
        else (s, some request)
      else (s, none)

/-- The variables when the loop starts, on a node that carries `published`. -/
def LoopState.initial (published : Option NodeAnnotationRequest) : LoopState where
  over90time := 0
  lastAnnUsage := -1
  lastAnnTime := 0
  droppedBelowTime := 0
  waitingForBusyFalse := false
  published := published

/-- The loop on a node that carries `found` when it starts. -/
def annotationLoopFrom (node : GoString) (found : Option NodeAnnotationRequest) :
    Trace.Machine LoopState Tick (Option NodeAnnotationRequest) where
  init := .initial found
  step := tick node

/-- The loop on a node without annotations. -/
def annotationLoop (node : GoString) :
    Trace.Machine LoopState Tick (Option NodeAnnotationRequest) where
  init := .initial none
  step := tick node

/-- After the ticks `p`, the tick `t` sends the request. -/
def Sends (node : GoString) (p : List Tick) (t : Tick) (request : NodeAnnotationRequest) : Prop :=
  (annotationLoop node).outputAt p t = some request

/-- After the ticks `p`, the tick `t` sends the request with success. -/
def Publishes (node : GoString) (p : List Tick) (t : Tick) (request : NodeAnnotationRequest) :
    Prop := Sends node p t request ∧ t.delivered = true

/-! ## What a tick does -/

/-- The state `s` after a request whose success sets the variables as in `sent`;
a failed request leaves the node as it was, and sets nothing. -/
def Tick.outcome (t : Tick) (s sent : LoopState) : LoopState := if t.delivered then sent else s

/-- The ways in which a tick can go, with the new state and the request sent. -/
inductive TickCase (node : GoString) (s : LoopState) (t : Tick) :
    LoopState × Option NodeAnnotationRequest → Prop
  | readError (hread : t.usage = none) : TickCase node s t (s, none)
  | steady {u : Int} (hread : t.usage = some u) (hhigh : 90 < u) (hsame : u = s.lastAnnUsage)
      (hfresh : timeSub t.now s.lastAnnTime ≤ 5 * second) :
      TickCase node s t
        ({ s with over90time := s.over90time + 1, waitingForBusyFalse := false }, none)
  | rise {u : Int} (hread : t.usage = some u) (hhigh : 90 < u)
      (hnews : u ≠ s.lastAnnUsage ∨ 5 * second < timeSub t.now s.lastAnnTime)
      {request : NodeAnnotationRequest}
      (hrequest : request = annotateViaHTTP node u (s.over90time + 1) "true") :
      TickCase node s t
        (t.outcome { s with over90time := s.over90time + 1, waitingForBusyFalse := false }
          { s with
            over90time := s.over90time + 1
            waitingForBusyFalse := false
            published := some request
            lastAnnUsage := u
            lastAnnTime := t.annTime }, some request)
  | drop {u : Int} (hread : t.usage = some u) (hlow : u ≤ 90) (hlast : 90 < s.lastAnnUsage)
      {request : NodeAnnotationRequest} (hrequest : request = annotateViaHTTP node u 0 "true") :
      TickCase node s t
        (t.outcome { s with over90time := 0 }
          { s with
            over90time := 0
            published := some request
            lastAnnUsage := u
            lastAnnTime := t.annTime
            droppedBelowTime := t.dropTime
            waitingForBusyFalse := true }, some request)
  | reset {u : Int} (hread : t.usage = some u) (hlow : u ≤ 90) (hlast : s.lastAnnUsage ≤ 90)
      (hwaiting : s.waitingForBusyFalse = true)
      (hcalm : 5 * second ≤ timeSub t.now s.droppedBelowTime)
      {request : NodeAnnotationRequest} (hrequest : request = annotateViaHTTP node u 0 "false") :
      TickCase node s t
        (t.outcome { s with over90time := 0 }
          { s with
            over90time := 0
            published := some request
            lastAnnUsage := u
            lastAnnTime := t.annTime
            waitingForBusyFalse := false }, some request)
  | calm {u : Int} (hread : t.usage = some u) (hlow : u ≤ 90) (hlast : s.lastAnnUsage ≤ 90)
      (hwaiting : ¬ (s.waitingForBusyFalse = true ∧
        5 * second ≤ timeSub t.now s.droppedBelowTime)) :
      TickCase node s t ({ s with over90time := 0 }, none)

theorem tick_cases (node : GoString) (s : LoopState) (t : Tick) :
    TickCase node s t (tick node s t) := by
  cases hread : t.usage with
  | none =>
      have htick : tick node s t = (s, none) := by simp [tick, hread]
      rw [htick]
      exact .readError hread
  | some u =>
      by_cases hhigh : 90 < u
      · by_cases hnews : u ≠ s.lastAnnUsage ∨ 5 * second < timeSub t.now s.lastAnnTime
        · convert TickCase.rise hread hhigh hnews rfl using 1
          cases hdelivered : t.delivered <;>
            simp [tick, Tick.outcome, hread, hhigh, hnews, hdelivered]
        · have hsame : u = s.lastAnnUsage := by
            by_contra hne
            exact hnews (Or.inl hne)
          have hfresh : timeSub t.now s.lastAnnTime ≤ 5 * second :=
            Int.not_lt.mp fun hlt => hnews (Or.inr hlt)
          convert TickCase.steady hread hhigh hsame hfresh using 1
          simp [tick, hread, hhigh, hnews]
      · have hlow : u ≤ 90 := Int.not_lt.mp hhigh
        by_cases hlast : 90 < s.lastAnnUsage
        · convert TickCase.drop hread hlow hlast rfl using 1
          cases hdelivered : t.delivered <;>
            simp [tick, Tick.outcome, hread, hhigh, hlast, hdelivered]
        · have hlast' : s.lastAnnUsage ≤ 90 := Int.not_lt.mp hlast
          by_cases hcalm : s.waitingForBusyFalse = true ∧
              5 * second ≤ timeSub t.now s.droppedBelowTime
          · convert TickCase.reset hread hlow hlast' hcalm.1 hcalm.2 rfl using 1
            cases hdelivered : t.delivered <;>
              simp [tick, Tick.outcome, hread, hhigh, hlast, hcalm, hdelivered]
          · convert TickCase.calm hread hlow hlast' hcalm using 1
            simp [tick, hread, hhigh, hlast, hcalm]

theorem moment_cases (node : GoString) (p : List Tick) (t : Tick) :
    TickCase node ((annotationLoop node).stateAfter p) t
      ((annotationLoop node).stateAfter (p ++ [t]), (annotationLoop node).outputAt p t) := by
  rw [← Trace.Machine.step_stateAfter]
  exact tick_cases node _ t

/-- A request carries the sample, and the counter as it is after the tick. -/
theorem request_of_tick {node : GoString} {s : LoopState} {t : Tick}
    {request : NodeAnnotationRequest} (hrequest : (tick node s t).2 = some request) :
    ∃ u flag, t.usage = some u ∧
      request = annotateViaHTTP node u (tick node s t).1.over90time flag := by
  have hcase := tick_cases node s t
  generalize tick node s t = result at hcase hrequest
  cases hcase with
  | readError => cases hrequest
  | steady => cases hrequest
  | rise hread _ _ hsent =>
      cases hrequest
      exact ⟨_, _, hread, by rw [hsent, Tick.outcome]; split <;> rfl⟩
  | drop hread _ _ hsent =>
      cases hrequest
      exact ⟨_, _, hread, by rw [hsent, Tick.outcome]; split <;> rfl⟩
  | reset hread _ _ _ _ hsent =>
      cases hrequest
      exact ⟨_, _, hread, by rw [hsent, Tick.outcome]; split <;> rfl⟩
  | calm => cases hrequest

end McKube.CpuUtil
