import McKube.NodeActuator.Outcome
import McKube.NodeActuator.Preflight

/-!
# What stands in front of the first write

A request to `/cgroup` passes the token check of the middleware, the checks of the
handler and the preflight checks of `applyCgroup` before a file is written.

* `CgroupRequest.run_of_rejected`: a request that the preflight checks reject.
* `cgroupEndpoint_gated`: nothing is written unless every check has passed, and otherwise the
  answer is an error and the files are as before.
-/

namespace McKube
namespace NodeActuator

open AtomicProgram GoLib
open GoLib.filepath (join components rootPath Plain)

/-! ## The middleware -/

def sharedTokenFile : GoString := "/etc/mckube/token"

/-- `getSharedToken`; `envToken` is the value of `MCKUBE_SHARED_TOKEN`. -/
def getSharedToken (envToken : GoString) : Program FileOp FileOp.Answer GoString :=
  if envToken ≠ [] then
    .ret envToken
  else
    .act (.readFile sharedTokenFile) fun answer =>
      match answer with
      | .ok tokenBytes => .ret (trimSpace tokenBytes)
      | .error _ => .ret []

/-- A request with its `Authorization` header, which is empty if it is missing. -/
structure AuthorizedRequest extends HttpRequest where
  authorization : GoString

/-- `authMiddleware` without its log line. -/
def authMiddleware (envToken : GoString)
    (next : HttpRequest → Program FileOp FileOp.Answer HttpResponse) (r : AuthorizedRequest) :
    Program FileOp FileOp.Answer HttpResponse :=
  getSharedToken envToken >>= fun token =>
    if token ≠ [] then
      if r.authorization ≠ ("Bearer " : GoString) ++ token then
        .ret ⟨401, "Unauthorized", none⟩
      else
        next r.toHttpRequest
    else
      next r.toHttpRequest

/-- The endpoint `/cgroup`. -/
def cgroupEndpoint (envToken : GoString) (host : Host)
    (unmarshal : GoString → Option CgroupRequest) (r : AuthorizedRequest) :
    Program FileOp FileOp.Answer HttpResponse :=
  authMiddleware envToken (handleCgroup host unmarshal) r

/-- The token that is configured, empty if there is none. -/
def sharedToken (envToken : GoString) (files : Files) : GoString :=
  if envToken ≠ [] then envToken else ((files sharedTokenFile).map trimSpace).getD []

theorem run_getSharedToken (k : Kernel) (envToken : GoString) (files : Files) :
    Program.run k.exec (getSharedToken envToken) files = (sharedToken envToken files, files) := by
  unfold getSharedToken sharedToken
  split
  · rfl
  · rw [Program.run_act, k.exec_readFile_state]
    cases hfile : files sharedTokenFile <;> simp only [Kernel.exec, hfile] <;> rfl

theorem performs_getSharedToken (envToken : GoString) :
    (getSharedToken envToken).Performs fun op => ¬ op.IsWrite := by
  unfold getSharedToken
  split
  · exact trivial
  · exact ⟨not_false, fun answer => by cases answer <;> exact trivial⟩

/-! ## Requests that the preflight checks reject -/

namespace CgroupRequest

/-- The writes of a run of the request, in order. -/
def writes (k : Kernel) (host : Host) (req : CgroupRequest) (files : Files) : List FileOp :=
  Program.actions k.exec FileOp.IsWrite (req.apply host).run files

/-- The preflight checks reject the request. -/
def Rejected (host : Host) (req : CgroupRequest) (files : Files) : Prop :=
  ¬ ∃ current, Preflight host files req.containerID req.period req.core current

variable {k : Kernel} {host : Host} {req : CgroupRequest} {files : Files}

theorem actions_preflight (k : Kernel) (host : Host) (req : CgroupRequest) (files : Files) :
    Program.actions k.exec FileOp.IsWrite
      (preflight host req.containerID req.period req.core).run files = [] :=
  (performs_preflight_reads host req.containerID req.period req.core).actions_eq_nil _ files

/-- A request that passes the checks writes what `updateCgroups` writes. -/
theorem writes_of_preflight {current : Current}
    (h : Preflight host files req.containerID req.period req.core current) :
    req.writes k host files = Program.actions k.exec FileOp.IsWrite
      (updateCgroups current req.period req.runtime req.core req.onlyRuntime).run files := by
  unfold writes apply applyCgroup
  rw [Fallible.actions_bind_of_ok (run_preflight h), actions_preflight, List.nil_append]

theorem run_preflight_of_rejected (h : req.Rejected host files) :
    ∃ e, Program.run k.exec (preflight host req.containerID req.period req.core).run files =
      (.error e, files) := by
  have hstate : (Program.run k.exec
      (preflight host req.containerID req.period req.core).run files).2 = files :=
    (performs_preflight_reads host req.containerID req.period req.core).run_invariant
      (I := fun s => s = files)
      (fun op hop s hs => (k.exec_state_of_not_write hop s).trans hs) rfl
  rcases hrun : Program.run k.exec
      (preflight host req.containerID req.period req.core).run files with ⟨e | current, s⟩
  · rw [hrun] at hstate
    exact ⟨e, by rw [← hstate]⟩
  · exact absurd ⟨current, (reads_preflight current s hrun).2⟩ h

/-- A rejected request returns an error and leaves the files alone. -/
theorem run_of_rejected (h : req.Rejected host files) :
    ∃ e, Program.run k.exec (req.apply host).run files = (.error e, files) := by
  obtain ⟨e, hrun⟩ := run_preflight_of_rejected (k := k) h
  exact ⟨e, Fallible.run_bind_of_error hrun⟩

theorem writes_of_rejected (h : req.Rejected host files) : req.writes k host files = [] := by
  obtain ⟨e, hrun⟩ := run_preflight_of_rejected (k := k) h
  unfold writes apply applyCgroup
  rw [Fallible.actions_bind_of_error hrun, actions_preflight]

end CgroupRequest

/-! ## All the checks -/

/-- The checks of `applyCgroup` on the files of the node. -/
structure CgroupChecks (host : Host) (files : Files) (req : CgroupRequest) : Prop where
  controllers : ∃ rootControllers, files cgroupControllersFile = some rootControllers ∧
    ("cpu" : GoString) ∈ fields rootControllers
  systemPeriod : ∃ globalRTPeriod, intAt files procSchedRTPeriod = some globalRTPeriod ∧
    0 < globalRTPeriod
  systemRuntime : ∃ globalRTRuntime, intAt files procSchedRTRuntime = some globalRTRuntime ∧
    0 ≤ globalRTRuntime
  rootPeriod : ∃ rootPeriod,
    intAt files (join [cgroupKubepodsSlice, cgroupRTPeriod]) = some rootPeriod ∧
    (rootPeriod = 0 ∨ req.period ≤ rootPeriod)
  pod : ∃ containerCgPath podCgPath, Resolves host req.containerID containerCgPath podCgPath ∧
    (intAt files (join [podCgPath, cgroupRTPeriod])).isSome = true ∧
    (intAt files (join [podCgPath, cgroupRTRuntime])).isSome = true

/-- Every check in front of the first write of a request to `/cgroup`. -/
structure Checked (envToken : GoString) (host : Host)
    (unmarshal : GoString → Option CgroupRequest) (files : Files) (r : AuthorizedRequest) :
    Prop where
  authorized : sharedToken envToken files = [] ∨
    r.authorization = ("Bearer " : GoString) ++ sharedToken envToken files
  post : r.method = ("POST" : GoString)
  request : ∃ body req, r.body = .ok body ∧ unmarshal body = some req ∧
    req.containerID ≠ [] ∧ 0 < req.period ∧ req.runtime ≤ req.period ∧
    CgroupChecks host files req

theorem exists_preflight_iff {host : Host} {files : Files} {req : CgroupRequest}
    (hperiod : 0 < req.period) :
    (∃ current, Preflight host files req.containerID req.period req.core current) ↔
      CgroupChecks host files req := by
  constructor
  · rintro ⟨current, h⟩
    obtain ⟨rootControllers, hcontrollers, hcpu⟩ := h.controllers
    exact
      { controllers := ⟨rootControllers, hcontrollers, List.contains_iff_mem.mp hcpu⟩
        systemPeriod := h.systemPeriod
        systemRuntime := h.systemRuntime
        rootPeriod := h.rootPeriod
        pod := ⟨current.containerCgPath, current.podCgPath, h.resolves,
          by rw [h.podPeriod, Option.isSome_some], by rw [h.podRuntime, Option.isSome_some]⟩ }
  · intro h
    obtain ⟨rootControllers, hcontrollers, hcpu⟩ := h.controllers
    obtain ⟨containerCgPath, podCgPath, hresolves, hpodPeriod, hpodRuntime⟩ := h.pod
    obtain ⟨podPeriod, hpodPeriod⟩ := Option.isSome_iff_exists.mp hpodPeriod
    obtain ⟨podRuntime, hpodRuntime⟩ := Option.isSome_iff_exists.mp hpodRuntime
    refine ⟨⟨containerCgPath, podCgPath, podPeriod, podRuntime,
      multiRuntimeAt files podCgPath req.core⟩, ?_⟩
    exact
      { resolves := hresolves
        controllers := ⟨rootControllers, hcontrollers, List.contains_iff_mem.mpr hcpu⟩
        period_pos := hperiod
        systemPeriod := h.systemPeriod
        systemRuntime := h.systemRuntime
        rootPeriod := h.rootPeriod
        podPeriod := hpodPeriod
        podRuntime := hpodRuntime
        podMultiRuntime := rfl }

/-! ## The handler and the endpoint -/

section Endpoint

variable {k : Kernel} {host : Host} {unmarshal : GoString → Option CgroupRequest}
  {envToken : GoString} {files : Files}

/-- A program that answers with an error and leaves the files alone. -/
def Refuses (k : Kernel) (files : Files) (call : Program FileOp FileOp.Answer HttpResponse) :
    Prop :=
  (call.run k.exec files).1.status ∈ [401, 405, 400, 500] ∧ (call.run k.exec files).2 = files ∧
    call.actions k.exec FileOp.IsWrite files = []

theorem refuses_ret {response : HttpResponse} (h : response.status ∈ [401, 405, 400, 500]) :
    Refuses k files (.ret response) := ⟨h, rfl, rfl⟩

/-- The handler goes on to `applyCgroup` with a request that passes its checks, and
refuses every other one. -/
theorem refuses_handleCgroup {r : HttpRequest}
    (h : ¬ (r.method = ("POST" : GoString) ∧ ∃ body req, r.body = .ok body ∧
      unmarshal body = some req ∧ req.containerID ≠ [] ∧ 0 < req.period ∧
      req.runtime ≤ req.period ∧ CgroupChecks host files req)) :
    Refuses k files (handleCgroup host unmarshal r) := by
  unfold handleCgroup
  split
  · exact refuses_ret (by simp)
  · next hpost =>
      rw [not_not] at hpost
      cases hbody : r.body with
      | error e => exact refuses_ret (by simp)
      | ok body =>
          dsimp only
          cases hreq : unmarshal body with
          | none => exact refuses_ret (by simp)
          | some req =>
              dsimp only
              cases hrejection : req.rejection with
              | some message => exact refuses_ret (by simp)
              | none =>
                  obtain ⟨hid, hperiod, hruntime⟩ := req.accepted_iff.mp hrejection
                  have hrejected : req.Rejected host files := by
                    rw [CgroupRequest.Rejected, exists_preflight_iff hperiod]
                    exact fun hchecks =>
                      h ⟨hpost, body, req, hbody, hreq, hid, hperiod, hruntime, hchecks⟩
                  obtain ⟨e, hrun⟩ := CgroupRequest.run_of_rejected (k := k) hrejected
                  have hwrites := CgroupRequest.writes_of_rejected (k := k) hrejected
                  unfold CgroupRequest.writes at hwrites
                  unfold Refuses
                  rw [Program.run_bind, Program.actions_bind, hrun, hwrites]
                  exact ⟨by simp, rfl, rfl⟩

theorem refuses_cgroupEndpoint {r : AuthorizedRequest}
    (h : ¬ Checked envToken host unmarshal files r) :
    Refuses k files (cgroupEndpoint envToken host unmarshal r) := by
  have hnext : Refuses k files (if sharedToken envToken files ≠ [] then
      if r.authorization ≠ ("Bearer " : GoString) ++ sharedToken envToken files then
        .ret ⟨401, "Unauthorized", none⟩
      else handleCgroup host unmarshal r.toHttpRequest
    else handleCgroup host unmarshal r.toHttpRequest) := by
    split
    · split
      · exact refuses_ret (by simp)
      · next hbearer =>
          exact refuses_handleCgroup fun hpassed =>
            h ⟨Or.inr (not_not.mp hbearer), hpassed.1, hpassed.2⟩
    · next hnone =>
        exact refuses_handleCgroup fun hpassed =>
          h ⟨Or.inl (not_not.mp hnone), hpassed.1, hpassed.2⟩
  unfold Refuses cgroupEndpoint authMiddleware
  rw [Program.run_bind, Program.actions_bind, run_getSharedToken,
    (performs_getSharedToken envToken).actions_eq_nil, List.nil_append]
  exact hnext

/-- If a request to `/cgroup` writes a file, every check has passed; and if a check
fails, the answer is an error and every file is as before. -/
theorem cgroupEndpoint_gated (k : Kernel) (envToken : GoString) (host : Host)
    (unmarshal : GoString → Option CgroupRequest) (files : Files) (r : AuthorizedRequest) :
    ((∃ event ∈ (cgroupEndpoint envToken host unmarshal r).trace k.exec files, event.op.IsWrite) →
        Checked envToken host unmarshal files r) ∧
      (¬ Checked envToken host unmarshal files r →
        ((cgroupEndpoint envToken host unmarshal r).run k.exec files).1.status ∈
            [401, 405, 400, 500] ∧
          ((cgroupEndpoint envToken host unmarshal r).run k.exec files).2 = files) := by
  constructor
  · rintro ⟨event, hevent, hwrite⟩
    by_contra hunchecked
    have hmem : event.op ∈ (cgroupEndpoint envToken host unmarshal r).actions k.exec
        FileOp.IsWrite files :=
      (Program.mem_actions _ _).mpr ⟨hwrite, event, hevent, rfl⟩
    rw [(refuses_cgroupEndpoint hunchecked).2.2] at hmem
    cases hmem
  · intro hunchecked
    obtain ⟨hstatus, hfiles, -⟩ := refuses_cgroupEndpoint (k := k) hunchecked
    exact ⟨hstatus, hfiles⟩

end Endpoint

end NodeActuator
end McKube
