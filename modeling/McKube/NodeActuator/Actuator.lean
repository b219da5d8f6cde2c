import McKube.NodeActuator.CgroupFs

/-!
# The node actuator

The functions of `node-actuator/main.go` behind the endpoint `/cgroup`, as
programs of file actions: `applyCgroup` with everything that it calls, and
the handler `handleCgroup` in front of it.  A Go function that returns an
`error` is a program of `CgroupM`.

Outside the model are `crictl` and `jq` (the results of the two commands are
a parameter, `Host`), the JSON decoder, and the log lines.
-/

namespace McKube
namespace NodeActuator

open AtomicProgram GoLib
open GoLib.filepath (join components rootPath Plain)

/-- Programs of file actions that may return an error. -/
abbrev CgroupM := Fallible FileOp FileOp.Answer GoError

/-! ## Errors and file actions -/

/-- `fmt.Errorf("message: %w", err)` around the error of a call. -/
def wrapError {α : Type} (message : GoString) (call : CgroupM α) : CgroupM α :=
  ExceptT.mk (call.run >>= fun result =>
    match result with
    | .ok value => .ret (.ok value)
    | .error e => .ret (.error (.wrap message e)))

/-- Call a function and go on with its error as a value. -/
def attempt {α : Type} (call : CgroupM α) : CgroupM (Except GoError α) :=
  ExceptT.mk (call.run >>= fun result => .ret (.ok result))

def stat (path : GoString) : CgroupM Unit := ExceptT.mk (Program.perform (FileOp.stat path))

def readFile (path : GoString) : CgroupM GoString :=
  ExceptT.mk (Program.perform (FileOp.readFile path))

/-- `writeCgroupFile` writes to a cgroup file without truncating. -/
def writeCgroupFile (path value : GoString) : CgroupM Unit :=
  ExceptT.mk (.act (.writeFile path value) fun answer =>
    match answer with
    | .ok () => .ret (.ok ())
    | .error (.opening e) => .ret (.error (.wrap (("failed to open " : GoString) ++ path) e))
    | .error (.writing e) => .ret (.error (.wrap (("failed to write " : GoString) ++ path) e)))

def liftExcept {α : Type} : Except GoError α → CgroupM α
  | .ok value => pure value
  | .error e => throw e

/-- Return the error `e` if `failed` holds. -/
def failWhen (failed : Prop) [Decidable failed] (e : GoError) : CgroupM Unit :=
  if failed then throw e else pure ()

/-! ## Helpers -/

def readIntFromFile (path : GoString) : CgroupM Int := do
  let b ← readFile path
  match sscanfInt (trimSpace b) with
  | some v => pure v
  | none => throw (.wrap (("parse int from " : GoString) ++ path) (.scan (trimSpace b)))

def tokenContains (s want : GoString) : Bool := (fields s).contains want

/-- `isDecrease` returns true if `newVal` is strictly less than `oldVal`. -/
def isDecrease (oldVal newVal : Int) : Bool := decide (newVal < oldVal)

/-- `isRuntimeDecrease` handles the special semantics where negative means
unlimited (loosest). -/
def isRuntimeDecrease (oldRuntime newRuntime : Int) : Bool :=
  if newRuntime < 0 then
    false
  else if oldRuntime < 0 ∧ newRuntime ≥ 0 then
    true
  else
    decide (newRuntime < oldRuntime)

/-- `writeRuntimeFile` writes the runtime value to the appropriate cgroup
file, for one core list or for the whole cgroup. -/
def writeRuntimeFile (cgPath : GoString) (runtime : Int) (core : Option GoString) :
    CgroupM Unit :=
  match core with
  | some core =>
      writeCgroupFile (join [cgPath, cgroupRTMultiRuntime]) (core ++ ' ' :: itoa runtime)
  | none => writeCgroupFile (join [cgPath, cgroupRTRuntime]) (itoa runtime)

/-- The runtime of the core `coreRange` in the text of
`cpu.rt_multi_runtime_us`; `0` whenever there is no such number. -/
def multiRuntimeOf (data coreRange : GoString) : Int :=
  let words := fields (trimSpace data)
  match atoi coreRange with
  | none => 0
  | some coreIdx =>
      if coreIdx < 0 ∨ coreIdx ≥ words.length then
        0
      else
        match words[coreIdx.toNat]?.bind atoi with
        | some rt => rt
        | none => 0

/-- `getCurrentMultiRuntime` reads the current multi-runtime value for a
specific core. -/
def getCurrentMultiRuntime (cgPath coreRange : GoString) : CgroupM Int := do
  match ← attempt (readFile (join [cgPath, cgroupRTMultiRuntime])) with
  | .error _ => pure 0
  | .ok data => pure (multiRuntimeOf data coreRange)

/-- The multi-runtime of the pod, read by `applyCgroup` only if a core is
specified. -/
def readMultiRuntime (cgPath : GoString) (core : Option GoString) : CgroupM Int :=
  match core with
  | some core => getCurrentMultiRuntime cgPath core
  | none => pure 0

/-- `readRtValues` reads the current period and runtime of a cgroup. -/
def readRtValues (cgPath : GoString) : CgroupM (Int × Int) := do
  let periodPath := join [cgPath, cgroupRTPeriod]
  let runtimePath := join [cgPath, cgroupRTRuntime]
  let curPeriod ← wrapError (("read " : GoString) ++ periodPath) (readIntFromFile periodPath)
  let curRuntime ← wrapError (("read " : GoString) ++ runtimePath) (readIntFromFile runtimePath)
  pure (curPeriod, curRuntime)

/-! ## Writing one cgroup -/

/-- The part of `writeRtValues` that sets the period: a period that already
matches is not written. -/
def updatePeriod (cgPath : GoString) (period : Int) : CgroupM Unit := do
  let cpuRTPeriodPath := join [cgPath, cgroupRTPeriod]
  match ← attempt (readIntFromFile cpuRTPeriodPath) with
  | .ok currentPeriod =>
      if currentPeriod = period then
        pure ()
      else
        writeCgroupFile cpuRTPeriodPath (itoa period)
  | .error _ => writeCgroupFile cpuRTPeriodPath (itoa period)

/-- The part of `writeRtValues` that applies the CPU set if a core is
specified: a CPU set that already matches is not written. -/
def updateCpuSet (cgPath : GoString) (core : Option GoString) : CgroupM Unit :=
  match core with
  | none => pure ()
  | some core => do
      let cpuSetPath := join [cgPath, cgroupCPUSet]
      let currentCpuSet ← wrapError "failed to read current cpuset" (readFile cpuSetPath)
      if trimSpace currentCpuSet = core then
        pure ()
      else
        writeCgroupFile cpuSetPath core

/-- The runtime that the normal mode writes: negative runtimes become zero. -/
def clampRuntime (runtime : Int) : Int := if runtime < 0 then 0 else runtime

theorem clampRuntime_eq_max (runtime : Int) : clampRuntime runtime = max runtime 0 := by
  unfold clampRuntime
  split <;> omega

/-- `writeRtValues` sets the values of one cgroup; when decreasing, the
runtime first and then the period. -/
def writeRtValues (cgPath : GoString) (period runtime : Int) (core : Option GoString)
    (periodDecreasing runtimeDecreasing multiRuntimeDecreasing : Bool) : CgroupM Unit := do
  if periodDecreasing || runtimeDecreasing || multiRuntimeDecreasing then
    writeRuntimeFile cgPath (clampRuntime runtime) core
    updatePeriod cgPath period
    updateCpuSet cgPath core
  else
    updatePeriod cgPath period
    writeRuntimeFile cgPath (clampRuntime runtime) core
    updateCpuSet cgPath core

/-- `writeRuntimeOnly` updates only the runtime without touching the period. -/
def writeRuntimeOnly (cgPath : GoString) (runtime : Int) (core : Option GoString) :
    CgroupM Unit :=
  writeRuntimeFile cgPath runtime core

/-- `applyRuntimeWithOrder` applies runtime-only updates in the order given
by `decreasing`. -/
def applyRuntimeWithOrder (containerPath podPath : GoString) (runtime : Int)
    (core : Option GoString) (decreasing : Bool) : CgroupM Unit := do
  if decreasing then
    wrapError "failed to update container runtime" (writeRuntimeOnly containerPath runtime core)
    wrapError "failed to update pod runtime" (writeRuntimeOnly podPath runtime core)
  else
    wrapError "failed to update pod runtime" (writeRuntimeOnly podPath runtime core)
    wrapError "failed to update container runtime" (writeRuntimeOnly containerPath runtime core)

/-! ## Finding the cgroups -/

/-- The commands that the actuator runs: `crictl inspect`, and the `jq` filter
that extracts `cgroupsPath` from its output. -/
structure Host where
  crictlInspect : GoString → Except GoError GoString
  jqCgroupsPath : GoString → Except GoError GoString

/-- The container and the pod path of a `cgroupsPath` of the expected form
`<sliceGroup>:<runtime>:<scopeId>`. -/
def cgroupPathsOf (cgroupsPath : GoString) : Except GoError (GoString × GoString) :=
  match split cgroupsPath ':' with
  | [sliceGroup, runtimeName, scopeID] =>
      let idx := lastIndex sliceGroup "-pod"
      if idx ≤ 0 then
        .error (.text (("cannot locate pod segment in slice: " : GoString) ++ sliceGroup))
      else
        let qosSlice := sliceGroup.take idx.toNat ++ (".slice" : GoString)
        let podSlice := sliceGroup
        let podPath := join [cgroupV2Root, "kubepods.slice", qosSlice, podSlice]
        let containerScope := runtimeName ++ ("-" : GoString) ++ scopeID ++ (".scope" : GoString)
        let containerPath := join [podPath, containerScope]
        .ok (containerPath, podPath)
  | _ => .error (.text (("unexpected cgroupsPath format: " : GoString) ++ cgroupsPath))

/-- `getCgroupPathsFromInspect` builds the absolute cgroup v2 paths of a
container and of its pod from `crictl inspect`. -/
def getCgroupPathsFromInspect (host : Host) (containerID : GoString) :
    Except GoError (GoString × GoString) :=
  match host.crictlInspect containerID with
  | .error e => .error (.wrap "failed to inspect container" e)
  | .ok inspectOutput =>
      match host.jqCgroupsPath inspectOutput with
      | .error e => .error (.wrap "failed to extract cgroupsPath" e)
      | .ok cgroupsPathBytes =>
          let cgroupsPath := trimSpace cgroupsPathBytes
          if cgroupsPath = [] then
            .error (.text "cgroupsPath not found in inspect output")
          else
            cgroupPathsOf cgroupsPath

/-! ## `applyCgroup` -/

/-- What `applyCgroup` knows when the preflight checks have passed: the two
cgroups and the current values of the pod. -/
structure Current where
  containerCgPath : GoString
  podCgPath : GoString
  podPeriod : Int
  podRuntime : Int
  podMultiRuntime : Int
  deriving DecidableEq, Repr

/-- `applyCgroup` up to the current values of the pod. -/
def preflight (host : Host) (containerID : GoString) (period : Int)
    (core : Option GoString) : CgroupM Current := do
  let containerID := trimPrefix containerID "containerd://"
  -- Determine cgroup version
  wrapError "cgroup v2 not detected" (stat cgroupControllersFile)
  let (containerCgPath, podCgPath) ← wrapError "failed to get cgroup paths"
    (liftExcept (getCgroupPathsFromInspect host containerID))
  -- 1) cpu controller must be available at root and enabled in parent subtree
  let rootControllers ← wrapError "read cgroup.controllers" (readFile cgroupControllersFile)
  failWhen (tokenContains rootControllers "cpu" = false)
    (.text "cpu controller not available in cgroup v2 (cgroup.controllers)")
  -- 2) system-wide RT group scheduling must be enabled and limits respected
  let globalRTPeriod ← wrapError "read sched_rt_period_us" (readIntFromFile procSchedRTPeriod)
  let globalRTRuntime ← wrapError "read sched_rt_runtime_us" (readIntFromFile procSchedRTRuntime)
  failWhen (globalRTRuntime < 0)
    (.text ("system RT throttling is disabled (sched_rt_runtime_us = -1); " ++
      "per-cgroup RT runtime cannot be set"))
  failWhen (period ≤ 0 ∨ globalRTPeriod ≤ 0)
    (.text (("invalid period (input=" : GoString) ++ itoa period ++ (", system=" : GoString) ++
      itoa globalRTPeriod ++ (")" : GoString)))
  -- Check parent RT limits first
  let rootPeriod ← wrapError "failed to read root RT period"
    (readIntFromFile (join [cgroupKubepodsSlice, cgroupRTPeriod]))
  failWhen (rootPeriod ≠ 0 ∧ period > rootPeriod)
    (.text (("requested period " : GoString) ++ itoa period ++
      (" exceeds root limit " : GoString) ++ itoa rootPeriod))
  -- Read current values
  let (podPeriod, podRuntime) ← wrapError "failed to read current pod RT values"
    (readRtValues podCgPath)
  let podMultiRuntime ← readMultiRuntime podCgPath core
  pure { containerCgPath, podCgPath, podPeriod, podRuntime, podMultiRuntime }

/-- `applyCgroup` from the decrease flags on. -/
def updateCgroups (current : Current) (period runtime : Int) (core : Option GoString)
    (onlyRuntime : Bool) : CgroupM Unit :=
  let runtimeDecreasing := isRuntimeDecrease current.podRuntime runtime
  let periodDecreasing := isDecrease current.podPeriod period
  let multiRuntimeDecreasing :=
    core.isSome && isRuntimeDecrease current.podMultiRuntime runtime
  if onlyRuntime then
    let decreasing := if core.isSome then multiRuntimeDecreasing else runtimeDecreasing
    applyRuntimeWithOrder current.containerCgPath current.podCgPath runtime core decreasing
  else if runtimeDecreasing || periodDecreasing || multiRuntimeDecreasing then do
    -- for decrease operations, write container (child) first, then pod (parent)
    wrapError "failed to update container cgroup RT"
      (writeRtValues current.containerCgPath period runtime core
        periodDecreasing runtimeDecreasing multiRuntimeDecreasing)
    wrapError "failed to update pod cgroup RT"
      (writeRtValues current.podCgPath period runtime core
        periodDecreasing runtimeDecreasing multiRuntimeDecreasing)
  else do
    -- when increasing, write pod (parent) first, then container (child)
    wrapError "failed to update pod cgroup RT"
      (writeRtValues current.podCgPath period runtime core
        periodDecreasing runtimeDecreasing multiRuntimeDecreasing)
    wrapError "failed to update container cgroup RT"
      (writeRtValues current.containerCgPath period runtime core
        periodDecreasing runtimeDecreasing multiRuntimeDecreasing)

/-- `applyCgroup` sets the period, the runtime and the CPU set of a container
and of its pod. -/
def applyCgroup (host : Host) (containerID : GoString) (period runtime : Int)
    (core : Option GoString) (onlyRuntime : Bool) : CgroupM Unit := do
  let current ← preflight host containerID period core
  updateCgroups current period runtime core onlyRuntime

/-! ## The handler -/

/-- The body of a request to `/cgroup`; Go's `int` bounds the numbers. -/
structure CgroupRequest where
  containerID : GoString
  period : Int
  runtime : Int
  core : Option GoString
  onlyRuntime : Bool
  period_inInt : InInt period
  runtime_inInt : InInt runtime
  deriving DecidableEq

namespace CgroupRequest

/-- The checks of `handleCgroup` on a decoded request: the error message, or
`none` for a request that is accepted. -/
def rejection (req : CgroupRequest) : Option GoString :=
  if req.containerID = [] then
    some "container_id is required"
  else if req.period ≤ 0 then
    some "period must be > 0 (microseconds)"
  else if req.runtime > req.period then
    some "runtime must be <= period (or < 0 to disable)"
  else
    none

/-- The request passes the checks of `handleCgroup`. -/
def Accepted (req : CgroupRequest) : Prop := req.rejection = none

instance (req : CgroupRequest) : Decidable req.Accepted :=
  inferInstanceAs (Decidable (req.rejection = none))

theorem accepted_iff (req : CgroupRequest) :
    req.Accepted ↔ req.containerID ≠ [] ∧ 0 < req.period ∧ req.runtime ≤ req.period := by
  unfold Accepted rejection
  split
  · simp_all
  · split
    · simp_all
    · split
      · simp_all
      · simp_all

/-- The call of `applyCgroup` for an accepted request. -/
def apply (host : Host) (req : CgroupRequest) : CgroupM Unit :=
  applyCgroup host req.containerID req.period req.runtime req.core req.onlyRuntime

end CgroupRequest

/-- What `handleCgroup` reads of an HTTP request; the body is the result of
`io.ReadAll`. -/
structure HttpRequest where
  method : GoString
  body : Except GoError GoString

/-- The status and the message of an answer, with the error that `%v` prints
after the message. -/
structure HttpResponse where
  status : Nat
  message : GoString
  cause : Option GoError
  deriving DecidableEq, Repr

/-- `handleCgroup`; `unmarshal` is the JSON decoder of the request body. -/
def handleCgroup (host : Host) (unmarshal : GoString → Option CgroupRequest)
    (r : HttpRequest) : Program FileOp FileOp.Answer HttpResponse :=
  if r.method ≠ ("POST" : GoString) then
    .ret ⟨405, "Invalid request method", none⟩
  else
    match r.body with
    | .error _ => .ret ⟨400, "Unable to read request body", none⟩
    | .ok body =>
        match unmarshal body with
        | none => .ret ⟨400, "Invalid JSON", none⟩
        | some req =>
            match req.rejection with
            | some message => .ret ⟨400, message, none⟩
            | none => (req.apply host).run >>= fun result =>
                match result with
                | .error e => .ret ⟨500, "Failed to update cgroup: ", some e⟩
                | .ok () =>
                    .ret ⟨200, "Cgroup RT settings and CPU set applied successfully", none⟩

/-! ## A sample node -/

/-- A node on which every container resolves to one `cgroupsPath`. -/
def Host.sample : Host where
  crictlInspect := fun _ => .ok "inspect output"
  jqCgroupsPath := fun _ => .ok "kubepods-burstable-pod0a.slice:cri-containerd:1f"

def samplePodPath : GoString :=
  "/sys/fs/cgroup/kubepods.slice/kubepods-burstable.slice/kubepods-burstable-pod0a.slice"

def sampleContainerPath : GoString := samplePodPath ++ ("/cri-containerd-1f.scope" : GoString)

/-- The control files of one cgroup that is pinned to CPU 0. -/
def cgroupFiles (cgPath : GoString) (period runtime : Int) (multiRuntime : GoString) :
    List (GoString × GoString) :=
  [(cgPath ++ '/' :: cgroupRTPeriod, itoa period),
    (cgPath ++ '/' :: cgroupRTRuntime, itoa runtime),
    (cgPath ++ '/' :: cgroupRTMultiRuntime, multiRuntime),
    (cgPath ++ '/' :: cgroupCPUSet, "0")]

/-- The files of a node with the default system limits; the pod and its
container have one period and one runtime. -/
def sampleFiles (period runtime : Int) (multiRuntime : GoString) : Files := fun path =>
  ([(cgroupControllersFile, ("cpuset cpu io" : GoString)), (procSchedRTPeriod, "1000000"),
    (procSchedRTRuntime, "950000"), (cgroupKubepodsSlice ++ '/' :: cgroupRTPeriod, "0")] ++
    cgroupFiles samplePodPath period runtime multiRuntime ++
    cgroupFiles sampleContainerPath period runtime multiRuntime).lookup path

end NodeActuator
end McKube
