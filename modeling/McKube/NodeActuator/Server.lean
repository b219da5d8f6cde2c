import McKube.Atomic.Pool
import McKube.GoLib.Url
import McKube.NodeActuator.Gate
import McKube.NodeActuator.PodPaths

/-!
# The HTTP server of the node actuator

`main` registers `/renice`, `/cgroup` and `/healthz` with a `ServeMux` and serves every
request in a goroutine of its own.  Here a node consists of its files and of the `renice`
commands that it has carried out, and the server is a pool of programs to which a program
is added with each request that arrives.

* `serve_guarantees`: what one request may do, whatever runs beside it.
* `server_changes`: over every run, nothing changes on the node without an authorised `POST`
  that asks for it, and a request without the token is answered with 401.
-/

namespace McKube
namespace NodeActuator

open AtomicProgram GoLib
open GoLib.filepath (join components rootPath Plain)

/-! ## Routes -/

/-- The patterns that `main` registers. -/
inductive Endpoint where
  | renice
  | cgroup
  | healthz
  deriving DecidableEq, Repr

/-- The handler that the `ServeMux` finds for a path of one segment. -/
def endpointOf (path : GoString) : Option Endpoint :=
  match path with
  | '/' :: segment =>
      if '/' ∈ segment then
        none
      else
        -- a segment that is escaped badly stays as it is
        let name := (url.pathUnescape segment).getD segment
        if name = "renice" then some .renice
        else if name = "cgroup" then some .cgroup
        else if name = "healthz" then some .healthz
        else none
  | _ => none

/-- A request with its escaped path. -/
structure ServerRequest extends AuthorizedRequest where
  path : GoString

/-- What the `ServeMux` does with a request. -/
inductive Route where
  | handler (endpoint : Endpoint)
  | redirect
  | notFound
  deriving DecidableEq, Repr

/-- `ServeMux.findHandler`: the path of a `CONNECT` request is not cleaned. -/
def findHandler (r : ServerRequest) : Route :=
  if r.method ≠ ("CONNECT" : GoString) ∧ url.cleanPath r.path ≠ r.path then
    .redirect
  else
    match endpointOf r.path with
    | some endpoint => .handler endpoint
    | none => .notFound

/-! ## The node -/

/-- What the actuator does to a node. -/
inductive NodeOp where
  | file (op : FileOp)
  /-- the command `renice -n <nice> -p <pid>` -/
  | renice (nice pid : GoString)
  deriving DecidableEq, Repr

/-- A failed `renice` is known by its output. -/
abbrev NodeOp.Answer : NodeOp → Type
  | .file op => op.Answer
  | .renice _ _ => Except GoString Unit

/-- The files, and the `renice` commands that have been carried out, in order. -/
structure Node where
  files : Files
  reniced : List (GoString × GoString)

/-- The kernel, with the output of the `renice` commands that it refuses. -/
structure Machine extends Kernel where
  reniceFails : GoString → GoString → Option GoString

def Machine.exec (m : Machine) : (op : NodeOp) → Node → op.Answer × Node
  | .file op, node => ((m.toKernel.exec op node.files).1,
      { node with files := (m.toKernel.exec op node.files).2 })
  | .renice nice pid, node =>
      match m.reniceFails nice pid with
      | some output => (.error output, node)
      | none => (.ok (), { node with reniced := node.reniced ++ [(nice, pid)] })

/-- A program of file actions as a program on the node. -/
def onFiles {α : Type} : Program FileOp FileOp.Answer α → Program NodeOp NodeOp.Answer α
  | .ret value => .ret value
  | .act op next => .act (.file op) fun answer => onFiles (next answer)

/-! ## The handlers -/

/-- The body of a request to `/renice`. -/
structure ReniceRequest where
  containerID : GoString
  nice : Int
  nice_inInt : InInt nice

/-- The commands that the actuator runs, with `jq .info.pid`. -/
structure NodeHost extends Host where
  jqPid : GoString → Except GoError GoString

/-- The JSON decoder of the two handlers. -/
structure Decoders where
  cgroup : GoString → Option CgroupRequest
  renice : GoString → Option ReniceRequest

/-- The process that a `renice` request is about, as the two commands report it. -/
def pidOf (host : NodeHost) (containerID : GoString) : Except HttpResponse GoString :=
  match host.crictlInspect (trimPrefix containerID "containerd://") with
  | .error e => .error ⟨500, "Failed to inspect container: ", some e⟩
  | .ok inspectOutput =>
      match host.jqPid inspectOutput with
      | .error e => .error ⟨500, "Failed to extract PID: ", some e⟩
      | .ok pidBytes => .ok (trimSpace pidBytes)

/-- `handleRenice`. -/
def handleRenice (host : NodeHost) (unmarshal : GoString → Option ReniceRequest)
    (r : HttpRequest) : Program NodeOp NodeOp.Answer HttpResponse :=
  if r.method ≠ ("POST" : GoString) then
    .ret ⟨405, "Invalid request method", none⟩
  else
    match r.body with
    | .error _ => .ret ⟨400, "Unable to read request body", none⟩
    | .ok body =>
        match unmarshal body with
        | none => .ret ⟨400, "Invalid JSON", none⟩
        | some req =>
            match pidOf host req.containerID with
            | .error response => .ret response
            | .ok pidStr => .act (.renice (itoa req.nice) pidStr) fun answer =>
                match answer with
                | .error reniceOutput =>
                    .ret ⟨500, ("Failed to renice: " : GoString) ++ reniceOutput, none⟩
                | .ok () => .ret ⟨200, "Renice applied successfully", none⟩

/-- `authMiddleware` in front of a handler that may do more than file actions. -/
def authorize (envToken : GoString) (next : HttpRequest → Program NodeOp NodeOp.Answer HttpResponse)
    (r : AuthorizedRequest) : Program NodeOp NodeOp.Answer HttpResponse :=
  onFiles (getSharedToken envToken) >>= fun token =>
    if token ≠ [] then
      if r.authorization ≠ ("Bearer " : GoString) ++ token then
        .ret ⟨401, "Unauthorized", none⟩
      else
        next r.toHttpRequest
    else
      next r.toHttpRequest

/-- The goroutine of one request, from the `ServeMux` on. -/
def serve (envToken : GoString) (host : NodeHost) (decoders : Decoders) (r : ServerRequest) :
    Program NodeOp NodeOp.Answer HttpResponse :=
  match findHandler r with
  | .redirect => .ret ⟨301, "Moved Permanently", none⟩
  | .notFound => .ret ⟨404, "404 page not found", none⟩
  | .handler .healthz => .ret ⟨200, "ok", none⟩
  | .handler .renice => authorize envToken (handleRenice host decoders.renice) r.toAuthorizedRequest
  | .handler .cgroup => authorize envToken
      (fun r => onFiles (handleCgroup host.toHost decoders.cgroup r)) r.toAuthorizedRequest

/-- The goroutine of a request, with the request kept beside its answer. -/
def goroutine (envToken : GoString) (host : NodeHost) (decoders : Decoders) (r : ServerRequest) :
    Program NodeOp NodeOp.Answer (ServerRequest × HttpResponse) :=
  serve envToken host decoders r >>= fun response => .ret (r, response)

/-- The goroutines and the node. -/
abbrev ServerPool := Pool NodeOp NodeOp.Answer (ServerRequest × HttpResponse) Node

/-- What the server can have come to when requests that `Arrives` describes have come in,
at any time and in any number. -/
def Serves (m : Machine) (envToken : GoString) (host : NodeHost) (decoders : Decoders)
    (Arrives : ServerRequest → Prop) (node : Node) (pool : ServerPool) : Prop :=
  Pool.Reaches m.exec (fun p => ∃ r, Arrives r ∧ p = goroutine envToken host decoders r)
    ⟨[], node⟩ pool

section Serves

variable {m : Machine} {envToken : GoString} {host : NodeHost} {decoders : Decoders}
  {Arrives : ServerRequest → Prop} {node s : Node}
  {programs : List (Program NodeOp NodeOp.Answer (ServerRequest × HttpResponse))}

theorem Serves.start {r : ServerRequest}
    (h : Serves m envToken host decoders Arrives node ⟨programs, s⟩) (hr : Arrives r) :
    Serves m envToken host decoders Arrives node
      ⟨programs ++ [goroutine envToken host decoders r], s⟩ :=
  Relation.ReflTransGen.tail h (.start ⟨r, hr, rfl⟩)

/-- A goroutine runs to its end while the others wait. -/
theorem Serves.run {i : Nat} {p : Program NodeOp NodeOp.Answer (ServerRequest × HttpResponse)}
    (h : Serves m envToken host decoders Arrives node ⟨programs, s⟩)
    (hp : programs[i]? = some p) :
    Serves m envToken host decoders Arrives node
      ⟨programs.set i (.ret (p.run m.exec s).1), (p.run m.exec s).2⟩ :=
  Relation.ReflTransGen.trans h (Pool.reaches_run hp s)

/-- One request that is served alone. -/
theorem Serves.alone {r : ServerRequest} (hr : Arrives r) :
    Serves m envToken host decoders Arrives node
      ⟨[.ret (Program.run m.exec (goroutine envToken host decoders r) node).1],
        (Program.run m.exec (goroutine envToken host decoders r) node).2⟩ := by
  have hnone : Serves m envToken host decoders Arrives node ⟨[], node⟩ := .refl
  exact (hnone.start hr).run (i := 0) rfl

end Serves

/-! ## Programs of file actions -/

section OnFiles

variable {α β : Type} {m : Machine}

theorem onFiles_bind (p : Program FileOp FileOp.Answer α) (f : α → Program FileOp FileOp.Answer β) :
    onFiles (p >>= f) = onFiles p >>= fun value => onFiles (f value) := by
  induction p with
  | ret value => rfl
  | act op next ih => exact congrArg (Program.act (NodeOp.file op)) (funext ih)

theorem performs_onFiles {allowed : FileOp → Prop} {p : Program FileOp FileOp.Answer α}
    (h : p.Performs allowed) :
    (onFiles p).Performs fun op => ∃ fileOp, op = .file fileOp ∧ allowed fileOp := by
  induction p with
  | ret value => exact trivial
  | act op next ih => exact ⟨⟨op, rfl, h.1⟩, fun answer => ih answer (h.2 answer)⟩

/-- The endpoint `/cgroup` of the server is the one whose checks are known. -/
theorem serve_cgroup {envToken : GoString} {host : NodeHost} {decoders : Decoders}
    {r : ServerRequest} (h : findHandler r = .handler .cgroup) :
    serve envToken host decoders r =
      onFiles (cgroupEndpoint envToken host.toHost decoders.cgroup r.toAuthorizedRequest) := by
  unfold serve cgroupEndpoint authMiddleware
  rw [h, onFiles_bind]
  show authorize _ _ _ = _
  unfold authorize
  refine congrArg (_ >>= ·) (funext fun token => ?_)
  split
  · split <;> rfl
  · rfl

end OnFiles

/-! ## What a request may do -/

section Changes

variable {m : Machine} {envToken token : GoString} {host : NodeHost} {decoders : Decoders}
  {r : ServerRequest} {path : GoString}

/-- The request passes the middleware. -/
def Authorized (token : GoString) (r : ServerRequest) : Prop :=
  token = [] ∨ r.authorization = ("Bearer " : GoString) ++ token

instance (token : GoString) (r : ServerRequest) : Decidable (Authorized token r) :=
  inferInstanceAs (Decidable (_ ∨ _))

/-- The request is one to `/cgroup` that the handler hands over to `applyCgroup`. -/
def AsksForCgroup (decoders : Decoders) (r : ServerRequest) (req : CgroupRequest) : Prop :=
  findHandler r = .handler .cgroup ∧ r.method = ("POST" : GoString) ∧
    ∃ body, r.body = .ok body ∧ decoders.cgroup body = some req ∧ req.Accepted

/-- The request is one to `/renice` that the handler accepts. -/
def AsksForRenice (decoders : Decoders) (r : ServerRequest) (req : ReniceRequest) : Prop :=
  findHandler r = .handler .renice ∧ r.method = ("POST" : GoString) ∧
    ∃ body, r.body = .ok body ∧ decoders.renice body = some req

/-- What `handleCgroup` does for the request. -/
def CgroupStep (host : NodeHost) (decoders : Decoders) (r : ServerRequest) (op : FileOp) : Prop :=
  ∃ req, AsksForCgroup decoders r req ∧ (SharedAction op ∨ ∃ containerCgPath podCgPath,
    Resolves host.toHost req.containerID containerCgPath podCgPath ∧
    RequestAction containerCgPath podCgPath req.period req.runtime req.core req.onlyRuntime op)

/-- What `handleRenice` does for the request. -/
def ReniceStep (host : NodeHost) (decoders : Decoders) (r : ServerRequest) (op : NodeOp) : Prop :=
  ∃ req pidStr, AsksForRenice decoders r req ∧ pidOf host req.containerID = .ok pidStr ∧
    op = .renice (itoa req.nice) pidStr

theorem performs_handleCgroup (hroute : findHandler r = .handler .cgroup) :
    (handleCgroup host.toHost decoders.cgroup r.toHttpRequest).Performs
      (CgroupStep host decoders r) := by
  unfold handleCgroup
  split
  · exact trivial
  · next hpost =>
      rw [not_not] at hpost
      cases hbody : r.body with
      | error e => exact trivial
      | ok body =>
          dsimp only
          cases hreq : decoders.cgroup body with
          | none => exact trivial
          | some req =>
              dsimp only
              cases hrejection : req.rejection with
              | some message => exact trivial
              | none =>
                  have hasks : AsksForCgroup decoders r req :=
                    ⟨hroute, hpost, body, hbody, hreq, hrejection⟩
                  refine Program.Performs.bind ?_ fun result => by cases result <;> exact trivial
                  exact performs_applyCgroup (fun op hop => ⟨req, hasks, Or.inl hop⟩)
                    fun c p hpaths op hop => ⟨req, hasks, Or.inr ⟨c, p, hpaths, hop⟩⟩

theorem performs_handleRenice (hroute : findHandler r = .handler .renice) :
    (handleRenice host decoders.renice r.toHttpRequest).Performs
      (ReniceStep host decoders r) := by
  unfold handleRenice
  split
  · exact trivial
  · next hpost =>
      rw [not_not] at hpost
      cases hbody : r.body with
      | error e => exact trivial
      | ok body =>
          dsimp only
          cases hreq : decoders.renice body with
          | none => exact trivial
          | some req =>
              dsimp only
              cases hpid : pidOf host req.containerID with
              | error response => exact trivial
              | ok pidStr =>
                  refine ⟨⟨req, pidStr, ⟨hroute, hpost, body, hbody, hreq⟩, hpid, rfl⟩, ?_⟩
                  intro answer
                  cases answer <;> exact trivial

/-- The request may write the file. -/
def MayWrite (token : GoString) (host : NodeHost) (decoders : Decoders) (r : ServerRequest)
    (path : GoString) : Prop :=
  Authorized token r ∧ ∃ req, AsksForCgroup decoders r req ∧
    ∃ containerCgPath podCgPath,
      Resolves host.toHost req.containerID containerCgPath podCgPath ∧
      ∃ cgPath ∈ [containerCgPath, podCgPath],
        ∃ name ∈ writtenNames req.core req.onlyRuntime, path = join [cgPath, name]

/-- The request may carry out the `renice` command. -/
def MayRenice (token : GoString) (host : NodeHost) (decoders : Decoders) (r : ServerRequest)
    (command : GoString × GoString) : Prop :=
  Authorized token r ∧ ∃ req, AsksForRenice decoders r req ∧
    ∃ pidStr, pidOf host req.containerID = .ok pidStr ∧ command = (itoa req.nice, pidStr)

/-- The node has kept its token, and every change to it is one that a request that has arrived
may make. -/
structure Justified (envToken : GoString) (host : NodeHost) (decoders : Decoders)
    (Arrives : ServerRequest → Prop) (before after : Node) : Prop where
  token : sharedToken envToken after.files = sharedToken envToken before.files
  files : ∀ path, after.files path ≠ before.files path → ∃ r, Arrives r ∧
    MayWrite (sharedToken envToken before.files) host decoders r path
  reniced : ∃ commands, after.reniced = before.reniced ++ commands ∧ ∀ command ∈ commands,
    ∃ r, Arrives r ∧ MayRenice (sharedToken envToken before.files) host decoders r command

variable {Arrives : ServerRequest → Prop} {before after : Node}

theorem Justified.refl : Justified envToken host decoders Arrives before before where
  token := rfl
  files := fun _ hpath => absurd rfl hpath
  reniced := ⟨[], (List.append_nil _).symm, fun _ hcommand => absurd hcommand List.not_mem_nil⟩

/-- No control file is the token file. -/
theorem sharedTokenFile_ne_join {cgPath name : GoString} (hrooted : Rooted cgPath)
    (hname : name ∈ controlFiles) : sharedTokenFile ≠ join [cgPath, name] := by
  intro heq
  have hlast := congrArg List.getLast? (congrArg components heq)
  rw [components_join hrooted hname, List.getLast?_concat] at hlast
  have htoken : (components sharedTokenFile).getLast? = some ("token" : GoString) := by
    decide +kernel
  rw [htoken, Option.some.injEq] at hlast
  subst hlast
  exact absurd hname (by decide)

/-- A file action that writes only what the request may write. -/
theorem justified_file {op : FileOp} (hr : Arrives r)
    (hop : ∀ path value, op = .writeFile path value →
      MayWrite (sharedToken envToken before.files) host decoders r path)
    (h : Justified envToken host decoders Arrives before after) :
    Justified envToken host decoders Arrives before (m.exec (.file op) after).2 := by
  by_cases hwrite : op.IsWrite
  · cases op with
    | stat path => exact hwrite.elim
    | readFile path => exact hwrite.elim
    | writeFile path value =>
        have hmay := hop path value rfl
        have hother : ∀ other, other ≠ path →
            (m.exec (.file (.writeFile path value)) after).2.files other = after.files other :=
          fun other hne => m.toKernel.exec_writeFile_other hne
        have htoken : sharedTokenFile ≠ path := by
          obtain ⟨-, req, -, c, p, hpaths, cgPath, hcgroup, name, hname, rfl⟩ := hmay
          exact sharedTokenFile_ne_join (hpaths.rooted_of (by simpa using hcgroup))
            (writtenNames_subset _ _ hname)
        refine ⟨?_, fun other hchanged => ?_, h.reniced⟩
        · rw [← h.token]
          unfold sharedToken
          rw [hother _ htoken]
        · by_cases hne : other = path
          · subst hne
            exact ⟨r, hr, hmay⟩
          · rw [hother other hne] at hchanged
            exact h.files other hchanged
  · have hfiles : (m.exec (.file op) after).2.files = after.files :=
      m.toKernel.exec_state_of_not_write hwrite after.files
    refine ⟨?_, fun other hchanged => ?_, h.reniced⟩
    · rw [hfiles]
      exact h.token
    · rw [hfiles] at hchanged
      exact h.files other hchanged

theorem justified_renice {nice pid : GoString} (hr : Arrives r)
    (hmay : MayRenice (sharedToken envToken before.files) host decoders r (nice, pid))
    (h : Justified envToken host decoders Arrives before after) :
    Justified envToken host decoders Arrives before (m.exec (.renice nice pid) after).2 := by
  show Justified envToken host decoders Arrives before
    (match m.reniceFails nice pid with
      | some output => ((.error output : Except GoString Unit), after)
      | none => (.ok (), { after with reniced := after.reniced ++ [(nice, pid)] })).2
  cases m.reniceFails nice pid with
  | some output => exact h
  | none =>
      obtain ⟨commands, hcommands, hasked⟩ := h.reniced
      refine ⟨h.token, h.files, commands ++ [(nice, pid)], ?_, fun command hcommand => ?_⟩
      · show after.reniced ++ [(nice, pid)] = _
        rw [hcommands, List.append_assoc]
      · rcases List.mem_append.mp hcommand with hold | hnew
        · exact hasked command hold
        · rw [List.mem_singleton.mp hnew]
          exact ⟨r, hr, hmay⟩

/-- The program makes no change that is not justified. -/
abbrev Justifies (m : Machine) (envToken : GoString) (host : NodeHost) (decoders : Decoders)
    (Arrives : ServerRequest → Prop) (before : Node) {α : Type} (possible : α → Prop)
    (p : Program NodeOp NodeOp.Answer α) : Prop :=
  p.Guarantees m.exec (Justified envToken host decoders Arrives before) (fun _ _ => True) possible

theorem justifies_onFiles {α : Type} {p : Program FileOp FileOp.Answer α} (hr : Arrives r)
    (hp : p.Performs fun op => ∀ path value, op = .writeFile path value →
      MayWrite (sharedToken envToken before.files) host decoders r path) :
    Justifies m envToken host decoders Arrives before (fun _ => True) (onFiles p) := by
  refine (performs_onFiles hp).guarantees ?_
  rintro op ⟨fileOp, rfl, hop⟩ after h
  exact ⟨justified_file hr hop h, trivial⟩

/-- The middleware finds the token that the node has had from the start. -/
theorem justifies_getSharedToken (hr : Arrives r) :
    Justifies m envToken host decoders Arrives before
      (· = sharedToken envToken before.files) (onFiles (getSharedToken envToken)) := by
  unfold getSharedToken
  split
  · next henv =>
      show envToken = sharedToken envToken before.files
      rw [sharedToken, if_pos henv]
  · next henv =>
      intro after h
      refine ⟨⟨justified_file hr (fun path value heq => by cases heq) h, trivial⟩, ?_⟩
      rw [← h.token, sharedToken, if_neg henv]
      show (onFiles _).Guarantees _ _ _ _
      simp only [Machine.exec, Kernel.exec]
      cases after.files sharedTokenFile <;> rfl

theorem justifies_handleCgroup (hr : Arrives r)
    (hauthorized : Authorized (sharedToken envToken before.files) r)
    (hroute : findHandler r = .handler .cgroup) :
    Justifies m envToken host decoders Arrives before (fun _ => True)
      (onFiles (handleCgroup host.toHost decoders.cgroup r.toHttpRequest)) := by
  refine justifies_onFiles hr ((performs_handleCgroup hroute).mono ?_)
  rintro op ⟨req, hasks, hop⟩ path value rfl
  rcases hop with hshared | ⟨c, p, hpaths, hshared | ⟨name, hname, rfl⟩ | ⟨name, hname, rfl⟩⟩
  · exact hshared.elim
  · exact hshared.elim
  · exact ⟨hauthorized, req, hasks, c, p, hpaths, c, by simp, name, mem_writtenNames hname, rfl⟩
  · exact ⟨hauthorized, req, hasks, c, p, hpaths, p, by simp, name, mem_writtenNames hname, rfl⟩

theorem justifies_handleRenice (hr : Arrives r)
    (hauthorized : Authorized (sharedToken envToken before.files) r)
    (hroute : findHandler r = .handler .renice) :
    Justifies m envToken host decoders Arrives before (fun _ => True)
      (handleRenice host decoders.renice r.toHttpRequest) := by
  refine (performs_handleRenice hroute).guarantees ?_
  rintro op ⟨req, pidStr, hasks, hpid, rfl⟩ after h
  exact ⟨justified_renice hr ⟨hauthorized, req, hasks, pidStr, hpid, rfl⟩ h, trivial⟩

/-- The endpoints behind `authMiddleware`. -/
def Protected (r : ServerRequest) : Prop :=
  findHandler r = .handler .renice ∨ findHandler r = .handler .cgroup

instance (r : ServerRequest) : Decidable (Protected r) := inferInstanceAs (Decidable (_ ∨ _))

theorem justifies_authorize {next : HttpRequest → Program NodeOp NodeOp.Answer HttpResponse}
    (hr : Arrives r)
    (hnext : Authorized (sharedToken envToken before.files) r →
      Justifies m envToken host decoders Arrives before (fun _ => True) (next r.toHttpRequest)) :
    Justifies m envToken host decoders Arrives before
      (fun response => ¬ Authorized (sharedToken envToken before.files) r → response.status = 401)
      (authorize envToken next r.toAuthorizedRequest) := by
  have hauthorized : Authorized (sharedToken envToken before.files) r →
      Justifies m envToken host decoders Arrives before
        (fun response => ¬ Authorized (sharedToken envToken before.files) r →
          response.status = 401) (next r.toHttpRequest) :=
    fun h => (hnext h).mono fun _ _ hnot => absurd h hnot
  refine (justifies_getSharedToken hr).bind ?_
  rintro token rfl
  split
  · split
    · exact fun _ => rfl
    · next hbearer => exact hauthorized (Or.inr (not_not.mp hbearer))
  · next hnone => exact hauthorized (Or.inl (not_not.mp hnone))

/-- What one request does, whatever runs beside it. -/
theorem serve_guarantees (hr : Arrives r) :
    Justifies m envToken host decoders Arrives before
      (fun response => Protected r → ¬ Authorized (sharedToken envToken before.files) r →
        response.status = 401) (serve envToken host decoders r) := by
  cases hroute : findHandler r with
  | redirect =>
      unfold serve
      rw [hroute]
      exact fun hprotected => by simp [Protected, hroute] at hprotected
  | notFound =>
      unfold serve
      rw [hroute]
      exact fun hprotected => by simp [Protected, hroute] at hprotected
  | handler endpoint =>
      cases endpoint with
      | healthz =>
          unfold serve
          rw [hroute]
          exact fun hprotected => by simp [Protected, hroute] at hprotected
      | renice =>
          unfold serve
          rw [hroute]
          exact (justifies_authorize hr fun h => justifies_handleRenice hr h hroute).mono
            fun _ hstatus _ => hstatus
      | cgroup =>
          unfold serve
          rw [hroute]
          refine (justifies_authorize hr fun h => ?_).mono fun _ hstatus _ => hstatus
          exact justifies_handleCgroup hr h hroute

/-- Over every run of the server, whatever requests arrive and however their handlers
interleave: a file changes, or a process gets another priority, only because an authorised
`POST` has asked for it, and who asks without the token is answered with 401. -/
theorem server_changes {node : Node} {pool : ServerPool}
    (h : Serves m envToken host decoders Arrives node pool) :
    Justified envToken host decoders Arrives node pool.state ∧
      ∀ r response, .ret (r, response) ∈ pool.programs → Arrives r ∧
        (Protected r → ¬ Authorized (sharedToken envToken node.files) r →
          response.status = 401) := by
  have hreaches : Pool.Reaches m.exec
      (fun p => ∃ r, Arrives r ∧ p = goroutine envToken host decoders r) ⟨[], node⟩ pool := h
  have hgoroutine : ∀ p, (∃ r, Arrives r ∧ p = goroutine envToken host decoders r) →
      Justifies m envToken host decoders Arrives node (fun result => Arrives result.1 ∧
        (Protected result.1 → ¬ Authorized (sharedToken envToken node.files) result.1 →
          result.2.status = 401)) p := by
    rintro p ⟨r, hr, rfl⟩
    exact (serve_guarantees hr).bind fun response hresponse => ⟨hr, hresponse⟩
  obtain ⟨hjustified, -, hprograms⟩ :=
    hreaches.guaranteed (by simp) hgoroutine Justified.refl
  exact ⟨hjustified, fun r response hmem => hprograms _ hmem⟩

end Changes

/-! ## A sample request -/

def NodeHost.sample : NodeHost where
  toHost := Host.sample
  jqPid := fun _ => .ok "42\n"

def sampleRenice : ReniceRequest where
  containerID := "containerd://1f"
  nice := -5
  nice_inInt := by decide

def Decoders.sample : Decoders where
  cgroup := fun _ => some CgroupRequest.sample
  renice := fun _ => some sampleRenice

def Machine.permissive : Machine where
  toKernel := Kernel.permissive
  reniceFails := fun _ _ => none

def sampleNode : Node := ⟨sampleFiles 1000000 100000 "100000 0", []⟩

/-- A `POST` with the token `t`. -/
def samplePost (path : GoString) : ServerRequest where
  method := "POST"
  body := .ok "{}"
  authorization := "Bearer t"
  path := path

theorem server_changes_sample : ∃ pool : ServerPool,
    Serves Machine.permissive "t" NodeHost.sample Decoders.sample (· = samplePost "/renice")
      sampleNode pool ∧
    pool.state.reniced = [(("-5" : GoString), ("42" : GoString))] ∧
    ∃ r, r = samplePost "/renice" ∧
      MayRenice "t" NodeHost.sample Decoders.sample r ("-5", "42") := by
  have hserves : Serves Machine.permissive "t" NodeHost.sample Decoders.sample
      (· = samplePost "/renice") sampleNode
      ⟨[.ret (Program.run Machine.permissive.exec
        (goroutine "t" NodeHost.sample Decoders.sample (samplePost "/renice")) sampleNode).1],
        (Program.run Machine.permissive.exec
          (goroutine "t" NodeHost.sample Decoders.sample (samplePost "/renice")) sampleNode).2⟩ :=
    Serves.alone rfl
  have hreniced : (Program.run Machine.permissive.exec
      (goroutine "t" NodeHost.sample Decoders.sample (samplePost "/renice")) sampleNode).2.reniced =
      [(("-5" : GoString), ("42" : GoString))] := by decide +kernel
  refine ⟨_, hserves, hreniced, ?_⟩
  obtain ⟨commands, hcommands, hasked⟩ := (server_changes hserves).1.reniced
  have hone : commands = [(("-5" : GoString), ("42" : GoString))] :=
    hcommands.symm.trans hreniced
  exact hasked _ (hone ▸ List.mem_singleton_self _)

end NodeActuator
end McKube
