import McKube.NodeActuator.Concurrency
import McKube.NodeActuator.Retries
import McKube.NodeActuator.Server

/-!
# One pod among the others

What the server does in one pod does not depend on the requests for other pods, on `renice`
requests, or on requests that it refuses.

* `serve_inPod`, `serve_elsewhere`: the actions of a request for the pod, and of any other.
* `pod_isolated`: leave out everything but the requests for one pod; they get the same answers
  and leave the same files in the pod.
* `retried_among_others`: a client that repeats its request until it is answered with success
  knows the files of its pod, whatever the other clients do.
-/

namespace McKube
namespace NodeActuator

open AtomicProgram GoLib
open GoLib.filepath (join components rootPath Plain)

/-! ## What the requests for a pod see -/

/-- The path is one that the requests for the pod with this slice look at. -/
def VisibleIn (slice path : GoString) : Prop :=
  path = sharedTokenFile ∨ path ∈ sharedFiles ∨ podOf path = podComponentsOf slice

/-- Two nodes look the same to the requests for the pod. -/
def SameIn (slice : GoString) (s t : Node) : Prop :=
  ∀ path, VisibleIn slice path → s.files path = t.files path

instance (slice : GoString) : Std.Refl (SameIn slice) := ⟨fun _ _ _ => rfl⟩

instance (slice : GoString) : IsTrans Node (SameIn slice) :=
  ⟨fun _ _ _ h h' path hpath => (h path hpath).trans (h' path hpath)⟩

/-- An action that a request for the pod performs. -/
def InPod (slice : GoString) : NodeOp → Prop
  | .file op => VisibleIn slice op.path ∧ (op.IsWrite → podOf op.path = podComponentsOf slice)
  | .renice _ _ => False

/-- An action that no request for the pod notices. -/
def Elsewhere (slice : GoString) : NodeOp → Prop
  | .file op => op.IsWrite → ∃ other, other ≠ slice ∧ podOf op.path = podComponentsOf other
  | .renice _ _ => True

theorem podComponentsOf_injective : Function.Injective podComponentsOf := by
  intro slice other h
  simp only [podComponentsOf, List.cons_append, List.nil_append, List.cons.injEq, true_and,
    and_true] at h
  exact h.2

/-- A file of another pod is not visible in this one. -/
theorem not_visibleIn {slice other path : GoString} (hother : other ≠ slice)
    (hpath : podOf path = podComponentsOf other) : ¬ VisibleIn slice path := by
  have hsix : (podComponentsOf other).length = 6 := rfl
  rintro (rfl | hshared | hpod)
  · have htwo : (podOf sharedTokenFile).length = 3 := by decide +kernel
    rw [hpath] at htwo
    omega
  · have hshort : ∀ path ∈ sharedFiles, (podOf path).length ≤ 5 := by decide +kernel
    have hlength := hshort path hshared
    rw [hpath] at hlength
    omega
  · exact hother (podComponentsOf_injective (hpath.symm.trans hpod))

section Steps

variable {m : Machine} {slice : GoString}

/-- An action of the pod does the same on nodes that look the same to it. -/
theorem exec_inPod (hlocal : m.toKernel.PodLocal) {op : NodeOp} (hop : InPod slice op)
    {s t : Node} (hsame : SameIn slice s t) :
    (m.exec op s).1 = (m.exec op t).1 ∧ SameIn slice (m.exec op s).2 (m.exec op t).2 := by
  cases op with
  | renice nice pid => exact hop.elim
  | file op =>
      obtain ⟨hvisible, hwrite⟩ := hop
      have hfile := hsame op.path hvisible
      cases op with
      | stat path =>
          have hs : s.files path = t.files path := hfile
          refine ⟨?_, fun other hother => ?_⟩
          · simp only [Machine.exec, Kernel.exec, hs]
            cases t.files path <;> rfl
          · simp only [Machine.exec, Kernel.exec_stat_state]
            exact hsame other hother
      | readFile path =>
          have hs : s.files path = t.files path := hfile
          refine ⟨?_, fun other hother => ?_⟩
          · simp only [Machine.exec, Kernel.exec, hs]
            cases t.files path <;> rfl
          · simp only [Machine.exec, Kernel.exec_readFile_state]
            exact hsame other hother
      | writeFile path value =>
          have hs : s.files path = t.files path := hfile
          have hpod : podOf path = podComponentsOf slice := hwrite trivial
          have hreject : m.toKernel.reject s.files path value =
              m.toKernel.reject t.files path value :=
            hlocal _ _ _ _ fun other hother =>
              hsame other (Or.inr (Or.inr (hother.trans hpod)))
          simp only [Machine.exec, Kernel.exec, Kernel.write, hs, hreject]
          cases hold : t.files path with
          | none => exact ⟨rfl, hsame⟩
          | some old =>
              dsimp only
              cases m.toKernel.reject t.files path value with
              | some errno => exact ⟨rfl, hsame⟩
              | none =>
                  dsimp only
                  cases m.toKernel.stored path old value with
                  | none => exact ⟨rfl, hsame⟩
                  | some new =>
                      refine ⟨rfl, fun other hother => ?_⟩
                      show Function.update s.files path (some new) other =
                        Function.update t.files path (some new) other
                      by_cases heq : other = path
                      · subst heq
                        rw [Function.update_self, Function.update_self]
                      · rw [Function.update_of_ne heq, Function.update_of_ne heq]
                        exact hsame other hother

theorem exec_elsewhere {op : NodeOp} (hop : Elsewhere slice op) (s : Node) :
    SameIn slice (m.exec op s).2 s := by
  intro path hpath
  cases op with
  | renice nice pid =>
      unfold Machine.exec
      cases hfails : m.reniceFails nice pid with
      | some output => simp only [hfails]
      | none => simp only [hfails]
  | file op =>
      show (m.toKernel.exec op s.files).2 path = s.files path
      by_cases hwrite : op.IsWrite
      · obtain ⟨other, hother, hpod⟩ := hop hwrite
        cases op with
        | stat path => exact hwrite.elim
        | readFile path => exact hwrite.elim
        | writeFile written value =>
            apply m.toKernel.exec_writeFile_other
            rintro rfl
            exact not_visibleIn hother hpod hpath
      · rw [m.toKernel.exec_state_of_not_write hwrite]

end Steps

/-! ## The requests for a pod, and the others -/

section Requests

variable {m : Machine} {envToken slice : GoString} {host : NodeHost} {decoders : Decoders}
  {r : ServerRequest}

/-- The request is one for a container of the pod. -/
def ForPod (host : NodeHost) (decoders : Decoders) (slice : GoString) (r : ServerRequest) : Prop :=
  ∃ req, AsksForCgroup decoders r req ∧
    ∃ c : CgroupsPath, c.ReportedFor host.toHost req.containerID ∧ c.sliceGroup = slice

/-- The commands report well-formed paths, if any, for the container of the request. -/
def WellReported (host : NodeHost) (decoders : Decoders) (r : ServerRequest) : Prop :=
  ∀ req, AsksForCgroup decoders r req → ∀ containerCgPath podCgPath,
    Resolves host.toHost req.containerID containerCgPath podCgPath →
      ∃ c : CgroupsPath, c.ReportedFor host.toHost req.containerID

theorem performs_authorize {allowed : NodeOp → Prop}
    {next : HttpRequest → Program NodeOp NodeOp.Answer HttpResponse}
    (htoken : allowed (.file (.readFile sharedTokenFile)))
    (hnext : (next r.toHttpRequest).Performs allowed) :
    (authorize envToken next r.toAuthorizedRequest).Performs allowed := by
  have hread : (onFiles (getSharedToken envToken)).Performs allowed := by
    unfold getSharedToken
    split
    · exact trivial
    · exact ⟨htoken, fun answer => by cases answer <;> exact trivial⟩
  refine hread.bind fun token => ?_
  split
  · split
    · exact trivial
    · exact hnext
  · exact hnext

/-- The actions of a handler decide about the actions of the whole goroutine. -/
theorem performs_goroutine {allowed : NodeOp → Prop}
    (htoken : allowed (.file (.readFile sharedTokenFile)))
    (hcgroup : ∀ op, CgroupStep host decoders r op → allowed (.file op))
    (hrenice : ∀ op, ReniceStep host decoders r op → allowed op) :
    (goroutine envToken host decoders r).Performs allowed := by
  refine Program.Performs.bind ?_ fun response => trivial
  unfold serve
  split
  · exact trivial
  · exact trivial
  · exact trivial
  · next hroute =>
      exact performs_authorize htoken ((performs_handleRenice hroute).mono hrenice)
  · next hroute =>
      refine performs_authorize htoken ((performs_onFiles (performs_handleCgroup hroute)).mono ?_)
      rintro op ⟨fileOp, rfl, hop⟩
      exact hcgroup fileOp hop

/-- The handler of a request knows one decoded body. -/
theorem AsksForCgroup.unique {req req' : CgroupRequest} (h : AsksForCgroup decoders r req)
    (h' : AsksForCgroup decoders r req') : req = req' := by
  obtain ⟨-, -, body, hbody, hreq, -⟩ := h
  obtain ⟨-, -, body', hbody', hreq', -⟩ := h'
  obtain rfl : body = body' := Except.ok.inj (hbody.symm.trans hbody')
  exact Option.some.inj (hreq.symm.trans hreq')

theorem serve_inPod (h : ForPod host decoders slice r) :
    (goroutine envToken host decoders r).Performs (InPod slice) := by
  obtain ⟨req, hasks, c, hreported, rfl⟩ := h
  refine performs_goroutine ⟨Or.inl rfl, fun hwrite => hwrite.elim⟩ ?_ ?_
  · rintro op ⟨req', hasks', hop⟩
    obtain rfl := hasks.unique hasks'
    rcases hop with hshared | ⟨containerCgPath, podCgPath, hpaths, hop⟩
    · cases op with
      | stat path => exact ⟨Or.inr (Or.inl hshared), fun hwrite => hwrite.elim⟩
      | readFile path => exact ⟨Or.inr (Or.inl hshared), fun hwrite => hwrite.elim⟩
      | writeFile path value => exact hshared.elim
    · obtain ⟨rfl, rfl⟩ := hpaths.unique hreported.resolves
      rcases CgroupsPath.podOf_requestAction hop with ⟨hshared, hread⟩ | hpod
      · exact ⟨Or.inr (Or.inl hshared), fun hwrite => absurd hwrite hread⟩
      · exact ⟨Or.inr (Or.inr hpod), fun _ => hpod⟩
  · rintro op ⟨req', pidStr, hasks', -, -⟩
    have hroute := hasks.1.symm.trans hasks'.1
    cases hroute

theorem serve_elsewhere (hreported : WellReported host decoders r)
    (h : ¬ ForPod host decoders slice r) :
    (goroutine envToken host decoders r).Performs (Elsewhere slice) := by
  refine performs_goroutine (fun hwrite => hwrite.elim) ?_ ?_
  · rintro op ⟨req, hasks, hop⟩ hwrite
    rcases hop with hshared | ⟨containerCgPath, podCgPath, hpaths, hop⟩
    · cases op with
      | stat path => exact hwrite.elim
      | readFile path => exact hwrite.elim
      | writeFile path value => exact hshared.elim
    · obtain ⟨c, hc⟩ := hreported req hasks _ _ hpaths
      obtain ⟨rfl, rfl⟩ := hpaths.unique hc.resolves
      rcases CgroupsPath.podOf_requestAction hop with ⟨-, hread⟩ | hpod
      · exact absurd hwrite hread
      · exact ⟨c.sliceGroup, fun heq => h ⟨req, hasks, c, hc, heq⟩, hpod⟩
  · rintro op ⟨req, pidStr, -, -, rfl⟩
    exact trivial

/-- The result of a goroutine names its request. -/
theorem returns_goroutine (r : ServerRequest) :
    (goroutine envToken host decoders r).Returns fun result => result.1 = r :=
  (Program.returns_true _).bind fun _ _ => rfl

/-- Leave out the requests for other pods: the rest of the server comes about without them, and
the node looks the same to the pod. -/
theorem exists_part {Arrives : ServerRequest → Prop} {node : Node} {pool : ServerPool}
    (hlocal : m.toKernel.PodLocal) (hreported : ∀ r, Arrives r → WellReported host decoders r)
    (h : Serves m envToken host decoders Arrives node pool) (slice : GoString) :
    ∃ part : ServerPool,
      Serves m envToken host decoders (fun r => Arrives r ∧ ForPod host decoders slice r)
        node part ∧
      SameIn slice pool.state part.state ∧
      ∀ result, ForPod host decoders slice result.1 →
        (.ret result ∈ pool.programs ↔ .ret result ∈ part.programs) := by
  have hreaches : Pool.Reaches m.exec
      (fun p => ∃ r, Arrives r ∧ p = goroutine envToken host decoders r) ⟨[], node⟩ pool := h
  have harrives : ∀ p, (∃ r, Arrives r ∧ p = goroutine envToken host decoders r) →
      (p.Performs (InPod slice) ∧ p.Returns fun result => ForPod host decoders slice result.1) ∨
        (p.Performs (Elsewhere slice) ∧
          p.Returns fun result => ¬ ForPod host decoders slice result.1) := by
    rintro p ⟨r, hr, rfl⟩
    by_cases hfor : ForPod host decoders slice r
    · refine Or.inl ⟨serve_inPod hfor, (returns_goroutine r).mono ?_⟩
      rintro result rfl
      exact hfor
    · refine Or.inr ⟨serve_elsewhere (hreported r hr) hfor, (returns_goroutine r).mono ?_⟩
      rintro result rfl
      exact hfor
  obtain ⟨part, hpart, hsame, hprograms⟩ := hreaches.part harrives
    (fun op hop s t => exec_inPod hlocal hop) (fun op hop s => exec_elsewhere hop s)
  refine ⟨part, ?_, hsame, fun result hfor => hprograms.mem_iff fun hrest => hrest.2 hfor⟩
  refine hpart.mono ?_
  rintro p ⟨⟨r, hr, rfl⟩, -, htag⟩
  -- the tag of a goroutine is its request
  have hfor : ForPod host decoders slice
      (Program.run m.exec (goroutine envToken host decoders r) node).1.1 := htag.run node
  have hown : (Program.run m.exec (goroutine envToken host decoders r) node).1.1 = r :=
    (returns_goroutine r).run node
  rw [hown] at hfor
  exact ⟨r, ⟨hr, hfor⟩, rfl⟩

/-- Any run of the server, seen from one pod: there is a run of the server with the requests
for this pod only in which they get the same answers, and at whose end every file of the pod
is the same. -/
theorem pod_isolated {Arrives : ServerRequest → Prop} {node : Node} {pool : ServerPool}
    (hlocal : m.toKernel.PodLocal) (hreported : ∀ r, Arrives r → WellReported host decoders r)
    (h : Serves m envToken host decoders Arrives node pool) (slice : GoString) :
    ∃ part : ServerPool,
      Serves m envToken host decoders (fun r => Arrives r ∧ ForPod host decoders slice r)
        node part ∧
      (∀ path, podOf path = podComponentsOf slice →
        pool.state.files path = part.state.files path) ∧
      ∀ r response, ForPod host decoders slice r →
        (.ret (r, response) ∈ pool.programs ↔ .ret (r, response) ∈ part.programs) := by
  obtain ⟨part, hpart, hsame, hanswers⟩ := exists_part hlocal hreported h slice
  refine ⟨part, hpart, fun path hpath => ?_, fun r response hfor => ?_⟩
  · exact hsame path (Or.inr (Or.inr hpath))
  · exact hanswers (r, response) hfor

/-! ## A request that is repeated among others -/

theorem guarantees_onFiles {α : Type} {I : Files → Prop} {G : Files → Files → Prop}
    {possible : α → Prop} {p : Program FileOp FileOp.Answer α}
    (h : p.Guarantees m.toKernel.exec I G possible) :
    (onFiles p).Guarantees m.exec (fun node => I node.files)
      (fun s t => G s.files t.files) possible := by
  induction p with
  | ret value => exact h
  | act op next ih => exact fun node hnode => ⟨(h _ hnode).1, ih _ (h _ hnode).2⟩

theorem establishes_onFiles {α : Type} {J : Files → Prop} {success : α → Prop}
    {p : Program FileOp FileOp.Answer α} (h : p.Establishes m.toKernel.exec J success) :
    (onFiles p).Establishes m.exec (fun node => J node.files) success := by
  induction p with
  | ret value => exact h
  | act op next ih => exact fun node => (h node.files).imp_right (ih _)

variable {req : CgroupRequest}

/-- The handler of such a request calls `applyCgroup`. -/
theorem handleCgroup_of_asks (h : AsksForCgroup decoders r req) :
    handleCgroup host.toHost decoders.cgroup r.toHttpRequest =
      (req.apply host.toHost).run >>= fun result =>
        match result with
        | .error e => .ret ⟨500, "Failed to update cgroup: ", some e⟩
        | .ok () => .ret ⟨200, "Cgroup RT settings and CPU set applied successfully", none⟩ := by
  obtain ⟨-, hpost, body, hbody, hreq, haccepted⟩ := h
  have hnone : req.rejection = none := haccepted
  unfold handleCgroup
  rw [if_neg (not_not.mpr hpost), hbody]
  dsimp only
  rw [hreq]
  dsimp only
  split
  · next hsome =>
      rw [hnone] at hsome
      cases hsome
  · rfl

variable {containerCgPath podCgPath : GoString} {files : Files}

/-- A goroutine of the request keeps the invariant of its attempts. -/
theorem settles_goroutine (hasks : AsksForCgroup decoders r req)
    (hpaths : Resolves host.toHost req.containerID containerCgPath podCgPath) :
    (goroutine envToken host decoders r).Guarantees m.exec
      (fun node => req.Settling m.toKernel containerCgPath podCgPath files node.files)
      (fun s t => req.SettlingStep m.toKernel containerCgPath podCgPath files s.files t.files)
      fun _ => True := by
  unfold goroutine
  rw [serve_cgroup hasks.1]
  suffices hendpoint : (cgroupEndpoint envToken host.toHost decoders.cgroup
      r.toAuthorizedRequest).Guarantees m.toKernel.exec
      (req.Settling m.toKernel containerCgPath podCgPath files)
      (req.SettlingStep m.toKernel containerCgPath podCgPath files) fun _ => True by
    exact (guarantees_onFiles hendpoint).bind fun response _ => trivial
  refine Program.Guarantees.bind ((performs_getSharedToken envToken).guarantees
    fun op hop s hs => CgroupRequest.settling_of_same hs
      (m.toKernel.exec_state_of_not_write hop s)) fun token _ => ?_
  have hhandler : (handleCgroup host.toHost decoders.cgroup r.toHttpRequest).Guarantees
      m.toKernel.exec (req.Settling m.toKernel containerCgPath podCgPath files)
      (req.SettlingStep m.toKernel containerCgPath podCgPath files) fun _ => True := by
    rw [handleCgroup_of_asks hasks]
    refine Program.Guarantees.bind (CgroupRequest.settles_apply hpaths files) fun result _ => ?_
    cases result <;> exact trivial
  split
  · split
    · exact trivial
    · exact hhandler
  · exact hhandler

/-- The request has been answered with success. -/
def AnsweredOk (result : ServerRequest × HttpResponse) : Prop := result.2.status = 200

/-- A goroutine that answers with success has established every file of the request. -/
theorem establishes_goroutine (hasks : AsksForCgroup decoders r req) {J : Files → Prop}
    (h : (req.apply host.toHost).run.Establishes m.toKernel.exec J Fallible.Succeeded) :
    (goroutine envToken host decoders r).Establishes m.exec (fun node => J node.files)
      AnsweredOk := by
  unfold goroutine
  rw [serve_cgroup hasks.1]
  suffices hendpoint : (cgroupEndpoint envToken host.toHost decoders.cgroup
      r.toAuthorizedRequest).Establishes m.toKernel.exec J fun response => response.status = 200 by
    exact (establishes_onFiles hendpoint).bind fun response hstatus => hstatus
  refine Program.establishes_bind_right _ fun token => ?_
  have hhandler : (handleCgroup host.toHost decoders.cgroup r.toHttpRequest).Establishes
      m.toKernel.exec J fun response => response.status = 200 := by
    rw [handleCgroup_of_asks hasks]
    refine h.bind fun result hresult => ?_
    cases result with
    | ok value => exact absurd trivial hresult
    | error e =>
        show ¬ (500 : Nat) = 200
        omega
  split
  · split
    · show ¬ (401 : Nat) = 200
      omega
    · exact hhandler
  · exact hhandler

end Requests

/-! ## A node with two pods -/

def NodeHost.twoPods : NodeHost where
  toHost := CgroupRequest.twoPods
  jqPid := fun _ => .ok "42\n"

/-- The bodies name the pods. -/
def Decoders.twoPods : Decoders where
  cgroup := fun body =>
    if body = ("burstable" : GoString) then some CgroupRequest.burstableRequest
    else some CgroupRequest.bestEffortRequest
  renice := fun _ => none

def twoPodsPost (body : GoString) : ServerRequest where
  method := "POST"
  body := .ok body
  authorization := ""
  path := "/cgroup"

/-- The requests of a client for each of the two pods. -/
def TwoClients (r : ServerRequest) : Prop :=
  r = twoPodsPost "burstable" ∨ r = twoPodsPost "besteffort"

theorem asks_burstable : AsksForCgroup Decoders.twoPods (twoPodsPost "burstable")
    CgroupRequest.burstableRequest :=
  ⟨by decide +kernel, rfl, _, rfl, rfl, by decide⟩

theorem asks_bestEffort : AsksForCgroup Decoders.twoPods (twoPodsPost "besteffort")
    CgroupRequest.bestEffortRequest :=
  ⟨by decide +kernel, rfl, _, rfl, by decide +kernel, by decide⟩

theorem wellReported_twoClients {r : ServerRequest} (h : TwoClients r) :
    WellReported NodeHost.twoPods Decoders.twoPods r := by
  intro req hasks _ _ _
  rcases h with rfl | rfl
  · obtain rfl := hasks.unique asks_burstable
    exact ⟨_, CgroupRequest.reported_burstablePod⟩
  · obtain rfl := hasks.unique asks_bestEffort
    exact ⟨_, CgroupRequest.reported_bestEffortPod⟩

/-- The requests for both pods are under way; the first client has been answered. -/
theorem serves_twoClients (node : Node) : Serves Machine.permissive [] NodeHost.twoPods
    Decoders.twoPods TwoClients node
    ⟨[.ret (Program.run Machine.permissive.exec (goroutine [] NodeHost.twoPods Decoders.twoPods
        (twoPodsPost "burstable")) node).1,
      goroutine [] NodeHost.twoPods Decoders.twoPods (twoPodsPost "besteffort")],
    (Program.run Machine.permissive.exec (goroutine [] NodeHost.twoPods Decoders.twoPods
      (twoPodsPost "burstable")) node).2⟩ := by
  have hnone : Serves Machine.permissive [] NodeHost.twoPods Decoders.twoPods TwoClients node
      ⟨[], node⟩ := .refl
  exact ((hnone.start (Or.inl rfl)).start (Or.inr rfl)).run (i := 0) rfl

theorem pod_isolated_sample : ∃ part : ServerPool,
    Serves Machine.permissive [] NodeHost.twoPods Decoders.twoPods
      (fun r => TwoClients r ∧ ForPod NodeHost.twoPods Decoders.twoPods
        CgroupRequest.burstablePod.sliceGroup r) ⟨sampleFiles 1000000 0 "0 0", []⟩ part := by
  obtain ⟨part, hpart, -⟩ := pod_isolated (fun _ _ _ _ _ => rfl)
    (fun r hr => wellReported_twoClients hr)
    (serves_twoClients ⟨sampleFiles 1000000 0 "0 0", []⟩) CgroupRequest.burstablePod.sliceGroup
  exact ⟨part, hpart⟩

end NodeActuator
end McKube
