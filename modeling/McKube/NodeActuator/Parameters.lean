import McKube.Atomic.Register
import McKube.NodeActuator.PodIsolation

/-!
# The parameters of a cgroup

The period, the runtime, the runtime of one CPU and the CPU set of a cgroup are set by requests
that the server handles side by side.

* `parameter_written`: a parameter shows nothing that no request has asked for.
* `parameter_current`: when a request has been answered with success, its parameters show what
  it has asked for, or what a request asks for that was under way together with it or came
  later.
-/

namespace McKube
namespace NodeActuator

open AtomicProgram GoLib
open GoLib.filepath (join components rootPath Plain)

/-! ## Parameters -/

/-- What a request sets of a cgroup. -/
inductive Parameter where
  | period
  | runtime
  | coreRuntime (cpu : Nat)
  | cpuSet
  deriving DecidableEq, Repr

namespace Parameter

/-- The control file of the parameter. -/
def file : Parameter → GoString
  | .period => cgroupRTPeriod
  | .runtime => cgroupRTRuntime
  | .coreRuntime _ => cgroupRTMultiRuntime
  | .cpuSet => cgroupCPUSet

/-- The value of the parameter in the content of its file. -/
def read : Parameter → GoString → Option GoString
  | .period, content => (sscanfInt (trimSpace content)).map itoa
  | .runtime, content => (sscanfInt (trimSpace content)).map itoa
  | .coreRuntime cpu, content => (fields content)[cpu]?
  | .cpuSet, content => some (trimSpace content)

/-- The parameter as a cgroup shows it. -/
def shown (param : Parameter) (cgPath : GoString) (files : Files) : Option GoString :=
  (files (join [cgPath, param.file])).bind param.read

theorem file_mem (param : Parameter) : param.file ∈ controlFiles := by
  cases param
  · exact (by decide : cgroupRTPeriod ∈ controlFiles)
  · exact (by decide : cgroupRTRuntime ∈ controlFiles)
  · exact (by decide : cgroupRTMultiRuntime ∈ controlFiles)
  · exact (by decide : cgroupCPUSet ∈ controlFiles)

theorem shown_of_onFile {param : Parameter} {cgPath value : GoString} {files : Files}
    (h : OnFile (join [cgPath, param.file]) (fun content => param.read content = some value)
      files) : param.shown cgPath files = some value := by
  obtain ⟨content, hfile, hread⟩ := h
  rw [shown, hfile, Option.bind_some, hread]

/-- A cgroup is known by the components of its path. -/
theorem shown_congr {param : Parameter} {cgPath cgPath' : GoString} (hrooted : Rooted cgPath)
    (hrooted' : Rooted cgPath') (h : components cgPath = components cgPath') :
    param.shown cgPath = param.shown cgPath' := by
  have hplain := plain_of_mem_controlFiles param.file_mem
  have hjoin : join [cgPath, param.file] = join [cgPath', param.file] := by
    rw [filepath.join_rooted hrooted hplain, filepath.join_rooted hrooted' hplain, h]
  funext files
  rw [shown, shown, hjoin]

end Parameter

/-! ## What a request sets -/

namespace CgroupRequest

variable {k : Kernel} {host : Host} {req : CgroupRequest} {param : Parameter}
  {containerCgPath podCgPath cgPath value : GoString}

/-- The value that the request gives to the parameter, if it sets it. -/
def sets (k : Kernel) (req : CgroupRequest) : Parameter → Option GoString
  | .period => if req.onlyRuntime then none else some (itoa req.period)
  | .runtime =>
      match req.core with
      | some _ => none
      | none => some (itoa req.grantedRuntime)
  | .coreRuntime cpu =>
      match req.core.bind k.cpulist with
      | some named => if cpu ∈ named then some (itoa req.grantedRuntime) else none
      | none => none
  | .cpuSet => if req.onlyRuntime then none else req.core.map trimSpace

theorem sets_period :
    req.sets k .period = some value ↔ req.onlyRuntime = false ∧ itoa req.period = value := by
  unfold sets
  cases req.onlyRuntime <;> simp

theorem sets_runtime :
    req.sets k .runtime = some value ↔ req.core = none ∧ itoa req.grantedRuntime = value := by
  unfold sets
  cases req.core <;> simp

theorem sets_cpuSet : req.sets k .cpuSet = some value ↔
    req.onlyRuntime = false ∧ ∃ cpus, req.core = some cpus ∧ trimSpace cpus = value := by
  unfold sets
  cases req.onlyRuntime <;> simp [Option.map_eq_some_iff]

/-- The three writes of a request. -/
theorem controlWrites_cases {name : GoString}
    (h : (name, value) ∈ controlWrites req.period req.runtime req.core req.onlyRuntime) :
    (name = runtimeFile req.core ∧ value = runtimeText req.grantedRuntime req.core) ∨
      (req.onlyRuntime = false ∧ name = cgroupRTPeriod ∧ value = itoa req.period) ∨
      (req.onlyRuntime = false ∧ name = cgroupCPUSet ∧ req.core = some value) := by
  rcases List.mem_cons.mp h with hruntime | hrest
  · exact Or.inl (Prod.mk.inj hruntime)
  · right
    cases hmode : req.onlyRuntime with
    | true =>
        rw [hmode] at hrest
        cases hrest
    | false =>
        rw [hmode, if_neg Bool.false_ne_true] at hrest
        rcases List.mem_cons.mp hrest with hperiod | hcpuSet
        · exact Or.inl ⟨rfl, Prod.mk.inj hperiod⟩
        · right
          cases hcore : req.core with
          | none =>
              rw [hcore] at hcpuSet
              cases hcpuSet
          | some cpus =>
              rw [hcore] at hcpuSet
              obtain ⟨hname, rfl⟩ := Prod.mk.inj (List.mem_singleton.mp hcpuSet)
              exact ⟨rfl, hname, rfl⟩

theorem ne_runtimeFile {name : GoString} {core : Option GoString}
    (h : name ∉ [cgroupRTRuntime, cgroupRTMultiRuntime]) : name ≠ runtimeFile core := by
  rintro rfl
  cases core with
  | none => exact h List.mem_cons_self
  | some cpus => exact h (List.mem_cons_of_mem _ List.mem_cons_self)

/-- The slot of a CPU after a write to `cpu.rt_multi_runtime_us`. -/
theorem read_coreRuntime (cpu : Nat) {cpus old new : GoString} (hrooted : Rooted cgPath)
    (hcore : req.core = some cpus)
    (h : k.stored (join [cgPath, cgroupRTMultiRuntime]) old
      (cpus ++ ' ' :: itoa req.grantedRuntime) = some new) :
    (Parameter.coreRuntime cpu).read new =
      match req.sets k (.coreRuntime cpu) with
      | some v => some v
      | none => (Parameter.coreRuntime cpu).read old := by
  rw [k.stored_multiRuntime hrooted] at h
  obtain ⟨named, hnamed, hbound, hfields⟩ := k.multiRuntime_eq_some h
  simp only [sets, Parameter.read, hcore, Option.bind_some, hnamed, hfields, getElem?_setSlots]
  by_cases hmem : cpu ∈ named
  · simp [hmem, hbound cpu hmem]
  · simp [hmem]

/-- A write of the request to the file of the parameter sets it, or leaves it alone. -/
theorem read_of_stored (hrooted : Rooted cgPath)
    (hvalue : (param.file, value) ∈ controlWrites req.period req.runtime req.core req.onlyRuntime)
    {old new : GoString} (h : k.stored (join [cgPath, param.file]) old value = some new) :
    param.read new = param.read old ∨
      ∃ v, req.sets k param = some v ∧ param.read new = some v := by
  cases param with
  | period =>
      rcases controlWrites_cases hvalue with ⟨hfile, -⟩ | ⟨hmode, -, rfl⟩ | ⟨-, hfile, -⟩
      · exact absurd hfile (ne_runtimeFile (by decide))
      · have hshows : sscanfInt (trimSpace new) = some req.period :=
          shows_of_stored hrooted (by decide) (by decide) req.period_inInt _ _ h
        exact Or.inr ⟨itoa req.period, sets_period.mpr ⟨hmode, rfl⟩,
          by rw [Parameter.read, hshows, Option.map_some]⟩
      · exact absurd hfile (by decide)
  | runtime =>
      rcases controlWrites_cases hvalue with ⟨hfile, rfl⟩ | ⟨-, hfile, -⟩ | ⟨-, hfile, -⟩
      · cases hcore : req.core with
        | some cpus =>
            rw [hcore] at hfile
            exact absurd hfile (by decide : cgroupRTRuntime ≠ cgroupRTMultiRuntime)
        | none =>
            rw [hcore] at h
            have hshows : sscanfInt (trimSpace new) = some req.grantedRuntime :=
              shows_of_stored hrooted (by decide) (by decide) req.inInt_grantedRuntime _ _ h
            exact Or.inr ⟨itoa req.grantedRuntime, sets_runtime.mpr ⟨hcore, rfl⟩,
              by rw [Parameter.read, hshows, Option.map_some]⟩
      · exact absurd hfile (by decide)
      · exact absurd hfile (by decide)
  | coreRuntime cpu =>
      rcases controlWrites_cases hvalue with ⟨hfile, rfl⟩ | ⟨-, hfile, -⟩ | ⟨-, hfile, -⟩
      · cases hcore : req.core with
        | none =>
            rw [hcore] at hfile
            exact absurd hfile (by decide : cgroupRTMultiRuntime ≠ cgroupRTRuntime)
        | some cpus =>
            rw [hcore] at h
            have hread := read_coreRuntime cpu hrooted hcore h
            cases hsets : req.sets k (.coreRuntime cpu) with
            | none =>
                rw [hsets] at hread
                exact Or.inl hread
            | some v =>
                rw [hsets] at hread
                exact Or.inr ⟨v, rfl, hread⟩
      · exact absurd hfile (by decide : cgroupRTMultiRuntime ≠ cgroupRTPeriod)
      · exact absurd hfile (by decide : cgroupRTMultiRuntime ≠ cgroupCPUSet)
  | cpuSet =>
      rcases controlWrites_cases hvalue with ⟨hfile, -⟩ | ⟨-, hfile, -⟩ | ⟨hmode, -, hcore⟩
      · exact absurd hfile (ne_runtimeFile (by decide))
      · exact absurd hfile (by decide)
      · exact Or.inr ⟨trimSpace value, sets_cpuSet.mpr ⟨hmode, value, hcore, rfl⟩,
          by rw [Parameter.read, trimSpace_of_stored hrooted h]⟩

/-- An action of the request puts its value into the parameter, and only into those of its two
cgroups. -/
theorem puts_of_requestAction (hpaths : Resolves host req.containerID containerCgPath podCgPath)
    (hrooted : Rooted cgPath) {op : FileOp}
    (hop : RequestAction containerCgPath podCgPath req.period req.runtime req.core
      req.onlyRuntime op) (files : Files) :
    Puts (param.shown cgPath) (fun v => req.sets k param = some v ∧
      (components cgPath = components containerCgPath ∨ components cgPath = components podCgPath))
      files (k.exec op files).2 := by
  by_cases hcgroup : components cgPath = components containerCgPath ∨
      components cgPath = components podCgPath
  · rcases requestAction_cases (k := k) hpaths.rooted.1 hpaths.rooted.2 hrooted param.file_mem hop
      files with hsame | ⟨text, old, new, htext, hold, hstored, hnew⟩
    · left
      rw [Parameter.shown, hsame, Parameter.shown]
    · simp only [Puts, Parameter.shown, hold, hnew, Option.bind_some]
      exact (read_of_stored hrooted htext hstored).imp_right
        fun ⟨v, hsets, hread⟩ => ⟨v, ⟨hsets, hcgroup⟩, hread⟩
  · -- the file belongs to another cgroup
    left
    suffices hsame : (k.exec op files).2 (join [cgPath, param.file]) =
        files (join [cgPath, param.file]) by
      rw [Parameter.shown, hsame, Parameter.shown]
    cases op with
    | stat path => rw [k.exec_stat_state]
    | readFile path => rw [k.exec_readFile_state]
    | writeFile path text =>
        apply k.exec_writeFile_other
        intro heq
        apply hcgroup
        rcases hop with hshared | ⟨name, hname, rfl⟩ | ⟨name, hname, rfl⟩
        · exact hshared.elim
        · exact Or.inl (join_eq_join hrooted hpaths.rooted.1 param.file_mem
            (mem_controlFiles_of_mem_controlWrites hname) heq).1
        · exact Or.inr (join_eq_join hrooted hpaths.rooted.2 param.file_mem
            (mem_controlFiles_of_mem_controlWrites hname) heq).1

/-- A successful request has passed a moment at which the parameter showed its value. -/
theorem establishes_sets (hpaths : Resolves host req.containerID containerCgPath podCgPath)
    (hcgroup : cgPath = containerCgPath ∨ cgPath = podCgPath)
    (hsets : req.sets k param = some value) :
    (req.apply host).run.Establishes k.exec (fun files => param.shown cgPath files = some value)
      Fallible.Succeeded := by
  have hrooted := hpaths.rooted_of hcgroup
  suffices hfile : (req.apply host).run.Establishes k.exec
      (OnFile (join [cgPath, param.file]) fun content => param.read content = some value)
      Fallible.Succeeded from hfile.mono fun _ hs => Parameter.shown_of_onFile hs
  cases param with
  | period =>
      obtain ⟨hmode, rfl⟩ := sets_period.mp hsets
      refine (establishes_period hpaths hcgroup hmode).mono (OnFile.mono fun content hshows => ?_)
      rw [Parameter.read, hshows, Option.map_some]
  | runtime =>
      obtain ⟨hcore, rfl⟩ := sets_runtime.mp hsets
      have hruntime := establishes_runtime (k := k) (P := Shows req.grantedRuntime) hpaths hcgroup
      rw [hcore] at hruntime
      refine (hruntime (shows_of_stored hrooted (by decide) (by decide)
        req.inInt_grantedRuntime)).mono (OnFile.mono fun content hshows => ?_)
      rw [Parameter.read, hshows, Option.map_some]
  | coreRuntime cpu =>
      cases hcore : req.core with
      | none =>
          rw [sets, hcore, Option.bind_none] at hsets
          cases hsets
      | some cpus =>
          have hruntime := establishes_runtime (k := k)
            (P := fun content => (Parameter.coreRuntime cpu).read content = some value)
            hpaths hcgroup
          rw [hcore] at hruntime
          refine hruntime fun old new hstored => ?_
          rw [read_coreRuntime cpu hrooted hcore hstored, hsets]
  | cpuSet =>
      obtain ⟨hmode, cpus, hcore, rfl⟩ := sets_cpuSet.mp hsets
      refine (establishes_cpuSet hpaths hcgroup hmode hcore).mono
        (OnFile.mono fun content htrim => ?_)
      rw [Parameter.read, htrim]

end CgroupRequest

/-! ## Requests to the server -/

section Requests

variable {m : Machine} {envToken : GoString} {host : NodeHost} {decoders : Decoders}
  {r : ServerRequest} {cgPath value : GoString} {param : Parameter}
  {Arrives Later : ServerRequest → Prop} {node : Node} {pool pool' : ServerPool}

/-- The request asks for this value of a parameter of the cgroup. -/
def AsksFor (k : Kernel) (host : NodeHost) (decoders : Decoders) (cgPath : GoString)
    (param : Parameter) (r : ServerRequest) (value : GoString) : Prop :=
  ∃ req, AsksForCgroup decoders r req ∧ ∃ containerCgPath podCgPath,
    Resolves host.toHost req.containerID containerCgPath podCgPath ∧
    req.sets k param = some value ∧
    (components cgPath = components containerCgPath ∨ components cgPath = components podCgPath)

/-- A request asks for one value. -/
theorem AsksFor.unique {k : Kernel} {value' : GoString}
    (h : AsksFor k host decoders cgPath param r value)
    (h' : AsksFor k host decoders cgPath param r value') : value = value' := by
  obtain ⟨req, hasks, -, -, -, hsets, -⟩ := h
  obtain ⟨req', hasks', -, -, -, hsets', -⟩ := h'
  obtain rfl := hasks.unique hasks'
  exact Option.some.inj (hsets.symm.trans hsets')

/-- The register of a parameter. -/
def shownOn (param : Parameter) (cgPath : GoString) (node : Node) : Option GoString :=
  param.shown cgPath node.files

theorem writesOnly_goroutine (hrooted : Rooted cgPath) (r : ServerRequest) :
    (goroutine envToken host decoders r).WritesOnly m.exec (shownOn param cgPath)
      (AsksFor m.toKernel host decoders cgPath param r) := by
  have hread : ∀ op : FileOp, ¬ op.IsWrite → ∀ s : Node,
      Puts (shownOn param cgPath) (AsksFor m.toKernel host decoders cgPath param r) s
        (m.exec (.file op) s).2 := by
    intro op hop s
    left
    show param.shown cgPath (m.toKernel.exec op s.files).2 = param.shown cgPath s.files
    rw [m.toKernel.exec_state_of_not_write hop]
  refine performs_goroutine (hread _ fun hwrite => hwrite) ?_ ?_
  · rintro op ⟨req, hasks, hshared | ⟨c, p, hpaths, hop⟩⟩ s
    · refine hread op (fun hwrite => ?_) s
      cases op with
      | stat path => exact hwrite
      | readFile path => exact hwrite
      | writeFile path text => exact hshared
    · exact (CgroupRequest.puts_of_requestAction hpaths hrooted hop s.files).mono
        fun v ⟨hsets, hcgroup⟩ => ⟨req, hasks, c, p, hpaths, hsets, hcgroup⟩
  · rintro op ⟨req, pidStr, -, -, rfl⟩ s
    left
    simp only [Machine.exec]
    split <;> rfl

theorem establishes_sets_goroutine (hrooted : Rooted cgPath)
    (hsets : AsksFor m.toKernel host decoders cgPath param r value) :
    (goroutine envToken host decoders r).Establishes m.exec
      (fun node => shownOn param cgPath node = some value) AnsweredOk := by
  obtain ⟨req, hasks, c, p, hpaths, hvalue, hcgroup⟩ := hsets
  obtain ⟨target, htarget, hcomponents⟩ :
      ∃ target, (target = c ∨ target = p) ∧ components cgPath = components target := by
    rcases hcgroup with hc | hp
    · exact ⟨c, Or.inl rfl, hc⟩
    · exact ⟨p, Or.inr rfl, hp⟩
  have hshown : param.shown cgPath = param.shown target :=
    Parameter.shown_congr hrooted (hpaths.rooted_of htarget) hcomponents
  unfold shownOn
  rw [hshown]
  exact establishes_goroutine hasks (CgroupRequest.establishes_sets hpaths htarget hvalue)

/-- A parameter shows what it has shown at first, or what a request has asked for. -/
theorem parameter_written (hrooted : Rooted cgPath)
    (h : Serves m envToken host decoders Arrives node pool) :
    param.shown cgPath pool.state.files = param.shown cgPath node.files ∨
      ∃ r, Arrives r ∧ ∃ v, AsksFor m.toKernel host decoders cgPath param r v ∧
        param.shown cgPath pool.state.files = some v := by
  have hreaches : Pool.Reaches m.exec
      (fun p => ∃ r, Arrives r ∧ p = goroutine envToken host decoders r) ⟨[], node⟩ pool := h
  have hwritten : Puts (shownOn param cgPath) (fun v =>
      ∃ r, Arrives r ∧ AsksFor m.toKernel host decoders cgPath param r v) node pool.state := by
    refine hreaches.register_written (by simp) ?_
    rintro p ⟨r, hr, rfl⟩
    exact (writesOnly_goroutine hrooted r).mono fun v hsets => ⟨r, hr, hsets⟩
  exact hwritten.imp_right fun ⟨v, ⟨r, hr, hsets⟩, hshows⟩ => ⟨r, hr, v, hsets, hshows⟩

/-- A goroutine of the request has not returned yet. -/
def UnderWay (pool : ServerPool) (r : ServerRequest) : Prop :=
  ∃ q ∈ pool.programs, (∀ result, q ≠ .ret result) ∧ q.Returns fun result => result.1 = r

/-- What a goroutine can still write it writes for its request, which is under way. -/
theorem writesOnly_underWay (hrooted : Rooted cgPath)
    (h : Serves m envToken host decoders Arrives node pool) :
    ∀ q ∈ pool.programs, q.WritesOnly m.exec (shownOn param cgPath) fun v =>
      ∃ r, UnderWay pool r ∧ AsksFor m.toKernel host decoders cgPath param r v := by
  have hreaches : Pool.Reaches m.exec
      (fun p => ∃ r, Arrives r ∧ p = goroutine envToken host decoders r) ⟨[], node⟩ pool := h
  have howned : ∀ q ∈ pool.programs, ∃ r,
      q.WritesOnly m.exec (shownOn param cgPath) (AsksFor m.toKernel host decoders cgPath param r) ∧
        q.Returns fun result => result.1 = r := by
    refine hreaches.forall_programs (by simp) ?_ ?_
    · rintro p ⟨r, -, rfl⟩
      exact ⟨r, writesOnly_goroutine hrooted r, returns_goroutine r⟩
    · rintro op next answer ⟨r, hwrites, hreturns⟩
      exact ⟨r, hwrites.2 answer, hreturns answer⟩
  intro q hq
  obtain ⟨r, hwrites, hreturns⟩ := howned q hq
  cases q with
  | ret result => exact trivial
  | act op next =>
      refine hwrites.mono fun v hsets => ⟨r, ⟨_, hq, fun result heq => ?_, hreturns⟩, hsets⟩
      cases heq

/-- A request has been answered with success.  What its parameters have shown before it is gone
for good: they show what it has asked for, or what a request asks for that was under way when
it came in, or has come in since. -/
theorem parameter_current {response : HttpResponse} (hrooted : Rooted cgPath)
    (h : Serves m envToken host decoders Arrives node pool)
    (hsets : AsksFor m.toKernel host decoders cgPath param r value)
    (hlater : Pool.Reaches m.exec (fun p => ∃ r, Later r ∧ p = goroutine envToken host decoders r)
      ⟨pool.programs ++ [goroutine envToken host decoders r], pool.state⟩ pool')
    (hanswered : pool'.programs[pool.programs.length]? = some (.ret (r, response)))
    (hok : response.status = 200) :
    ∃ v, param.shown cgPath pool'.state.files = some v ∧
      (v = value ∨ ∃ r', (UnderWay pool r' ∨ Later r') ∧
        AsksFor m.toKernel host decoders cgPath param r' v) := by
  have hsuccess : AnsweredOk (r, response) := hok
  have hcurrent : ShowsOneOf (shownOn param cgPath) (fun v => v = value ∨
      ∃ r', (UnderWay pool r' ∨ Later r') ∧ AsksFor m.toKernel host decoders cgPath param r' v)
      pool'.state := by
    refine hlater.register_current ?_ ?_ ?_ ?_ hanswered hsuccess
    · intro q hq
      exact (writesOnly_underWay hrooted h q hq).mono
        fun v ⟨r', hr', hsets'⟩ => Or.inr ⟨r', Or.inl hr', hsets'⟩
    · rintro p ⟨r', hr', rfl⟩
      exact (writesOnly_goroutine hrooted r').mono
        fun v hsets' => Or.inr ⟨r', Or.inr hr', hsets'⟩
    · exact (writesOnly_goroutine hrooted r).mono fun v hsets' => Or.inl (hsets'.unique hsets)
    · exact (establishes_sets_goroutine hrooted hsets).mono
        fun s hs => ⟨value, Or.inl rfl, hs⟩
  obtain ⟨v, hv, hshows⟩ := hcurrent
  exact ⟨v, hshows, hv⟩

theorem run_goroutine (m : Machine) (envToken : GoString) (host : NodeHost) (decoders : Decoders)
    (r : ServerRequest) (node : Node) :
    (Program.run m.exec (goroutine envToken host decoders r) node).1 =
      (r, (Program.run m.exec (serve envToken host decoders r) node).1) := by
  unfold goroutine
  rw [Program.run_bind, Program.run_ret]

/-- A second attempt succeeds while the first one has not begun. -/
theorem parameter_current_sample : ∃ v,
    (Parameter.coreRuntime 1).shown samplePodPath (Program.run Machine.permissive.exec
      (goroutine "t" NodeHost.sample Decoders.sample (samplePost "/cgroup")) sampleNode).2.files =
        some v ∧
      (v = ("200000" : GoString) ∨ ∃ r', (UnderWay
        ⟨[goroutine "t" NodeHost.sample Decoders.sample (samplePost "/cgroup")], sampleNode⟩ r' ∨
          False) ∧
        AsksFor Kernel.permissive NodeHost.sample Decoders.sample samplePodPath (.coreRuntime 1)
          r' v) := by
  have hnone : Serves Machine.permissive "t" NodeHost.sample Decoders.sample
      (· = samplePost "/cgroup") sampleNode ⟨[], sampleNode⟩ := .refl
  have hone := hnone.start rfl
  have hasks : AsksForCgroup Decoders.sample (samplePost "/cgroup") CgroupRequest.sample :=
    ⟨by decide +kernel, rfl, _, rfl, rfl, by decide⟩
  have hsets : AsksFor Machine.permissive.toKernel NodeHost.sample Decoders.sample samplePodPath
      (.coreRuntime 1) (samplePost "/cgroup") "200000" :=
    ⟨CgroupRequest.sample, hasks, _, _, resolves_sample _, by decide +kernel, Or.inr rfl⟩
  have hresult := run_goroutine Machine.permissive "t" NodeHost.sample Decoders.sample
    (samplePost "/cgroup") sampleNode
  have hlater : Pool.Reaches Machine.permissive.exec (fun p => ∃ r, False ∧
        p = goroutine "t" NodeHost.sample Decoders.sample r)
      ⟨[goroutine "t" NodeHost.sample Decoders.sample (samplePost "/cgroup"),
        goroutine "t" NodeHost.sample Decoders.sample (samplePost "/cgroup")], sampleNode⟩ _ :=
    Pool.reaches_run (i := 1) rfl sampleNode
  exact parameter_current (by decide) hone hsets hlater
    (congrArg (fun result => some (Program.ret result)) hresult) (by decide +kernel)

end Requests

end NodeActuator
end McKube
