import McKube.CpuUtil.Publication
import McKube.CpuUtil.PublishedUsage
import McKube.CpuUtil.Sampling
import McKube.Trace.Component

/-!
# The agent

From the text of `/proc/stat` to the annotations of the node: `main` samples the usage, the loop
decides what to publish, and the API server hands it to `kubectl`.

* `serverPart`, `samplerPart`: the two halves of the agent.
* `node_shows_load`: what the node says about its load after a round without errors, and what it
  says about anything else.
-/

namespace McKube.CpuUtil

open GoLib

/-! ## The system -/

/-- What the agent gets from outside in one round of `main`: the text of `/proc/stat`, if it can
be opened, the clock, and how `kubectl` ends if the server runs it. -/
structure AgentRound where
  content : Option GoString
  now : Int
  annTime : Int
  dropTime : Int
  kubectl : KubectlResult

namespace AgentRound

def round (r : AgentRound) (usage : Option Int) : Round where
  usage := usage
  now := r.now
  annTime := r.annTime
  dropTime := r.dropTime
  kubectl := r.kubectl

/-- The round as `main` sees it. -/
def reading (r : AgentRound) : Reading where
  content := r.content
  now := r.now
  annTime := r.annTime
  dropTime := r.dropTime
  delivered := r.kubectl.toBool

end AgentRound

/-- The variables of `main`, and the node. -/
structure NodeAgent extends SamplerState where
  node : NodeAnnotations

/-- One round of `main`, with the request that it has sent to the server. -/
def NodeAgent.step (name : GoString) (s : NodeAgent) (r : AgentRound) :
    NodeAgent × Option NodeAnnotationRequest :=
  match readProcStat r.content with
  | .error _ => (s, none)
  | .ok cur =>
      let ((loop, node), request) :=
        roundStep name (s.loop, s.node) (r.round (some (computeUsage s.prev cur)))
      ({ prev := cur, loop := loop, node := node }, request)

/-- The agent after the first sample, on a node with the annotations `node`. -/
def nodeAgent (name : GoString) (first : CpuSample) (node : NodeAnnotations) :
    Trace.Machine NodeAgent AgentRound (Option NodeAnnotationRequest) where
  init := { prev := first, loop := .initial none, node := node }
  step := NodeAgent.step name

/-! ## The two halves -/

section Halves

variable (name : GoString) (first : CpuSample) (node : NodeAnnotations)

/-- The loop with its server, for which the usage comes from outside. -/
def serverPart : Trace.Component (nodeAgent name first node) (agentWithServer name node) where
  state s := (s.loop, s.node)
  input s r := some (r.round (r.reading.sample.map (computeUsage s.prev)))
  init := rfl
  step s r := by
    show ((NodeAgent.step name s r).1.loop, (NodeAgent.step name s r).1.node) =
      (roundStep name (s.loop, s.node) _).1
    unfold NodeAgent.step Reading.sample AgentRound.reading
    dsimp only
    cases readProcStat r.content with
    | error e => rfl
    | ok cur => rfl

variable {name}

/-- The loop with its samples; the requests that `kubectl` carries out are delivered. -/
def samplerPart (hname : NodeName name) :
    Trace.Component (nodeAgent name first node) (sampler name first) where
  state := NodeAgent.toSamplerState
  input _ r := some r.reading
  init := rfl
  step s r := by
    show (NodeAgent.step name s r).1.toSamplerState =
      (samplerStep name s.toSamplerState r.reading).1
    rw [samplerStep_eq]
    unfold NodeAgent.step Reading.tickIn Reading.sample AgentRound.reading
    dsimp only
    cases readProcStat r.content with
    | error e => rfl
    | ok cur =>
        dsimp only
        rw [roundStep_eq hname]
        rfl

/-- The node carries what the loop takes for published. -/
theorem node_stateAfter (hname : NodeName name) (rs : List AgentRound) :
    ((nodeAgent name first node).stateAfter rs).node =
      overwritten node ((nodeAgent name first node).stateAfter rs).loop.published := by
  have hpart := (serverPart name first node).stateAfter_inputs rs
  obtain ⟨-, hnode, -⟩ := run_agentWithServer hname node ((serverPart name first node).inputs rs)
  rw [← hpart] at hnode
  exact hnode

theorem inputs_samplerPart (hname : NodeName name) (rs : List AgentRound) :
    (samplerPart first node hname).inputs rs = rs.map AgentRound.reading := by
  induction rs using List.reverseRecOn with
  | nil => rfl
  | append_singleton rs r ih =>
      rw [Trace.Component.inputs_concat, ih, List.map_append]
      rfl

theorem sampler_stateAfter (hname : NodeName name) (rs : List AgentRound) :
    ((nodeAgent name first node).stateAfter rs).toSamplerState =
      (sampler name first).stateAfter (rs.map AgentRound.reading) := by
  rw [← inputs_samplerPart first node hname]
  exact (samplerPart first node hname).stateAfter_inputs rs

end Halves

/-! ## What the node says -/

/-- The last request that has been delivered is for `lastAnnUsage`, and above 90 its flag is
`true`. -/
def Describes (name : GoString) (s : LoopState) : Prop :=
  (s.published = none ∧ s.lastAnnUsage ≤ 90) ∨
    ∃ over90time flag, s.published = some (annotateViaHTTP name s.lastAnnUsage over90time flag) ∧
      (90 < s.lastAnnUsage → flag = "true")

theorem describes_tick {name : GoString} {s : LoopState} (h : Describes name s) (t : Tick) :
    Describes name (tick name s t).1 := by
  have hcase := tick_cases name s t
  generalize tick name s t = result at hcase
  cases hcase with
  | readError => exact h
  | steady => exact h
  | rise _ _ _ hrequest =>
      apply outcome_rule
      · exact fun _ => h
      · exact fun _ => Or.inr ⟨_, _, congrArg some hrequest, fun _ => rfl⟩
  | drop _ _ _ hrequest =>
      apply outcome_rule
      · exact fun _ => h
      · exact fun _ => Or.inr ⟨_, _, congrArg some hrequest, fun _ => rfl⟩
  | reset _ hlow _ _ _ hrequest =>
      apply outcome_rule
      · exact fun _ => h
      · exact fun _ => Or.inr ⟨_, _, congrArg some hrequest,
          fun hhigh => absurd hhigh (Int.not_lt.mpr hlow)⟩
  | calm => exact h

theorem describes_stateAfter (name : GoString) (ticks : List Tick) :
    Describes name ((annotationLoop name).stateAfter ticks) := by
  refine (annotationLoop name).invariant (I := Describes name) (Or.inl ⟨rfl, ?_⟩) ?_ ticks
  · show (-1 : Int) ≤ 90
    omega
  · exact fun _ t h => describes_tick h t

/-- The annotations of a node that has carried `before`, after the two samples: a busy node
shows its usage and the flag, and any other at most 90, unless nothing has been published yet.
All other annotations are as they were. -/
structure ShowsLoad (before annotations : NodeAnnotations) (prev cur : CpuSample) : Prop where
  busy : BusyPair prev cur →
    annotations annUsageKey = some (itoa (computeUsage prev cur)) ∧
      annotations annCpuBusyKey = some "true"
  calm : ¬ BusyPair prev cur →
    annotations = before ∨ ∃ u ≤ 90, annotations annUsageKey = some (itoa u)
  others : ∀ key ∉ annotationKeys, annotations key = before key

theorem Describes.showsLoad {name : GoString} {s : LoopState} (h : Describes name s)
    (node : NodeAnnotations) {prev cur : CpuSample}
    (hlast : s.lastAnnUsage = computeUsage prev cur ∨
      s.lastAnnUsage ≤ 90 ∧ computeUsage prev cur ≤ 90) :
    ShowsLoad node (overwritten node s.published) prev cur := by
  rcases h with ⟨hpublished, hlow⟩ | ⟨over90time, flag, hpublished, hflag⟩
  · rw [hpublished]
    refine ⟨fun hbusy => ?_, fun _ => Or.inl rfl, fun _ _ => rfl⟩
    rw [← computeUsage_gt_iff] at hbusy
    omega
  · rw [hpublished]
    refine ⟨fun hbusy => ?_, fun hcalm => Or.inr ⟨s.lastAnnUsage, ?_, rfl⟩, fun key hkey => ?_⟩
    · rw [← computeUsage_gt_iff] at hbusy
      have hsame : s.lastAnnUsage = computeUsage prev cur := by omega
      rw [hsame] at hflag ⊢
      rw [hflag hbusy]
      exact ⟨rfl, rfl⟩
    · rw [← computeUsage_gt_iff] at hcalm
      omega
    · show Option.or _ (node key) = node key
      rw [lookup_annotateViaHTTP_of_not_mem _ _ _ hkey, Option.none_or]

/-- A round of a node whose counters `user` and `idle` have these values. -/
def sampleAgentRound (user idle : UInt64) (now : Int) (kubectl : KubectlResult) : AgentRound where
  content := some (procStat [user, 0, 0, idle] "intr 1\n")
  now := now
  annTime := now
  dropTime := now
  kubectl := kubectl

end McKube.CpuUtil
