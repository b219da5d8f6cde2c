import McKube.CpuUtil.ApiServer

/-!
# Handlers that outlive their call

`annotateViaHTTP` gives up after three seconds, but the handler of its request
goes on, and sets the annotations when its `kubectl` runs.  No request tells the
server that it is older than another one.

* `event_cases`: what an event can do to the handlers and to the node.
* `carries_of_succeeded`: after a call that succeeded, the node carries its values
  or those of a request that was still being handled when the call was sent.
-/

namespace McKube.CpuUtil

open GoLib

/-! ## The agent and the server -/

/-- One call of `annotateViaHTTP`: its number and request, and the round of the
loop that it belongs to. -/
structure Call where
  id : Nat
  request : NodeAnnotationRequest
  usage : Option Int
  sentAt : Int

/-- The agent, the handlers that run in its API server, and the node. -/
structure AgentState where
  clock : Int
  loop : LoopState
  calls : Nat
  waiting : Option Call
  response : Option Response
  lastSucceeded : Option Bool
  handlers : List Call
  node : NodeAnnotations

/-- What happens next. -/
inductive Event where
  | elapse (duration : Nat)
  | sample (usage : Option Int)
  | handle (id : Nat) (kubectl : KubectlResult)
  | receive
  | giveUp

/-- The timeout of `annotateViaHTTP`. -/
def requestTimeout : Int := 3 * second

/-- The round of a sample that is taken at the time `now`, when its call returns
at the time `returned`. -/
def roundOf (usage : Option Int) (now returned : Int) (delivered : Bool) : Tick where
  usage := usage
  now := now
  annTime := returned
  dropTime := returned
  delivered := delivered

namespace AgentState

variable (nodeName : GoString) (s : AgentState)

/-- The loop takes a sample when no call is under way, and may send a request. -/
def sample (usage : Option Int) : AgentState × Option NodeAnnotationRequest :=
  match s.waiting with
  | some _ => (s, none)
  | none =>
      match tick nodeName s.loop (roundOf usage s.clock s.clock false) with
      | (loop, none) => ({ s with loop := loop }, none)
      | (_, some request) =>
          let call : Call :=
            { id := s.calls, request := request, usage := usage, sentAt := s.clock }
          -- the handler runs from here on, until `handle`
          ({ s with
            calls := s.calls + 1
            waiting := some call
            response := none
            handlers := call :: s.handlers }, some request)

/-- The handler of the request `id` runs `kubectl` and answers; nobody may wait
for the answer any more. -/
def handle (id : Nat) (kubectl : KubectlResult) : AgentState :=
  match s.handlers.find? fun call => call.id == id with
  | none => s
  | some call =>
      let result := handleNodeAnnotations nodeName "PATCH" (some call.request.annotations)
        kubectl s.node
      { s with
        response := if s.waiting.any fun own => own.id == id then some result.1 else s.response
        handlers := s.handlers.filter fun call => call.id != id
        node := result.2 }

/-- The call returns, and the loop ends its round. -/
def finish (call : Call) (delivered : Bool) : AgentState :=
  { s with
    loop := (tick nodeName s.loop (roundOf call.usage call.sentAt s.clock delivered)).1
    waiting := none
    lastSucceeded := some delivered }

/-- The answer reaches the call in time. -/
def receive : AgentState :=
  match s.waiting, s.response with
  | some call, some response =>
      -- the deadline of the context also cuts off an answer that comes too late
      if s.clock - call.sentAt < requestTimeout then
        s.finish nodeName call (decide response.Ok)
      else s
  | _, _ => s

/-- The call gives up. -/
def giveUp : AgentState :=
  match s.waiting with
  | some call =>
      if requestTimeout ≤ s.clock - call.sentAt then s.finish nodeName call false else s
  | none => s

/-- One event; an event that is not possible changes nothing.  The output is the
request that is sent. -/
def step : Event → AgentState × Option NodeAnnotationRequest
  | .elapse duration => ({ s with clock := s.clock + duration }, none)
  | .sample usage => s.sample nodeName usage
  | .handle id kubectl => (s.handle nodeName id kubectl, none)
  | .receive => (s.receive nodeName, none)
  | .giveUp => (s.giveUp nodeName, none)

end AgentState

/-- The agent starts, with its server, on a node with the annotations `node`. -/
def agentOn (nodeName : GoString) (node : NodeAnnotations) :
    Trace.Machine AgentState Event (Option NodeAnnotationRequest) where
  init :=
    { clock := 0
      loop := .initial none
      calls := 0
      waiting := none
      response := none
      lastSucceeded := none
      handlers := []
      node := node }
  step := AgentState.step nodeName

/-! ## What an event does -/

/-- The server has answered the last call with a success. -/
def AgentState.Answered (s : AgentState) : Prop :=
  (∃ response ∈ s.response, response.Ok) ∨ (s.waiting = none ∧ s.lastSucceeded = some true)

/-- The ways in which an event can go. -/
inductive EventCase (s : AgentState) : AgentState × Option NodeAnnotationRequest → Prop
  | kept {s' : AgentState} (hhandlers : s'.handlers ⊆ s.handlers) (hnode : s'.node = s.node)
      (hanswered : s'.Answered → s.Answered) : EventCase s (s', none)
  | applied {s' : AgentState} {call : Call} (hcall : call ∈ s.handlers)
      (hhandlers : s'.handlers ⊆ s.handlers)
      (hnode : s'.node = fun key => (call.request.annotations.lookup key).or (s.node key)) :
      EventCase s (s', none)
  | sent {s' : AgentState} {call : Call} {request : NodeAnnotationRequest}
      (hhandlers : s'.handlers = call :: s.handlers) (hrequest : call.request = request)
      (hcomplete : request.Complete) (hanswered : ¬ s'.Answered) :
      EventCase s (s', some request)

theorem EventCase.same (s : AgentState) : EventCase s (s, none) :=
  .kept (List.Subset.refl _) rfl id

theorem sample_case (nodeName : GoString) (s : AgentState) (usage : Option Int) :
    EventCase s (s.sample nodeName usage) := by
  cases hwaiting : s.waiting with
  | some call =>
      simp only [AgentState.sample, hwaiting]
      exact .same s
  | none =>
      cases htick : tick nodeName s.loop (roundOf usage s.clock s.clock false) with
      | mk loop sent =>
          cases sent with
          | none =>
              simp only [AgentState.sample, hwaiting, htick]
              refine .kept (List.Subset.refl _) rfl ?_
              rintro (hresponse | ⟨-, hlast⟩)
              · exact Or.inl hresponse
              · exact Or.inr ⟨hwaiting, hlast⟩
          | some request =>
              have hcomplete : request.Complete := complete_of_tick (congrArg Prod.snd htick)
              simp only [AgentState.sample, hwaiting, htick]
              refine .sent rfl rfl hcomplete ?_
              rintro (⟨response, hresponse, -⟩ | ⟨hidle, -⟩)
              · cases hresponse
              · cases hidle

theorem handle_case (nodeName : GoString) (s : AgentState) (id : Nat) (kubectl : KubectlResult) :
    EventCase s (s.handle nodeName id kubectl, none) := by
  unfold AgentState.handle
  split
  · exact .same s
  · rename_i call hfind
    have hsubset : (s.handlers.filter fun call => call.id != id) ⊆ s.handlers :=
      List.filter_subset_self _
    rcases handleNodeAnnotations_cases nodeName "PATCH" (some call.request.annotations)
      kubectl s.node with ⟨hbad, hnode⟩ | ⟨annotations, hbody, -, hnode⟩
    · refine .kept hsubset hnode ?_
      rintro (⟨response, hresponse, hok⟩ | hlast)
      · -- the answer is a failure, so it is not this one
        dsimp only at hresponse
        split at hresponse
        · cases hresponse
          exact absurd hok hbad
        · exact Or.inl ⟨response, hresponse, hok⟩
      · exact Or.inr hlast
    · cases hbody
      exact .applied (List.mem_of_find?_eq_some hfind) hsubset hnode

theorem finish_case (nodeName : GoString) {s : AgentState} (call : Call) {delivered : Bool}
    (h : delivered = true → ∃ response ∈ s.response, response.Ok) :
    EventCase s (s.finish nodeName call delivered, none) := by
  refine .kept (List.Subset.refl _) rfl ?_
  rintro (hresponse | ⟨-, hlast⟩)
  · exact Or.inl hresponse
  · exact Or.inl (h (Option.some.inj hlast))

theorem receive_case (nodeName : GoString) (s : AgentState) :
    EventCase s (s.receive nodeName, none) := by
  unfold AgentState.receive
  split
  · rename_i call response hwaiting hresponse
    split
    · exact finish_case nodeName call fun hok => ⟨response, hresponse, of_decide_eq_true hok⟩
    · exact .same s
  · exact .same s

theorem giveUp_case (nodeName : GoString) (s : AgentState) :
    EventCase s (s.giveUp nodeName, none) := by
  unfold AgentState.giveUp
  split
  · split
    · exact finish_case nodeName _ fun hfalse => nomatch hfalse
    · exact .same s
  · exact .same s

theorem event_cases (nodeName : GoString) (s : AgentState) (e : Event) :
    EventCase s (s.step nodeName e) := by
  cases e with
  | elapse duration => exact .kept (List.Subset.refl _) rfl id
  | sample usage => exact sample_case nodeName s usage
  | handle id kubectl => exact handle_case nodeName s id kubectl
  | receive => exact receive_case nodeName s
  | giveUp => exact giveUp_case nodeName s

/-! ## After the last call -/

/-- Only the given requests are being handled; and once the last call was answered,
the node carries one of them. -/
structure Covered (requests : List NodeAnnotationRequest) (s : AgentState) : Prop where
  handlers : ∀ call ∈ s.handlers, call.request ∈ requests
  node : s.Answered → ∃ request ∈ requests, Carries s.node request

theorem covered_step {nodeName : GoString} {requests : List NodeAnnotationRequest}
    (hcomplete : ∀ request ∈ requests, request.Complete) {s : AgentState} {e : Event}
    (hquiet : (s.step nodeName e).2 = none) (h : Covered requests s) :
    Covered requests (s.step nodeName e).1 := by
  have hcase := event_cases nodeName s e
  generalize s.step nodeName e = result at hcase hquiet
  cases hcase with
  | kept hhandlers hnode hanswered =>
      refine ⟨fun call hcall => h.handlers call (hhandlers hcall), fun hlast => ?_⟩
      rw [hnode]
      exact h.node (hanswered hlast)
  | applied hcall hhandlers hnode =>
      refine ⟨fun call hcall' => h.handlers call (hhandlers hcall'), fun _ => ?_⟩
      have hrequest := h.handlers _ hcall
      refine ⟨_, hrequest, ?_⟩
      rw [hnode]
      exact carries_overwrite (hcomplete _ hrequest) _
  | sent => cases hquiet

section Runs

variable {nodeName : GoString} {node : NodeAnnotations}

theorem moment_event_cases (nodeName : GoString) (node : NodeAnnotations) (p : List Event)
    (e : Event) :
    EventCase ((agentOn nodeName node).stateAfter p)
      ((agentOn nodeName node).stateAfter (p ++ [e]), (agentOn nodeName node).outputAt p e) := by
  rw [← Trace.Machine.step_stateAfter]
  exact event_cases nodeName _ e

theorem complete_stateAfter (events : List Event) :
    ∀ call ∈ ((agentOn nodeName node).stateAfter events).handlers, call.request.Complete := by
  induction events using List.reverseRecOn with
  | nil => exact fun call hcall => nomatch hcall
  | append_singleton events e ih =>
      have hcase := moment_event_cases nodeName node events e
      generalize (agentOn nodeName node).stateAfter (events ++ [e]) = s' at hcase ⊢
      generalize (agentOn nodeName node).outputAt events e = sent at hcase
      cases hcase with
      | kept hhandlers => exact fun call hcall => ih call (hhandlers hcall)
      | applied _ hhandlers => exact fun call hcall => ih call (hhandlers hcall)
      | sent hhandlers hrequest hcomplete =>
          rw [hhandlers]
          exact List.forall_mem_cons.mpr ⟨hrequest ▸ hcomplete, ih⟩

/-- In the run, `e` sends `request`, and no event after it sends another one. -/
structure LastSent (nodeName : GoString) (node : NodeAnnotations) (p : List Event) (e : Event)
    (q : List Event) (request : NodeAnnotationRequest) : Prop where
  sends : (agentOn nodeName node).outputAt p e = some request
  last : ∀ entry ∈ (agentOn nodeName node).traceFrom
    ((agentOn nodeName node).stateAfter (p ++ [e])) q, entry.2 = none

/-- The requests that can be on the node after the call: its own, and those that
are being handled when it is sent. -/
def contenders (nodeName : GoString) (node : NodeAnnotations) (p : List Event)
    (request : NodeAnnotationRequest) : List NodeAnnotationRequest :=
  request :: ((agentOn nodeName node).stateAfter p).handlers.map Call.request

theorem complete_contenders {p : List Event} {e : Event} {request : NodeAnnotationRequest}
    (hsends : (agentOn nodeName node).outputAt p e = some request) :
    ∀ request' ∈ contenders nodeName node p request, request'.Complete := by
  have hcase := moment_event_cases nodeName node p e
  rw [hsends] at hcase
  intro request' hrequest'
  rcases List.mem_cons.mp hrequest' with rfl | hearlier
  · generalize (agentOn nodeName node).stateAfter (p ++ [e]) = s' at hcase
    cases hcase with
    | sent _ _ hcomplete => exact hcomplete
  · obtain ⟨call, hcall, rfl⟩ := List.mem_map.mp hearlier
    exact complete_stateAfter p call hcall

/-- When the call is sent. -/
theorem covered_of_sends {p : List Event} {e : Event} {request : NodeAnnotationRequest}
    (hsends : (agentOn nodeName node).outputAt p e = some request) :
    Covered (contenders nodeName node p request)
      ((agentOn nodeName node).stateAfter (p ++ [e])) := by
  have hcase := moment_event_cases nodeName node p e
  rw [hsends] at hcase
  generalize (agentOn nodeName node).stateAfter (p ++ [e]) = s' at hcase ⊢
  cases hcase with
  | sent hhandlers hrequest _ hanswered =>
      refine ⟨?_, fun h => absurd h hanswered⟩
      rw [hhandlers, List.forall_mem_cons]
      refine ⟨?_, fun call hcall => ?_⟩
      · rw [hrequest]
        exact List.mem_cons_self
      · exact List.mem_cons_of_mem _ (List.mem_map_of_mem hcall)

theorem covered_of_lastSent {p q : List Event} {e : Event} {request : NodeAnnotationRequest}
    (h : LastSent nodeName node p e q request) :
    Covered (contenders nodeName node p request)
      ((agentOn nodeName node).stateAfter (p ++ [e] ++ q)) := by
  obtain ⟨hsends, hlast⟩ := h
  induction q using List.reverseRecOn with
  | nil =>
      rw [List.append_nil]
      exact covered_of_sends hsends
  | append_singleton q e' ih =>
      rw [Trace.Machine.traceFrom_concat, List.forall_mem_append] at hlast
      rw [← List.append_assoc, Trace.Machine.stateAfter_concat]
      have hquiet := hlast.2 _ (List.mem_singleton_self _)
      exact covered_step (complete_contenders hsends) hquiet (ih hlast.1)

/-- If the most recent call returned success, the node carries exactly its values,
or those of a request that was still being handled when this call was sent. -/
theorem carries_of_succeeded {p q : List Event} {e : Event} {request : NodeAnnotationRequest}
    (hsent : LastSent nodeName node p e q request)
    (hreturned : ((agentOn nodeName node).stateAfter (p ++ [e] ++ q)).waiting = none)
    (hsucceeded : ((agentOn nodeName node).stateAfter (p ++ [e] ++ q)).lastSucceeded = some true) :
    ∃ request' ∈ contenders nodeName node p request,
      Carries ((agentOn nodeName node).stateAfter (p ++ [e] ++ q)).node request' :=
  (covered_of_lastSent hsent).node (Or.inr ⟨hreturned, hsucceeded⟩)

end Runs

/-! ## A late handler -/

def unannotated : NodeAnnotations := fun _ => none

/-- The first call is not answered for three seconds. -/
def firstGivesUp : List Event := [.sample (some 95), .elapse 3000000000, .giveUp]

/-- The second call is answered, and then the handler of the first one gets to its
`kubectl`. -/
def lateHandler : List Event := [.handle 1 (.ok ()), .receive, .handle 0 (.ok ())]

def secondRequest : NodeAnnotationRequest := annotateViaHTTP "worker-1" 96 2 "true"

theorem lastSent_lateHandler :
    LastSent "worker-1" unannotated firstGivesUp (.sample (some 96)) lateHandler
      secondRequest where
  sends := by decide +kernel
  last := by decide +kernel

/-- The usage of the first call is on the node, although no handler is running and
the second call returned success. -/
theorem carries_fails :
    let s := (agentOn "worker-1" unannotated).stateAfter
      (firstGivesUp ++ [.sample (some 96)] ++ lateHandler)
    LastSent "worker-1" unannotated firstGivesUp (.sample (some 96)) lateHandler
        secondRequest ∧
      s.handlers.length = 0 ∧ s.waiting.isNone = true ∧ s.lastSucceeded = some true ∧
      s.node annUsageKey = some (itoa 95) ∧ ¬ Carries s.node secondRequest := by
  have husage : ((agentOn "worker-1" unannotated).stateAfter
      (firstGivesUp ++ [.sample (some 96)] ++ lateHandler)).node annUsageKey =
        some (itoa 95) := by
    decide +kernel
  refine ⟨lastSent_lateHandler, by decide +kernel, by decide +kernel, by decide +kernel, husage,
    fun hcarries => ?_⟩
  have hsecond := hcarries annUsageKey (by decide)
  rw [husage] at hsecond
  exact absurd hsecond (by decide)

theorem carries_of_succeeded_sample :
    ∃ request' ∈ contenders "worker-1" unannotated firstGivesUp secondRequest,
      Carries ((agentOn "worker-1" unannotated).stateAfter
        (firstGivesUp ++ [.sample (some 96)] ++ lateHandler)).node request' := by
  have hreturned : ((agentOn "worker-1" unannotated).stateAfter
      (firstGivesUp ++ [.sample (some 96)] ++ lateHandler)).waiting.isNone = true := by
    decide +kernel
  exact carries_of_succeeded lastSent_lateHandler (Option.isNone_iff_eq_none.mp hreturned)
    (by decide +kernel)

end McKube.CpuUtil
