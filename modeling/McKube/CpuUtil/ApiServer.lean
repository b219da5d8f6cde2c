import McKube.CpuUtil.AnnotationLoop

/-!
# The API server of the agent

`handleNodeAnnotations` runs `kubectl annotate --overwrite` for a request, and
answers when `kubectl` has returned.  It does not look at whether the client
still waits for the answer.

* `handleNodeAnnotations_cases`: the node is changed iff the answer is a success.
-/

namespace McKube.CpuUtil

open GoLib

/-- The annotations of the node object. -/
abbrev NodeAnnotations : Type := GoString → Option GoString

/-- How a run of `kubectl` ends; an error comes with the output. -/
abbrev KubectlResult : Type := Except (GoString × GoString) Unit

structure ResponseMessage where
  message : GoString
  success : Bool
  deriving DecidableEq

/-- The body of an answer: a text from `http.Error`, or JSON. -/
inductive ResponseBody where
  | text (message : GoString)
  | json (response : ResponseMessage)
  deriving DecidableEq

/-- An answer of the API server. -/
structure Response where
  statusCode : Nat
  body : ResponseBody
  deriving DecidableEq

/-- `annotateViaHTTP` takes the answer for a success. -/
def Response.Ok (r : Response) : Prop := 200 ≤ r.statusCode ∧ r.statusCode < 300

instance (r : Response) : Decidable r.Ok :=
  inferInstanceAs (Decidable (200 ≤ r.statusCode ∧ r.statusCode < 300))

/-- `updateNodeAnnotations`: `kubectl` sets the given annotations, and keeps the
others. -/
def updateNodeAnnotations (kubectl : KubectlResult) (annotations : List (GoString × GoString))
    (node : NodeAnnotations) : Except GoString NodeAnnotations :=
  match kubectl with
  | .error (err, output) =>
      .error (("kubectl annotate failed: " : GoString) ++ err ++ (", output: " : GoString) ++ output)
  | .ok () => .ok fun key => (annotations.lookup key).or (node key)

/-- `handleNodeAnnotations`; `body` is `none` if it is not JSON. -/
def handleNodeAnnotations (nodeName method : GoString)
    (body : Option (List (GoString × GoString))) (kubectl : KubectlResult)
    (node : NodeAnnotations) : Response × NodeAnnotations :=
  if nodeName = [] then
    ({ statusCode := 400, body := .text "Node name is required" }, node)
  else if method ≠ "POST" ∧ method ≠ "PATCH" then
    ({ statusCode := 405, body := .text "Method not allowed" }, node)
  else
    match body with
    | none => ({ statusCode := 400, body := .text "Invalid JSON" }, node)
    | some annotations =>
        match updateNodeAnnotations kubectl annotations node with
        | .error err =>
            let response : ResponseMessage :=
              { message := ("Failed to update annotations: " : GoString) ++ err
                success := false }
            ({ statusCode := 500, body := .json response }, node)
        | .ok node' =>
            let response : ResponseMessage :=
              { message := ("Annotations updated successfully for node " : GoString) ++ nodeName
                success := true }
            ({ statusCode := 200, body := .json response }, node')

theorem Response.not_ok {statusCode : Nat} {body : ResponseBody} (h : 300 ≤ statusCode) :
    ¬ Response.Ok { statusCode := statusCode, body := body } := by
  rintro ⟨-, hstatus⟩
  exact absurd hstatus (Nat.not_lt.mpr h)

/-- The node is left as it was, or it gets the annotations of the body and the
client an answer of success. -/
theorem handleNodeAnnotations_cases (nodeName method : GoString)
    (body : Option (List (GoString × GoString))) (kubectl : KubectlResult)
    (node : NodeAnnotations) :
    let result := handleNodeAnnotations nodeName method body kubectl node
    (¬ result.1.Ok ∧ result.2 = node) ∨
      ∃ annotations, body = some annotations ∧ result.1.Ok ∧
        result.2 = fun key => (annotations.lookup key).or (node key) := by
  unfold handleNodeAnnotations
  by_cases hname : nodeName = []
  · rw [if_pos hname]
    exact Or.inl ⟨Response.not_ok (by omega), rfl⟩
  · rw [if_neg hname]
    by_cases hmethod : method ≠ "POST" ∧ method ≠ "PATCH"
    · rw [if_pos hmethod]
      exact Or.inl ⟨Response.not_ok (by omega), rfl⟩
    · rw [if_neg hmethod]
      cases body with
      | none => exact Or.inl ⟨Response.not_ok (by omega), rfl⟩
      | some annotations =>
          cases kubectl with
          | error failure => exact Or.inl ⟨Response.not_ok (by omega), rfl⟩
          | ok =>
              have hstatus : 200 < 300 := by omega
              exact Or.inr ⟨annotations, rfl, ⟨Nat.le_refl 200, hstatus⟩, rfl⟩

/-! ## The three annotations -/

def annotationKeys : List GoString := [annUsageKey, annDurKey, annCpuBusyKey]

/-- The request has a value for each of the three annotations. -/
def NodeAnnotationRequest.Complete (request : NodeAnnotationRequest) : Prop :=
  ∀ key ∈ annotationKeys, (request.annotations.lookup key).isSome = true

/-- The three annotations of the node are those of the request. -/
def Carries (node : NodeAnnotations) (request : NodeAnnotationRequest) : Prop :=
  ∀ key ∈ annotationKeys, node key = request.annotations.lookup key

theorem complete_annotateViaHTTP (node : GoString) (usage : Int) (over90time : Int64)
    (isCpuBusy : GoString) : (annotateViaHTTP node usage over90time isCpuBusy).Complete := by
  intro key hkey
  simp only [annotationKeys, List.mem_cons, List.not_mem_nil, or_false] at hkey
  rcases hkey with rfl | rfl | rfl
  · rfl
  · rfl
  · rfl

/-- Overwriting with a complete request leaves nothing of what was there. -/
theorem carries_overwrite {request : NodeAnnotationRequest} (h : request.Complete)
    (node : NodeAnnotations) :
    Carries (fun key => (request.annotations.lookup key).or (node key)) request := by
  intro key hkey
  -- every key has a value in the request, so that the old one is not looked at
  obtain ⟨value, hvalue⟩ := Option.isSome_iff_exists.mp (h key hkey)
  show (request.annotations.lookup key).or (node key) = _
  rw [hvalue, Option.some_or]

/-- The requests of the loop are complete. -/
theorem complete_of_tick {node : GoString} {s : LoopState} {t : Tick}
    {request : NodeAnnotationRequest} (hrequest : (tick node s t).2 = some request) :
    request.Complete := by
  obtain ⟨u, flag, -, rfl⟩ := request_of_tick hrequest
  exact complete_annotateViaHTTP node u _ flag

end McKube.CpuUtil
