import McKube.CpuUtil.ApiServer
import McKube.CpuUtil.CommandLine
import McKube.GoLib.Url
import McKube.Json.Decode

/-!
# From the loop to the node object

The agent sends its annotations to its own API server: the loop puts the name of the node into
a URL and the annotations into a JSON body, the router takes the name from the path again, the
handler decodes the body, and `kubectl` gets one argument for each annotation.

* `path_annotateViaHTTP`, `decode_body`: the handler gets the name and the annotations, in some
  order.
* `published_on_node`: over a whole run, the node object carries what the loop takes for
  published.  Every answer comes in time here; `LateHandlers` is about the others.
-/

namespace McKube.CpuUtil

open GoLib Json
open GoLib.filepath (rootPath Plain)

/-! ## The name of the node -/

/-- `strings.ToLower` on ASCII text. -/
def toLower (s : GoString) : GoString := s.map Char.toLower

/-- `getNodeName`; `hostname` is `none` if `os.Hostname` fails. -/
def getNodeName (envNodeName : GoString) (hostname : Option GoString) : GoString :=
  if trimSpace envNodeName ≠ [] then
    toLower (trimSpace envNodeName)
  else
    match hostname with
    | some hostname => toLower (trimSpace hostname)
    | none => "unknown"

/-- The characters of host names, in lower case. -/
def isNameChar (c : Char) : Bool := c.isLower || c.isDigit || c = '-' || c = '.'

/-- The name of a Kubernetes node: it does not begin with a dash or a dot. -/
structure NodeName (name : GoString) : Prop where
  chars : ∀ c ∈ name, isNameChar c = true
  head : ∃ c rest, name = c :: rest ∧ c ≠ '-' ∧ c ≠ '.'

theorem NodeName.not_mem {name : GoString} (h : NodeName name) {c : Char}
    (hc : isNameChar c = false) : c ∉ name := by
  intro hmem
  rw [h.chars c hmem] at hc
  cases hc

theorem NodeName.plain {name : GoString} (h : NodeName name) : Plain name := by
  obtain ⟨c, rest, rfl, -, hdot⟩ := h.head
  refine ⟨List.cons_ne_nil c rest, ?_, ?_, h.not_mem (by decide)⟩
  · intro heq
    rw [List.cons.injEq] at heq
    exact hdot heq.1
  · intro heq
    rw [List.cons.injEq] at heq
    exact hdot heq.1

theorem NodeName.plainName {name : GoString} (h : NodeName name) : PlainName name := by
  obtain ⟨c, rest, rfl, hdash, -⟩ := h.head
  refine ⟨?_, h.not_mem (by decide)⟩
  show ('-' == c && List.isPrefixOf [] rest) = false
  rw [beq_eq_false_iff_ne.mpr hdash.symm, Bool.false_and]

/-! ## The API server -/

/-- What the router of the API server finds. -/
inductive ApiRoute where
  | annotations (nodeName : GoString)
  | health
  | root
  deriving DecidableEq

/-- The route of a path; `{nodeName}` stands for one component that is not empty. -/
def apiRoute (path : GoString) : Option ApiRoute :=
  match split path '/' with
  | [[], []] => some .root
  | [[], health] => if health = "health" then some .health else none
  | [[], api, v1, nodes, nodeName, annotations] =>
      if api = "api" ∧ v1 = "v1" ∧ nodes = "nodes" ∧ nodeName ≠ [] ∧
          annotations = "annotations" then
        some (.annotations nodeName)
      else
        none
  | _ => none

/-- The fields of `NodeAnnotationRequest`. -/
def annotationFields : Fields StringMap :=
  [("annotations", mapField id fun annotations _ => annotations)]

/-- `json.NewDecoder(r.Body).Decode(&req)`. -/
def decodeAnnotations (body : GoString) : Option StringMap :=
  (firstValue body).bind (decodeStruct annotationFields [])

/-- The API server: the router of `startAPIServer` and its handlers.  The texts stand without the
line feed that ends them. -/
def apiServer (kubectl : KubectlResult) (method path body : GoString) (node : NodeAnnotations) :
    Response × NodeAnnotations :=
  if url.cleanPath path ≠ path then
    ({ statusCode := 301, body := .text "" }, node)
  else
    match apiRoute path with
    | none => ({ statusCode := 404, body := .text "404 page not found" }, node)
    | some .root =>
        ({ statusCode := 200
           body := .text (("MC-Kube Node Annotation API Server - Port " : GoString) ++
             apiServerPort) }, node)
    | some .health =>
        if method = "GET" then
          ({ statusCode := 200
             body := .json { message := "API server is healthy", success := true } }, node)
        else
          ({ statusCode := 405, body := .text "" }, node)
    | some (.annotations nodeName) =>
        if method = "POST" ∨ method = "PATCH" then
          handleNodeAnnotations nodeName method (decodeAnnotations body) kubectl node
        else
          ({ statusCode := 405, body := .text "" }, node)

/-! ## The request -/

namespace NodeAnnotationRequest

variable (request : NodeAnnotationRequest)

/-- The body of a request: `json.Marshal` of Go 1.21. -/
def bodyText : GoString :=
  (Value.object [("annotations", StringMap.toValue request.annotations)]).print false

/-- The path that the server sees; `none` if the client refuses the URL. -/
def path : Option GoString :=
  url.pathUnescape (url.escapedPath (("localhost:" : GoString) ++ apiServerPort) request.url)

/-- `annotateViaHTTP` against the server: whether it returns without an error, and the node
afterwards. -/
def send (kubectl : KubectlResult) (node : NodeAnnotations) : Bool × NodeAnnotations :=
  match request.path with
  | none => (false, node)
  | some path =>
      let result := apiServer kubectl "PATCH" path request.bodyText node
      (decide result.1.Ok, result.2)

end NodeAnnotationRequest

/-! ### The path -/

/-- The components of the path of a request for a node. -/
def annotationPath (name : GoString) : List GoString :=
  ["api", "v1", "nodes", name, "annotations"]

theorem split_rootPath {cs : List GoString} (hcs : cs ≠ []) (hplain : ∀ c ∈ cs, Plain c) :
    split (rootPath cs) '/' = [] :: cs := by
  have hsplit := split_append_cons [] (joinWith '/' cs) '/'
  rw [split_joinWith (fun c hc => (hplain c hc).2.2.2) hcs] at hsplit
  exact hsplit

section Path

variable {name : GoString}

theorem plain_annotationPath (hname : NodeName name) : ∀ c ∈ annotationPath name, Plain c := by
  have hfixed : ∀ c ∈ ([("api" : GoString), "v1", "nodes", "annotations"] : List GoString),
      Plain c := by decide
  intro c hc
  by_cases heq : c = name
  · rw [heq]
    exact hname.plain
  · refine hfixed c ?_
    simp only [annotationPath, List.mem_cons, List.not_mem_nil, or_false] at hc ⊢
    tauto

theorem mem_joinWith {sep c : Char} {parts : List GoString} (h : c ∈ joinWith sep parts) :
    c = sep ∨ ∃ part ∈ parts, c ∈ part := by
  induction parts with
  | nil => cases h
  | cons part parts ih =>
      cases parts with
      | nil =>
          rw [joinWith_singleton] at h
          exact Or.inr ⟨part, List.mem_cons_self, h⟩
      | cons next parts =>
          rw [joinWith_cons_cons, List.mem_append, List.mem_cons] at h
          rcases h with hpart | rfl | hrest
          · exact Or.inr ⟨part, List.mem_cons_self, hpart⟩
          · exact Or.inl rfl
          · exact (ih hrest).imp_right fun ⟨part', hmem, hc⟩ =>
              ⟨part', List.mem_cons_of_mem part hmem, hc⟩

/-- Nothing in such a path has to be escaped. -/
theorem not_mem_annotationPath (hname : NodeName name) {c : Char} (hc : isNameChar c = false)
    (hslash : c ≠ '/') : c ∉ rootPath (annotationPath name) := by
  have hfixed : ([("api" : GoString), "v1", "nodes", "annotations"] : List GoString).all
      (fun part => part.all isNameChar) = true := by decide
  intro hmem
  rcases mem_joinWith ((List.mem_cons.mp hmem).resolve_left hslash) with heq | ⟨part, hpart, hin⟩
  · exact hslash heq
  · by_cases heq : part = name
    · rw [heq] at hin
      exact hname.not_mem hc hin
    · have hpart' : part ∈
          ([("api" : GoString), "v1", "nodes", "annotations"] : List GoString) := by
        simp only [annotationPath, List.mem_cons, List.not_mem_nil, or_false] at hpart ⊢
        tauto
      rw [List.all_eq_true.mp (List.all_eq_true.mp hfixed part hpart') c hin] at hc
      cases hc

theorem url_annotateViaHTTP (name : GoString) (usage : Int) (over90time : Int64)
    (isCpuBusy : GoString) :
    (annotateViaHTTP name usage over90time isCpuBusy).url =
      ("http://" : GoString) ++ (("localhost:" : GoString) ++ apiServerPort) ++
        rootPath (annotationPath name) := by
  have hhost : ("http://localhost:" : GoString) =
      ("http://" : GoString) ++ ("localhost:" : GoString) := by decide
  have hpath : rootPath (annotationPath name) =
      ("/api/v1/nodes/" : GoString) ++ (name ++ ("/annotations" : GoString)) := by
    unfold rootPath annotationPath
    rw [joinWith_cons_cons, joinWith_cons_cons, joinWith_cons_cons, joinWith_cons_cons,
      joinWith_singleton]
    rfl
  unfold annotateViaHTTP
  rw [hhost, hpath]
  simp only [List.append_assoc]

/-- The server sees the path that the agent has built. -/
theorem path_annotateViaHTTP (hname : NodeName name) (usage : Int) (over90time : Int64)
    (isCpuBusy : GoString) :
    (annotateViaHTTP name usage over90time isCpuBusy).path =
      some (rootPath (annotationPath name)) := by
  have hplain : ∀ c ∈ ['?', '#', '%'], c ∉ rootPath (annotationPath name) := by
    have hall : ['?', '#', '%'].all (fun c => !isNameChar c && c != '/') = true := by decide
    intro c hc
    have hc' := List.all_eq_true.mp hall c hc
    rw [Bool.and_eq_true, Bool.not_eq_true', bne_iff_ne] at hc'
    exact not_mem_annotationPath hname hc'.1 hc'.2
  unfold NodeAnnotationRequest.path
  rw [url_annotateViaHTTP, url.escapedPath_append (hplain _ (by simp)) (hplain _ (by simp))]
  exact url.pathUnescape_of_not_mem (hplain _ (by simp))

theorem apiRoute_annotationPath (hname : NodeName name) :
    apiRoute (rootPath (annotationPath name)) = some (.annotations name) := by
  have hsplit : split (rootPath (annotationPath name)) '/' = [] :: annotationPath name :=
    split_rootPath (List.cons_ne_nil _ _) (plain_annotationPath hname)
  have hne : name ≠ [] := hname.plain.1
  unfold apiRoute
  rw [hsplit]
  simp [annotationPath, hne]

end Path

/-! ### The body -/

theorem lookup_eq_some_of_mem {m : StringMap} (hnodup : (m.map Prod.fst).Nodup)
    {key value : GoString} (h : (key, value) ∈ m) : m.lookup key = some value := by
  induction m with
  | nil => cases h
  | cons entry m ih =>
      rw [List.map_cons, List.nodup_cons] at hnodup
      rcases List.mem_cons.mp h with rfl | hrest
      · exact List.lookup_cons_self
      · have hne : key ≠ entry.1 := by
          rintro rfl
          exact hnodup.1 (List.mem_map.mpr ⟨_, hrest, rfl⟩)
        rw [List.lookup_cons, beq_eq_false_iff_ne.mpr hne]
        exact ih hnodup.2 hrest

theorem mem_of_lookup_eq_some {m : StringMap} {key value : GoString}
    (h : m.lookup key = some value) : (key, value) ∈ m := by
  obtain ⟨front, back, rfl, -⟩ := List.lookup_eq_some_iff.mp h
  simp

/-- The order of the entries does not matter. -/
theorem lookup_perm {m m' : StringMap} (h : m.Perm m') (hnodup : (m.map Prod.fst).Nodup)
    (key : GoString) : m.lookup key = m'.lookup key := by
  have hnodup' := (h.map Prod.fst).nodup_iff.mp hnodup
  refine Option.ext fun value => ?_
  constructor
  · intro hlookup
    exact lookup_eq_some_of_mem hnodup' (h.subset (mem_of_lookup_eq_some hlookup))
  · intro hlookup
    exact lookup_eq_some_of_mem hnodup (h.symm.subset (mem_of_lookup_eq_some hlookup))

theorem depth_toValue (m : StringMap) : (StringMap.toValue m).depth = 1 := by
  have hdepth : ∀ entries : StringMap,
      membersDepth (entries.map fun entry => (entry.1, Value.string entry.2)) = 0 := by
    intro entries
    induction entries with
    | nil => rfl
    | cons entry entries ih =>
        show max 0 (membersDepth (entries.map fun entry => (entry.1, Value.string entry.2))) = 0
        rw [ih]
        rfl
  unfold StringMap.toValue Value.depth
  rw [hdepth]

/-- The handler gets the annotations that were sent, in some order. -/
theorem decode_body {request : NodeAnnotationRequest}
    (hnodup : (request.annotations.map Prod.fst).Nodup) :
    ∃ annotations, decodeAnnotations request.bodyText = some annotations ∧
      annotations.Perm request.annotations := by
  obtain ⟨annotations, hperm, hfield⟩ :
      ∃ m, m.Perm request.annotations ∧
        mapField id (fun m _ => m) (StringMap.toValue request.annotations) [] = some m :=
    mapField_toValue _ rfl hnodup
  refine ⟨annotations, ?_, hperm⟩
  have hdepth : (Value.object [("annotations", StringMap.toValue request.annotations)]).depth ≤
      maxDepth := by
    show max (StringMap.toValue request.annotations).depth 0 + 1 ≤ 10000
    rw [depth_toValue]
    omega
  have hfirst := firstValue_print false hdepth (fun n => Value.noConfusion) []
  rw [List.append_nil] at hfirst
  unfold decodeAnnotations NodeAnnotationRequest.bodyText
  rw [hfirst, Option.bind_some]
  have hmember : decodeMember annotationFields []
      (("annotations" : GoString), StringMap.toValue request.annotations) = some annotations := by
    have hfor : fieldFor annotationFields ("annotations" : GoString) =
        some (mapField id fun annotations _ => annotations) := by rfl
    unfold decodeMember
    rw [hfor]
    exact hfield
  rw [decodeStruct, List.foldlM_cons, hmember]
  rfl

/-! ## The agent and its server -/

/-- What the loop of the agent gets from outside in one round: the sample, the clock, and how
`kubectl` ends if the server runs it. -/
structure Round where
  usage : Option Int
  now : Int
  annTime : Int
  dropTime : Int
  kubectl : KubectlResult

/-- The round as a tick of the loop. -/
def Round.tick (round : Round) (delivered : Bool) : Tick where
  usage := round.usage
  now := round.now
  annTime := round.annTime
  dropTime := round.dropTime
  delivered := delivered

@[simp] theorem Round.delivered_tick (round : Round) (delivered : Bool) :
    (round.tick delivered).delivered = delivered := rfl

/-- `kubectl` sets the annotations of the node. -/
def Round.annotates (round : Round) : Bool := round.kubectl.toBool

/-- One round of the loop on a node; a request that is sent goes to the server. -/
def roundStep (name : GoString) (s : LoopState × NodeAnnotations) (round : Round) :
    (LoopState × NodeAnnotations) × Option NodeAnnotationRequest :=
  match (tick name s.1 (round.tick false)).2 with
  | none => (((tick name s.1 (round.tick false)).1, s.2), none)
  | some request =>
      let (delivered, node) := request.send round.kubectl s.2
      (((tick name s.1 (round.tick delivered)).1, node), some request)

/-- The agent with its server, on a node with the annotations `node`. -/
def agentWithServer (name : GoString) (node : NodeAnnotations) :
    Trace.Machine (LoopState × NodeAnnotations) Round (Option NodeAnnotationRequest) where
  init := (.initial none, node)
  step := roundStep name

/-- What a node with the annotations `node` carries after a request. -/
def overwritten (node : NodeAnnotations) : Option NodeAnnotationRequest → NodeAnnotations
  | none => node
  | some request => fun key => (request.annotations.lookup key).or (node key)

/-! ### One request -/

section Request

variable {name : GoString} (usage : Int) (over90time : Int64) (isCpuBusy : GoString)

theorem nodup_annotationKeys : annotationKeys.Nodup := by decide +kernel

/-- What the server gets. -/
theorem received_annotateViaHTTP (hname : NodeName name) :
    ∃ path annotations,
      (annotateViaHTTP name usage over90time isCpuBusy).path = some path ∧
      url.cleanPath path = path ∧ apiRoute path = some (.annotations name) ∧
      decodeAnnotations (annotateViaHTTP name usage over90time isCpuBusy).bodyText =
        some annotations ∧
      annotations.Perm (annotateViaHTTP name usage over90time isCpuBusy).annotations ∧
      Survives name annotations := by
  have hnodup :
      ((annotateViaHTTP name usage over90time isCpuBusy).annotations.map Prod.fst).Nodup :=
    nodup_annotationKeys
  obtain ⟨annotations, hdecode, hperm⟩ := decode_body hnodup
  have hsurvives := survives_annotateViaHTTP hname.plainName usage over90time isCpuBusy
  refine ⟨_, annotations, path_annotateViaHTTP hname usage over90time isCpuBusy,
    url.cleanPath_of_plain (List.cons_ne_nil _ _) (plain_annotationPath hname),
    apiRoute_annotationPath hname, hdecode, hperm, ?_⟩
  apply survives_of_plainName hname.plainName
  intro entry hentry
  exact (survives_iff.mp hsurvives).2 entry (hperm.subset hentry)

/-- What a call does to the node. -/
theorem send_annotateViaHTTP (hname : NodeName name) (kubectl : KubectlResult)
    (node : NodeAnnotations) :
    (annotateViaHTTP name usage over90time isCpuBusy).send kubectl node =
      (kubectl.toBool, if kubectl.toBool then
        overwritten node (some (annotateViaHTTP name usage over90time isCpuBusy)) else node) := by
  obtain ⟨path, annotations, hpath, hclean, hroute, hdecode, hperm, -⟩ :=
    received_annotateViaHTTP usage over90time isCpuBusy hname
  have hserver : apiServer kubectl "PATCH" path
      (annotateViaHTTP name usage over90time isCpuBusy).bodyText node =
        handleNodeAnnotations name "PATCH" (some annotations) kubectl node := by
    unfold apiServer
    rw [if_neg (not_not_intro hclean), hroute, hdecode]
    exact if_pos (Or.inr rfl)
  unfold NodeAnnotationRequest.send
  rw [hpath]
  dsimp only
  rw [hserver]
  have hne : name ≠ [] := hname.plain.1
  unfold handleNodeAnnotations
  rw [if_neg hne, if_neg (by decide)]
  cases kubectl with
  | error failure => rfl
  | ok =>
      have hlookup : (fun key => (annotations.lookup key).or (node key)) =
          overwritten node (some (annotateViaHTTP name usage over90time isCpuBusy)) :=
        funext fun key => by
          rw [lookup_perm hperm ((hperm.map Prod.fst).nodup_iff.mpr nodup_annotationKeys)]
          rfl
      show (true, fun key => (annotations.lookup key).or (node key)) = _
      rw [hlookup]
      rfl

theorem lookup_annotateViaHTTP_of_not_mem {key : GoString} (hkey : key ∉ annotationKeys) :
    (annotateViaHTTP name usage over90time isCpuBusy).annotations.lookup key = none := by
  rw [List.lookup_eq_none_iff]
  intro entry hentry
  rw [bne_iff_ne]
  rintro rfl
  exact hkey (List.mem_map_of_mem (f := Prod.fst) hentry)

/-- A request leaves nothing of an earlier one. -/
theorem overwritten_overwritten (earlier : NodeAnnotationRequest)
    (hearlier : ∃ u d flag, earlier = annotateViaHTTP name u d flag) (node : NodeAnnotations) :
    overwritten (overwritten node (some earlier))
        (some (annotateViaHTTP name usage over90time isCpuBusy)) =
      overwritten node (some (annotateViaHTTP name usage over90time isCpuBusy)) := by
  obtain ⟨u, d, flag, rfl⟩ := hearlier
  funext key
  show Option.or _ (Option.or _ (node key)) = Option.or _ (node key)
  by_cases hkey : key ∈ annotationKeys
  · obtain ⟨value, hvalue⟩ := Option.isSome_iff_exists.mp
      (complete_annotateViaHTTP name usage over90time isCpuBusy key hkey)
    rw [hvalue, Option.some_or, Option.some_or]
  · have hnone : (annotateViaHTTP name u d flag).annotations.lookup key = none :=
      lookup_annotateViaHTTP_of_not_mem u d flag hkey
    rw [hnone, Option.none_or]

end Request

/-! ### Runs -/

/-- The request of a round does not depend on how it ends. -/
theorem request_tick (name : GoString) (s : LoopState) (round : Round) (delivered : Bool) :
    (tick name s (round.tick delivered)).2 = (tick name s (round.tick false)).2 := by
  unfold tick Round.tick
  dsimp only
  cases round.usage with
  | none => rfl
  | some u =>
      dsimp only
      split_ifs <;> rfl

/-- Without a request the round does not depend on it at all. -/
theorem tick_of_silent {name : GoString} {s : LoopState} {round : Round}
    (hsilent : (tick name s (round.tick false)).2 = none) (delivered : Bool) :
    (tick name s (round.tick delivered)).1 = (tick name s (round.tick false)).1 := by
  unfold tick Round.tick at *
  dsimp only at *
  cases hread : round.usage with
  | none => rfl
  | some u =>
      rw [hread] at hsilent
      dsimp only at *
      split_ifs at hsilent ⊢ <;> rfl

/-- A tick publishes the request that it sends, if it is delivered. -/
theorem published_tick (name : GoString) (s : LoopState) (t : Tick) :
    (tick name s t).1.published =
      if t.delivered ∧ (tick name s t).2.isSome then (tick name s t).2 else s.published := by
  have hcase := tick_cases name s t
  generalize tick name s t = result at hcase ⊢
  cases hcase with
  | readError => simp
  | steady => simp
  | rise => cases hdelivered : t.delivered <;> simp [Tick.outcome, hdelivered]
  | drop => cases hdelivered : t.delivered <;> simp [Tick.outcome, hdelivered]
  | reset => cases hdelivered : t.delivered <;> simp [Tick.outcome, hdelivered]
  | calm => simp

/-- What a round does to the loop and to the node. -/
theorem roundStep_eq {name : GoString} (hname : NodeName name) (s : LoopState × NodeAnnotations)
    (round : Round) :
    roundStep name s round =
      (((tick name s.1 (round.tick round.annotates)).1,
        if round.annotates then overwritten s.2 (tick name s.1 (round.tick false)).2 else s.2),
        (tick name s.1 (round.tick false)).2) := by
  unfold roundStep
  cases hsent : (tick name s.1 (round.tick false)).2 with
  | none =>
      have hloop := tick_of_silent hsent round.annotates
      dsimp only [overwritten]
      rw [hloop, ite_self]
  | some request =>
      obtain ⟨u, flag, -, hrequest⟩ := request_of_tick hsent
      have hsend : request.send round.kubectl s.2 =
          (round.annotates, if round.annotates then overwritten s.2 (some request) else s.2) := by
        rw [hrequest]
        exact send_annotateViaHTTP u _ flag hname round.kubectl s.2
      dsimp only
      rw [hsend]

/-- What the loop takes for published was sent to this node. -/
def Requested (name : GoString) (published : Option NodeAnnotationRequest) : Prop :=
  ∀ request, published = some request → ∃ u d flag, request = annotateViaHTTP name u d flag

theorem requested_tick {name : GoString} {s : LoopState} (h : Requested name s.published)
    (t : Tick) : Requested name (tick name s t).1.published := by
  intro request hpublished
  rw [published_tick] at hpublished
  split at hpublished
  · obtain ⟨u, flag, -, hrequest⟩ := request_of_tick hpublished
    exact ⟨u, _, flag, hrequest⟩
  · exact h request hpublished

theorem overwritten_tick {name : GoString} {s : LoopState} (h : Requested name s.published)
    (round : Round) (node : NodeAnnotations) :
    (if round.annotates then
        overwritten (overwritten node s.published) (tick name s (round.tick false)).2
      else overwritten node s.published) =
      overwritten node (tick name s (round.tick round.annotates)).1.published := by
  rw [published_tick, request_tick name s round round.annotates, Round.delivered_tick]
  cases hannotates : round.annotates with
  | false => simp
  | true =>
      cases hsent : (tick name s (round.tick false)).2 with
      | none => simp [overwritten]
      | some request =>
          obtain ⟨u, flag, -, rfl⟩ := request_of_tick hsent
          cases hpublished : s.published with
          | none => simp [overwritten]
          | some earlier =>
              have hoverwritten := overwritten_overwritten u
                (tick name s (round.tick false)).1.over90time flag earlier (h earlier hpublished)
                node
              simpa using hoverwritten

/-- The loop runs as if every request had been answered at once by `kubectl`, and the node
carries what the loop takes for published. -/
theorem run_agentWithServer {name : GoString} (hname : NodeName name) (node : NodeAnnotations)
    (rounds : List Round) :
    ((agentWithServer name node).stateAfter rounds).1 =
        (annotationLoop name).stateAfter (rounds.map fun round => round.tick round.annotates) ∧
      ((agentWithServer name node).stateAfter rounds).2 =
        overwritten node ((agentWithServer name node).stateAfter rounds).1.published ∧
      Requested name ((agentWithServer name node).stateAfter rounds).1.published := by
  induction rounds using List.reverseRecOn with
  | nil => exact ⟨rfl, rfl, fun request hnone => nomatch hnone⟩
  | append_singleton rounds round ih =>
      obtain ⟨hloop, hnode, hrequested⟩ := ih
      have hstep := roundStep_eq hname ((agentWithServer name node).stateAfter rounds) round
      have hstate : (agentWithServer name node).stateAfter (rounds ++ [round]) =
          (roundStep name ((agentWithServer name node).stateAfter rounds) round).1 :=
        (agentWithServer name node).stateAfter_concat rounds round
      rw [hstate, List.map_append, List.map_singleton, Trace.Machine.stateAfter_concat, ← hloop]
      rw [hstep, hnode]
      exact ⟨rfl, overwritten_tick hrequested round node, requested_tick hrequested _⟩

/-- Moreover, what the server gets for a request are the annotations of the request. -/
theorem published_on_node {name : GoString} (hname : NodeName name) (node : NodeAnnotations)
    (rounds : List Round) :
    ((agentWithServer name node).stateAfter rounds).1 =
        (annotationLoop name).stateAfter (rounds.map fun round => round.tick round.annotates) ∧
      ((agentWithServer name node).stateAfter rounds).2 =
        overwritten node ((agentWithServer name node).stateAfter rounds).1.published ∧
      ∀ p round q request, rounds = p ++ round :: q →
        (agentWithServer name node).outputAt p round = some request →
        ∃ path annotations, request.path = some path ∧ url.cleanPath path = path ∧
          apiRoute path = some (.annotations name) ∧
          decodeAnnotations request.bodyText = some annotations ∧
          annotations.Perm request.annotations ∧ Survives name annotations := by
  have hrun := run_agentWithServer hname node rounds
  refine ⟨hrun.1, hrun.2.1, ?_⟩
  rintro p round q request rfl hsent
  have hstep := roundStep_eq hname ((agentWithServer name node).stateAfter p) round
  have hrequest : (tick name ((agentWithServer name node).stateAfter p).1 (round.tick false)).2 =
      some request := by
    rw [← hsent]
    exact (congrArg Prod.snd hstep).symm
  obtain ⟨u, flag, -, rfl⟩ := request_of_tick hrequest
  exact received_annotateViaHTTP u _ flag hname

/-- A busy round, a round in which `kubectl` fails, and one in which it does not. -/
def sampleRounds : List Round :=
  [{ usage := some 97, now := 1, annTime := 1, dropTime := 1, kubectl := .ok () },
    { usage := some 99, now := 2, annTime := 2, dropTime := 2, kubectl := .error ("exit 1", "") },
    { usage := some 50, now := 3, annTime := 3, dropTime := 3, kubectl := .ok () }]

theorem getNodeName_sample : getNodeName " Worker-1" none = "worker-1" := by decide +kernel

theorem published_on_node_sample :
    ((agentWithServer (getNodeName " Worker-1" none) fun _ => none).stateAfter sampleRounds).2
        annUsageKey = some "50" := by
  have hall : ("worker-1" : GoString).all isNameChar = true := by decide
  have hname : NodeName (getNodeName " Worker-1" none) := by
    rw [getNodeName_sample]
    exact ⟨fun c hc => List.all_eq_true.mp hall c hc, 'w', "orker-1".toList, rfl, by decide,
      by decide⟩
  obtain ⟨hloop, hnode, -⟩ := published_on_node hname (fun _ => none) sampleRounds
  rw [hnode, hloop]
  decide +kernel

end McKube.CpuUtil
