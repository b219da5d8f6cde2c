import McKube.Ebpf.Pipeline
import McKube.Json.Scanner

/-!
# What the controller is told

`postToController` writes its JSON by hand: the verb `%q` makes a Go string literal, which is
not a JSON string in general.

* `body_eq_print`: for the ids of containers the body is what `json.Marshal` would have written.
* `controller_hears`: over every run of the whole system, what the controller can read from the
  bodies are overruns that the hook has reported, in their order.
-/

namespace McKube.Ebpf.Monitor

open GoLib Json

/-! ## The request -/

/-- One character in `strconv.Quote`; `isPrint` decides for the characters beyond ASCII. -/
def quoteChar (isPrint : Char → Bool) (c : Char) : GoString :=
  if c = '"' ∨ c = '\\' then ['\\', c]
  else if (' ' ≤ c ∧ c ≤ '~') ∨ (c.toNat ≥ 128 ∧ isPrint c = true) then [c]
  else if c = '\x07' then ['\\', 'a']
  else if c = '\x08' then ['\\', 'b']
  else if c = '\x0c' then ['\\', 'f']
  else if c = '\n' then ['\\', 'n']
  else if c = '\r' then ['\\', 'r']
  else if c = '\t' then ['\\', 't']
  else if c = '\x0b' then ['\\', 'v']
  else if c < ' ' ∨ c = '\x7f' then
    ['\\', 'x', hexDigit (c.toNat / 16 % 16), hexDigit (c.toNat % 16)]
  else if c.toNat < 65536 then unicodeEscape c.toNat
  else
    ['\\', 'U', '0', '0', hexDigit (c.toNat / 1048576 % 16), hexDigit (c.toNat / 65536 % 16),
      hexDigit (c.toNat / 4096 % 16), hexDigit (c.toNat / 256 % 16),
      hexDigit (c.toNat / 16 % 16), hexDigit (c.toNat % 16)]

/-- `strconv.Quote`, and the verb `%q`. -/
def quoteGo (isPrint : Char → Bool) (s : GoString) : GoString :=
  '"' :: s.flatMap (quoteChar isPrint) ++ ['"']

/-- A request of the monitor. -/
structure ControllerRequest where
  method : GoString
  url : GoString
  contentType : GoString
  body : GoString
  deriving DecidableEq

/-- `controllerURL`. -/
def controllerURL : GoString := "http://localhost:30090/overrun"

/-- The body that `postToController` formats. -/
def Post.body (isPrint : Char → Bool) (post : Post) : GoString :=
  ("\x7b\"container_id\":" : GoString) ++ quoteGo isPrint post.containerID ++
    (",\"timestamp\":" : GoString) ++ itoa post.event.ts.toNat ++ ("\x7d" : GoString)

/-- `postToController`: the request that is sent, if there is a URL.  How it ends is only
logged. -/
def postToController (isPrint : Char → Bool) (url : GoString) (post : Post) :
    Option ControllerRequest :=
  if url = [] then none
  else some
    { method := "POST", url := url, contentType := "application/json", body := post.body isPrint }

/-! ## The body as JSON -/

/-- An overrun as a message: the container and the time. -/
def message (charge : GoString × UInt64) : Value :=
  .object [("container_id", .string charge.1), ("timestamp", .number (.ofInt charge.2.toNat))]

section Body

variable (isPrint : Char → Bool)

theorem ne_of_isLowerHex {c d : Char} (hc : isLowerHex c = true) (hd : isLowerHex d = false) :
    c ≠ d := by
  rintro rfl
  rw [hc] at hd
  cases hd

/-- Neither Go nor JSON has to escape the digits of an id. -/
theorem quoteChar_of_isLowerHex {c : Char} (hc : isLowerHex c = true) :
    quoteChar isPrint c = [c] ∧ escapeChar false c = [c] := by
  have hrange : ' ' ≤ c ∧ c ≤ '~' := by
    unfold isLowerHex at hc
    rw [Bool.or_eq_true, Bool.and_eq_true, Bool.and_eq_true, decide_eq_true_eq, decide_eq_true_eq,
      decide_eq_true_eq, decide_eq_true_eq] at hc
    have hblank : ' ' ≤ 'a' ∧ ' ' ≤ '0' := by decide
    have htilde : 'f' ≤ '~' ∧ '9' ≤ '~' := by decide
    rcases hc with ⟨hlow, hhigh⟩ | ⟨hlow, hhigh⟩
    · exact ⟨Char.le_trans hblank.1 hlow, Char.le_trans hhigh htilde.1⟩
    · exact ⟨Char.le_trans hblank.2 hlow, Char.le_trans hhigh htilde.2⟩
  have hquotes : ¬ (c = '"' ∨ c = '\\') := by
    rintro (rfl | rfl)
    · exact absurd hc (by decide)
    · exact absurd hc (by decide)
  have hescape : ¬ NeedsEscape c := by
    rintro (hlt | rfl | rfl | rfl | rfl | rfl)
    · exact absurd hlt (Char.not_lt.mpr hrange.1)
    all_goals exact absurd hc (by decide)
  constructor
  · unfold quoteChar
    rw [if_neg hquotes, if_pos (Or.inl hrange)]
  · unfold escapeChar
    rw [if_neg hquotes, if_neg (ne_of_isLowerHex hc (by decide)),
      if_neg (ne_of_isLowerHex hc (by decide)), if_neg (ne_of_isLowerHex hc (by decide)),
      if_neg (fun h => Bool.false_ne_true h.1), if_neg (fun h => Bool.false_ne_true h.1),
      if_neg hescape]

theorem quoteGo_of_isContainerID {cid : GoString} (hid : IsContainerID cid) :
    quoteGo isPrint cid = quote false cid := by
  have hflat : cid.flatMap (quoteChar isPrint) = cid.flatMap (escapeChar false) :=
    List.flatMap_congr fun c hc => by
      obtain ⟨hgo, hjson⟩ := quoteChar_of_isLowerHex isPrint (hid.2 c hc)
      rw [hgo, hjson]
  unfold quoteGo quote
  rw [hflat]

/-- The body is what `json.Marshal` would have written. -/
theorem body_eq_print {post : Post} (hid : IsContainerID post.containerID) :
    post.body isPrint = (message post.charge).print false := by
  have hcid : quote false ("container_id" : GoString) = ("\"container_id\"" : GoString) := by
    decide +kernel
  have hts : quote false ("timestamp" : GoString) = ("\"timestamp\"" : GoString) := by
    decide +kernel
  unfold Post.body message Post.charge
  simp only [Value.print, printMembers, Number.ofInt, hcid, hts,
    quoteGo_of_isContainerID isPrint hid]
  simp

end Body

/-! ## Runs -/

theorem isContainerID_of_mem_sentPosts {pc : PathCache} {xs : List Input} {post : Post}
    (hpost : post ∈ sentPosts pc xs) : IsContainerID post.containerID := by
  have hids := (invariant_stateAfter pc (loopTurns pc xs)).areIDs
  apply hids
  unfold postedIDs
  rw [← sentPosts_eq]
  exact List.mem_map_of_mem hpost

/-- What the controller reads from the bodies of a run are overruns that the hook has reported,
in the order of the reports, each with the container of its cgroup and its time. -/
theorem controller_hears (isPrint : Char → Bool) (h : CgroupHistory) {xs : List Input}
    (hduring : During h xs) :
    ∃ charges : List (GoString × UInt64),
      (sentPosts (startCache h) xs).map (fun post =>
          (postToController isPrint controllerURL post).bind fun request => parse request.body) =
        charges.map (fun charge => some (message charge)) ∧
      charges.Sublist ((submittedEvents (startCache h) xs).filterMap h.charge) ∧
      ∀ charge ∈ charges, IsContainerID charge.1 := by
  refine ⟨(sentPosts (startCache h) xs).map Post.charge, ?_, posts_sublist h hduring, ?_⟩
  · rw [List.map_map]
    apply List.map_congr_left
    intro post hpost
    have hurl : controllerURL ≠ [] := by decide
    have hdepth : (message post.charge).depth ≤ maxDepth := by
      show 1 ≤ 10000
      omega
    unfold postToController
    rw [if_neg hurl, Option.bind_some]
    dsimp only
    rw [body_eq_print isPrint (isContainerID_of_mem_sentPosts hpost), parse_print false hdepth]
    rfl
  · intro charge hcharge
    obtain ⟨post, hpost, rfl⟩ := List.mem_map.mp hcharge
    exact isContainerID_of_mem_sentPosts hpost

theorem controller_hears_sample :
    ∃ charges : List (GoString × UInt64),
      (sentPosts (startCache sampleCgroups) sampleRun).map (fun post =>
          (postToController (fun _ => true) controllerURL post).bind fun request =>
            parse request.body) =
        charges.map (fun charge => some (message charge)) ∧
      charges.Sublist
        ((submittedEvents (startCache sampleCgroups) sampleRun).filterMap sampleCgroups.charge) ∧
      ∀ charge ∈ charges, IsContainerID charge.1 :=
  controller_hears (fun _ => true) sampleCgroups during_sampleRun

end McKube.Ebpf.Monitor
