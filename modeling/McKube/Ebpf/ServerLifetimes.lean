import McKube.Ebpf.OverrunDetector

/-!
# Lifetimes of servers

A server lives at an address of the kernel's memory, and after it is freed a
later server may get the same address.  The map `se_state` is keyed by addresses
and is never cleaned, so it outlives the servers.

* `FirstReport.first_report_submits_iff`: when the first overrun of a new server
  is reported.
* `FirstReport.submits_of_new_address`: it is, if the address is new and the
  history has used at most 8192 addresses.
-/

namespace McKube.Ebpf

/-! ## Histories -/

/-- The creation or destruction of a server at an address, or a call of the
hook. -/
inductive ServerEvent
  | create (address : UInt64)
  | destroy (address : UInt64)
  | hook (c : Call)

/-- The addresses of the servers that are alive, after one more event. -/
def aliveNext (alive : Finset UInt64) : ServerEvent → Finset UInt64
  | .create address => insert address alive
  | .destroy address => alive.erase address
  | .hook _ => alive

/-- A server is created at a free address while fewer than 8192 are alive; only
servers that are alive are destroyed, and seen by the hook. -/
def Allowed (alive : Finset UInt64) : ServerEvent → Prop
  | .create address => address ≠ 0 ∧ address ∉ alive ∧ alive.card < seStateEntries
  | .destroy address => address ∈ alive
  | .hook c => c.dlSe ∈ alive

instance (alive : Finset UInt64) (e : ServerEvent) : Decidable (Allowed alive e) :=
  match e with
  | .create address =>
      inferInstanceAs (Decidable (address ≠ 0 ∧ address ∉ alive ∧ alive.card < seStateEntries))
  | .destroy address => inferInstanceAs (Decidable (address ∈ alive))
  | .hook c => inferInstanceAs (Decidable (c.dlSe ∈ alive))

def AllowedFrom (alive : Finset UInt64) : List ServerEvent → Prop
  | [] => True
  | e :: events => Allowed alive e ∧ AllowedFrom (aliveNext alive e) events

instance AllowedFrom.decidable :
    (alive : Finset UInt64) → (events : List ServerEvent) → Decidable (AllowedFrom alive events)
  | _, [] => inferInstanceAs (Decidable True)
  | alive, e :: events =>
      match AllowedFrom.decidable (aliveNext alive e) events with
      | isTrue h => decidable_of_iff (Allowed alive e) ⟨fun he => ⟨he, h⟩, fun he => he.1⟩
      | isFalse h => isFalse fun he => h he.2

/-- The calls of the hook in a list of events. -/
def hookCalls (events : List ServerEvent) : List Call :=
  events.filterMap fun e => match e with
    | .hook c => some c
    | _ => none

/-- A history of servers, in which the reservations of calls that may report
succeed. -/
structure ServerHistory where
  events : List ServerEvent
  allowed : AllowedFrom ∅ events
  reserved : ∀ c ∈ hookCalls events, c.reports = true → c.reserve.isSome = true

theorem hookCalls_append (events more : List ServerEvent) :
    hookCalls (events ++ more) = hookCalls events ++ hookCalls more :=
  List.filterMap_append

/-! ## The addresses of a history -/

/-- The addresses at which servers have been created. -/
def createdAddresses (events : List ServerEvent) : List UInt64 :=
  events.filterMap fun e => match e with
    | .create address => some address
    | _ => none

/-- The hook sees only servers that were alive at first or have been created
before. -/
theorem dlSe_mem_of_allowedFrom {alive : Finset UInt64} {events : List ServerEvent}
    (hallowed : AllowedFrom alive events) {c : Call} (hc : c ∈ hookCalls events) :
    c.dlSe ∈ alive ∨ c.dlSe ∈ createdAddresses events := by
  induction events generalizing alive with
  | nil => cases hc
  | cons e events ih =>
      obtain ⟨he, hrest⟩ := hallowed
      cases e with
      | create address =>
          rcases ih hrest hc with halive | hcreated
          · rcases Finset.mem_insert.mp halive with haddress | halive
            · exact Or.inr (by simp [createdAddresses, haddress])
            · exact Or.inl halive
          · exact Or.inr (List.mem_cons_of_mem address hcreated)
      | destroy address =>
          rcases ih hrest hc with halive | hcreated
          · exact Or.inl (Finset.mem_of_mem_erase halive)
          · exact Or.inr hcreated
      | hook c' =>
          rcases List.mem_cons.mp hc with rfl | hc
          · exact Or.inl he
          · exact ih hrest hc

theorem allowedFrom_of_append {alive : Finset UInt64} {events more : List ServerEvent}
    (hallowed : AllowedFrom alive (events ++ more)) : AllowedFrom alive events := by
  induction events generalizing alive with
  | nil => exact trivial
  | cons e events ih => exact ⟨hallowed.1, ih hallowed.2⟩

/-! ## The first overrun of a server -/

/-- After the events `p` a server is created at the address `a`.  It stays alive
over the events `q`, and the call `c` after them is the first one on it that
meets the full condition for a report. -/
structure FirstReport (history : ServerHistory) (p q r : List ServerEvent) (a : UInt64)
    (c : Call) : Prop where
  split : history.events = p ++ .create a :: (q ++ .hook c :: r)
  alive : .destroy a ∉ q
  isOn : c.dlSe = a
  reports : c.reports = true
  first : ∀ x ∈ hookCalls q, reportsOn a x = false

/-- The last of the calls that met the full condition for a report on the entity
`d`, or showed its budget positive, showed it positive. -/
def LeftArmed (d : UInt64) (calls : List Call) : Prop :=
  ∀ x ∈ (calls.filter (fun c => reportsOn d c || replenishesOn d c)).getLast?,
    replenishesOn d x = true

instance (d : UInt64) (calls : List Call) : Decidable (LeftArmed d calls) :=
  inferInstanceAs (Decidable (∀ x ∈ _, _))

namespace FirstReport

variable {history : ServerHistory} {p q r : List ServerEvent} {a : UInt64} {c : Call}

/-- The calls of the history, up to the first report and after it. -/
theorem hookCalls_eq (h : FirstReport history p q r a c) :
    hookCalls history.events = hookCalls (p ++ .create a :: q) ++ [c] ++ hookCalls r := by
  rw [h.split, hookCalls_append, hookCalls_append]
  show hookCalls p ++ hookCalls (q ++ .hook c :: r) = hookCalls p ++ hookCalls q ++ _ ++ _
  rw [hookCalls_append, List.append_assoc, List.append_assoc]
  rfl

/-- The report needs an entry in the map and an armed latch, nothing else. -/
theorem outputAt_isSome_iff (h : FirstReport history p q r a c) :
    (detector.outputAt (hookCalls (p ++ .create a :: q)) c).isSome = true ↔
      Tracked (hookCalls history.events) a ∧
        (latch a).armedAfter (hookCalls (p ++ .create a :: q)) = true := by
  have hcalls := h.hookCalls_eq
  have hreserve : c.reserve.isSome = true := by
    apply history.reserved c _ h.reports
    rw [hcalls]
    simp
  have htracked : Tracked (hookCalls (p ++ .create a :: q) ++ [c]) c.dlSe ↔
      Tracked (hookCalls history.events) c.dlSe := by
    rw [hcalls]
    exact (tracked_append_iff (by simp) (c.reports_iff.mp h.reports).1 _).symm
  have hon := h.isOn
  subst hon
  rw [outputAt_eq, ← htracked]
  constructor
  · intro hsome
    split at hsome
    · next hfires => exact hfires.2
    · cases hsome
  · intro hfires
    rw [if_pos ⟨h.reports, hfires⟩, Option.isSome_map]
    exact hreserve

/-- The first overrun of a new server is reported iff its address has an entry
in the map, and was left armed by what has been seen at it before. -/
theorem first_report_submits_iff (h : FirstReport history p q r a c) :
    (detector.outputAt (hookCalls (p ++ .create a :: q)) c).isSome = true ↔
      Tracked (hookCalls history.events) a ∧
        LeftArmed a (hookCalls (p ++ .create a :: q)) := by
  have harmed : (latch a).armedAfter (hookCalls (p ++ .create a :: q)) = true ↔
      LeftArmed a (hookCalls (p ++ .create a :: q)) := (latch a).armedAfter_iff_last _
  rw [h.outputAt_isSome_iff, harmed]

/-- A server is replenished and destroyed after its overrun, and the next server
gets its address. -/
theorem first_report_submits_iff_sample :
    (detector.outputAt [.sample 0xffff888100400000 (-250000), .sample 0xffff888100400000 9000000]
      (.sample 0xffff888100400000 (-300000))).isSome = true :=
  let history : ServerHistory :=
    { events := [.create 0xffff888100400000, .hook (.sample 0xffff888100400000 (-250000)),
        .hook (.sample 0xffff888100400000 9000000), .destroy 0xffff888100400000,
        .create 0xffff888100400000, .hook (.sample 0xffff888100400000 (-300000))]
      allowed := by decide +kernel
      reserved := by decide +kernel }
  have h : FirstReport history (history.events.take 4) [] [] 0xffff888100400000
      (.sample 0xffff888100400000 (-300000)) :=
    { split := rfl
      alive := by simp
      isOn := rfl
      reports := by decide
      first := by decide }
  (first_report_submits_iff h).mpr ⟨by decide +kernel, by decide +kernel⟩

/-- A server overruns and is destroyed before its replenishment is seen.  The
next server at its address finds the bit as it was left. -/
theorem first_report_submits_fails :
    ¬ ∀ history p q r a c, FirstReport history p q r a c →
      (detector.outputAt (hookCalls (p ++ .create a :: q)) c).isSome = true := by
  intro h
  let overrun : Call := .sample 0xffff888100400000 (-250000)
  let history : ServerHistory :=
    { events := [.create 0xffff888100400000, .hook overrun, .destroy 0xffff888100400000,
        .create 0xffff888100400000, .hook overrun]
      allowed := by decide +kernel
      reserved := by decide +kernel }
  have hfirst : FirstReport history (history.events.take 3) [] [] 0xffff888100400000 overrun :=
    { split := rfl
      alive := by simp
      isOn := rfl
      reports := by decide
      first := by decide }
  have hlost : (detector.outputAt [overrun] overrun).isSome = false := by decide +kernel
  have hsubmitted := h _ _ _ _ _ _ hfirst
  change (detector.outputAt [overrun] overrun).isSome = true at hsubmitted
  rw [hlost] at hsubmitted
  cases hsubmitted

/-- No server has lived at the address before, and the history uses few enough
addresses: then the first overrun is reported. -/
theorem submits_of_new_address (h : FirstReport history p q r a c)
    (hnew : a ∉ createdAddresses p)
    (hfew : (createdAddresses history.events).toFinset.card ≤ seStateEntries) :
    (detector.outputAt (hookCalls (p ++ .create a :: q)) c).isSome = true := by
  have hcreated : ∀ {events}, AllowedFrom ∅ events → ∀ x ∈ hookCalls events,
      x.dlSe ∈ createdAddresses events := by
    intro events hallowed x hx
    rcases dlSe_mem_of_allowedFrom hallowed hx with halive | hcreated
    · exact absurd halive (Finset.notMem_empty _)
    · exact hcreated
  have hallowed : AllowedFrom ∅ p := by
    have hevents := history.allowed
    rw [h.split] at hevents
    exact allowedFrom_of_append hevents
  rw [h.outputAt_isSome_iff, Trace.Latch.armedAfter_iff_last]
  constructor
  · have hcard : (((hookCalls history.events).filter Call.passes).map Call.dlSe).toFinset.card ≤
        seStateEntries := by
      refine le_trans (Finset.card_le_card ?_) hfew
      intro d hd
      simp only [List.mem_toFinset, List.mem_map, List.mem_filter] at hd ⊢
      obtain ⟨x, ⟨hx, -⟩, rfl⟩ := hd
      exact hcreated history.allowed x hx
    apply (Bpf.mem_firstKeys_iff_of_card_le hcard).mpr
    rw [← h.isOn]
    apply List.mem_map_of_mem
    rw [List.mem_filter, h.hookCalls_eq]
    exact ⟨by simp, (c.reports_iff.mp h.reports).1⟩
  · intro x hx
    obtain ⟨hmem, hdecisive⟩ := List.mem_filter.mp (List.mem_of_getLast? hx)
    rw [Bool.or_eq_true] at hdecisive
    change reportsOn a x = true ∨ replenishesOn a x = true at hdecisive
    rcases hdecisive with hreports | hreplenishes
    · -- an earlier report would be on an earlier server, or on this one before its first
      rw [hookCalls_append, List.mem_append] at hmem
      rcases hmem with hp | hq
      · have haddress := hcreated hallowed x hp
        rw [(reportsOn_iff.mp hreports).1] at haddress
        exact absurd haddress hnew
      · rw [h.first x hq] at hreports
        cases hreports
    · exact hreplenishes

end FirstReport

end McKube.Ebpf
