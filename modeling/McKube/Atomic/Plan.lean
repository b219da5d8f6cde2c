import McKube.Atomic.Program

/-!
# Programs that follow a plan

A plan is a list of steps on a view of the state.  A program follows it
(`Follows`) if the views after its actions are stages of the plan, and a
successful run goes through all of them.  A failing run may stop at any
stage, and an action that does not change the view costs no step.

* `Follows.bind`, `Fallible.follows_bind`: plans of sequential parts are
  concatenated.
* `Follows.forall_after` and `Follows.forall_stages`: a property of the views
  after all actions of a run and the same property of the stages of the plan.
* `forall_after_of_changing`: only the actions that change the state matter.
-/

namespace AtomicProgram

/-! ## Plans -/

section Stages

variable {V : Type}

/-- The views that a plan goes through, the first and the last included. -/
def stages : List (V → V) → V → List V
  | [], v => [v]
  | step :: plan, v => v :: stages plan (step v)

/-- The view in which a plan ends. -/
def lastStage (plan : List (V → V)) (v : V) : V := plan.foldl (fun v step => step v) v

@[simp] theorem stages_nil (v : V) : stages [] v = [v] := rfl

@[simp] theorem stages_cons (step : V → V) (plan : List (V → V)) (v : V) :
    stages (step :: plan) v = v :: stages plan (step v) := rfl

@[simp] theorem lastStage_nil (v : V) : lastStage [] v = v := rfl

@[simp] theorem lastStage_cons (step : V → V) (plan : List (V → V)) (v : V) :
    lastStage (step :: plan) v = lastStage plan (step v) := rfl

theorem lastStage_append (plan plan' : List (V → V)) (v : V) :
    lastStage (plan ++ plan') v = lastStage plan' (lastStage plan v) :=
  List.foldl_append

theorem mem_stages_self (plan : List (V → V)) (v : V) : v ∈ stages plan v := by
  cases plan with
  | nil => exact List.mem_singleton_self v
  | cons step plan => exact List.mem_cons_self

theorem lastStage_mem_stages (plan : List (V → V)) (v : V) :
    lastStage plan v ∈ stages plan v := by
  induction plan generalizing v with
  | nil => exact List.mem_singleton_self v
  | cons step plan ih => exact List.mem_cons_of_mem _ (ih (step v))

theorem mem_stages_append {plan plan' : List (V → V)} {v w : V} :
    w ∈ stages (plan ++ plan') v ↔
      w ∈ stages plan v ∨ w ∈ stages plan' (lastStage plan v) := by
  induction plan generalizing v with
  | nil =>
      have hself : v ∈ stages plan' v := mem_stages_self plan' v
      constructor
      · exact Or.inr
      · rintro (hw | hw)
        · rw [List.mem_singleton.mp hw]
          exact hself
        · exact hw
  | cons step plan ih =>
      simp only [List.cons_append, stages_cons, List.mem_cons, lastStage_cons, ih]
      tauto

end Stages

/-! ## Following a plan -/

namespace Program

variable {Op : Type} {Answer : Op → Type} {α β σ V : Type}

/-- The run of `program` from `s` follows the plan. -/
structure Follows (exec : (op : Op) → σ → Answer op × σ) (view : σ → V)
    (success : α → Prop) (plan : List (V → V)) (program : Program Op Answer α) (s : σ) :
    Prop where
  visited : ∀ event ∈ program.trace exec s, view event.after ∈ stages plan (view s)
  ends : success (program.run exec s).1 →
    view (program.run exec s).2 = lastStage plan (view s)
  complete : success (program.run exec s).1 → ∀ v ∈ stages plan (view s),
    v = view s ∨ ∃ event ∈ program.trace exec s, view event.after = v

variable {exec : (op : Op) → σ → Answer op × σ} {view : σ → V} {success : α → Prop}
  {success' : β → Prop} {plan plan' : List (V → V)} {s : σ}

/-- A returned value follows every plan whose steps leave the view alone. -/
theorem Follows.ret (value : α) (hplan : ∀ v ∈ stages plan (view s), v = view s)
    (hlast : lastStage plan (view s) = view s) :
    Follows exec view success plan (.ret value) s where
  visited := by simp
  ends := fun _ => hlast.symm
  complete := fun _ v hv => Or.inl (hplan v hv)

theorem Follows.ret_nil (value : α) : Follows exec view success [] (.ret value) s :=
  .ret value (by simp) rfl

/-- A value that is not a success follows every plan. -/
theorem Follows.ret_failure {value : α} (hfailure : ¬ success value) :
    Follows exec view success plan (.ret value) s where
  visited := by simp
  ends := fun hsuccess => absurd hsuccess hfailure
  complete := fun hsuccess => absurd hsuccess hfailure

/-- An action that does not change the view costs no step. -/
theorem Follows.act_quiet {op : Op} {next : Answer op → Program Op Answer α}
    (hquiet : view (exec op s).2 = view s)
    (h : Follows exec view success plan (next (exec op s).1) (exec op s).2) :
    Follows exec view success plan (.act op next) s where
  visited := by
    intro event hevent
    rcases List.mem_cons.mp hevent with rfl | hrest
    · rw [hquiet]
      exact mem_stages_self plan (view s)
    · have hvisited := h.visited event hrest
      rwa [hquiet] at hvisited
  ends := by
    intro hsuccess
    have hends := h.ends hsuccess
    rwa [hquiet] at hends
  complete := by
    intro hsuccess v hv
    rw [← hquiet] at hv
    rcases h.complete hsuccess v hv with heq | ⟨event, hevent, heq⟩
    · exact Or.inl (heq.trans hquiet)
    · exact Or.inr ⟨event, List.mem_cons_of_mem _ hevent, heq⟩

/-- An action that takes the first step of the plan. -/
theorem Follows.act_step {op : Op} {next : Answer op → Program Op Answer α} {step : V → V}
    (hstep : view (exec op s).2 = step (view s))
    (h : Follows exec view success plan (next (exec op s).1) (exec op s).2) :
    Follows exec view success (step :: plan) (.act op next) s where
  visited := by
    intro event hevent
    rcases List.mem_cons.mp hevent with rfl | hrest
    · rw [stages_cons, hstep]
      exact List.mem_cons_of_mem _ (mem_stages_self plan _)
    · have hvisited := h.visited event hrest
      rw [hstep] at hvisited
      exact List.mem_cons_of_mem _ hvisited
  ends := by
    intro hsuccess
    have hends := h.ends hsuccess
    rwa [hstep] at hends
  complete := by
    intro hsuccess v hv
    rcases List.mem_cons.mp hv with heq | hrest
    · exact Or.inl heq
    · rw [← hstep] at hrest
      right
      rcases h.complete hsuccess v hrest with heq | ⟨event, hevent, heq⟩
      · exact ⟨_, List.mem_cons_self, heq.symm⟩
      · exact ⟨event, List.mem_cons_of_mem _ hevent, heq⟩

/-- A program whose actions leave the state alone follows the empty plan. -/
theorem Performs.follows_nil {allowed : Op → Prop} {program : Program Op Answer α}
    (h : program.Performs allowed) (hquiet : ∀ op, allowed op → ∀ t, (exec op t).2 = t)
    (s : σ) : Follows exec view success [] program s := by
  induction program generalizing s with
  | ret value => exact .ret_nil value
  | act op next ih =>
      have hstate : (exec op s).2 = s := hquiet op h.1 s
      exact .act_quiet (by rw [hstate]) (ih _ (h.2 _) _)

/-- After a success of the first part, the second part follows the rest of
the plan. -/
theorem Follows.bind_success {program : Program Op Answer α} {f : α → Program Op Answer β}
    (h : Follows exec view success plan program s)
    (hsuccess : success (program.run exec s).1)
    (hnext : Follows exec view success' plan' (f (program.run exec s).1)
      (program.run exec s).2) :
    Follows exec view success' (plan ++ plan') (program >>= f) s := by
  have hends := h.ends hsuccess
  constructor
  · intro event hevent
    rw [trace_bind, List.mem_append] at hevent
    rw [mem_stages_append]
    rcases hevent with hfirst | hsecond
    · exact Or.inl (h.visited event hfirst)
    · right
      rw [← hends]
      exact hnext.visited event hsecond
  · intro hsuccess'
    rw [run_bind] at hsuccess' ⊢
    rw [lastStage_append, ← hends]
    exact hnext.ends hsuccess'
  · intro hsuccess' v hv
    rw [run_bind] at hsuccess'
    rw [mem_stages_append, ← hends] at hv
    rw [trace_bind]
    have hfirst : v ∈ stages plan (view s) →
        v = view s ∨ ∃ event ∈ program.trace exec s ++
          (f (program.run exec s).1).trace exec (program.run exec s).2,
          view event.after = v := by
      intro hv
      rcases h.complete hsuccess v hv with heq | ⟨event, hevent, heq⟩
      · exact Or.inl heq
      · exact Or.inr ⟨event, List.mem_append_left _ hevent, heq⟩
    rcases hv with hv | hv
    · exact hfirst hv
    · rcases hnext.complete hsuccess' v hv with heq | ⟨event, hevent, heq⟩
      · -- the second part starts in the last stage of the first
        apply hfirst
        rw [heq, hends]
        exact lastStage_mem_stages plan (view s)
      · exact Or.inr ⟨event, List.mem_append_right _ hevent, heq⟩

/-- After a failure of the first part, which the second part only hands on,
no more of the plan is followed. -/
theorem Follows.bind_failure {program : Program Op Answer α} {f : α → Program Op Answer β}
    {value : β} (h : Follows exec view success plan program s)
    (hf : f (program.run exec s).1 = .ret value) (hvalue : ¬ success' value) :
    Follows exec view success' (plan ++ plan') (program >>= f) s := by
  have hresult : ((program >>= f).run exec s).1 = value := by
    rw [run_bind, hf]
    rfl
  constructor
  · intro event hevent
    rw [trace_bind, hf, trace_ret, List.append_nil] at hevent
    exact mem_stages_append.mpr (Or.inl (h.visited event hevent))
  · intro hsuccess
    rw [hresult] at hsuccess
    exact absurd hsuccess hvalue
  · intro hsuccess
    rw [hresult] at hsuccess
    exact absurd hsuccess hvalue

/-- A property of all stages of the plan holds after every action. -/
theorem Follows.forall_after {program : Program Op Answer α}
    (h : Follows exec view success plan program s) {safe : V → Prop}
    (hsafe : ∀ v ∈ stages plan (view s), safe v) :
    ∀ event ∈ program.trace exec s, safe (view event.after) :=
  fun event hevent => hsafe _ (h.visited event hevent)

/-- Wherever a run stops, it stops in a stage of the plan. -/
theorem Follows.run_mem_stages {program : Program Op Answer α}
    (h : Follows exec view success plan program s) :
    view (program.run exec s).2 ∈ stages plan (view s) := by
  rcases program.run_eq_or_mem_trace exec s with hsame | ⟨event, hevent, hafter⟩
  · rw [hsame]
    exact mem_stages_self plan (view s)
  · rw [← hafter]
    exact h.visited event hevent

/-- A property that holds at the start and after every action of a successful
run holds of all stages of the plan. -/
theorem Follows.forall_stages {program : Program Op Answer α}
    (h : Follows exec view success plan program s) {safe : V → Prop}
    (hsuccess : success (program.run exec s).1) (hstart : safe (view s))
    (hsafe : ∀ event ∈ program.trace exec s, safe (view event.after)) :
    ∀ v ∈ stages plan (view s), safe v := by
  intro v hv
  rcases h.complete hsuccess v hv with rfl | ⟨event, hevent, rfl⟩
  · exact hstart
  · exact hsafe event hevent

/-- A property that holds at the start, and after each of the actions that
can change the state, holds after every action. -/
theorem forall_after_of_changing {changing : Op → Prop} {I : σ → Prop}
    (hquiet : ∀ op, ¬ changing op → ∀ t, (exec op t).2 = t) {program : Program Op Answer α}
    (hstart : I s)
    (h : ∀ event ∈ program.trace exec s, changing event.op → I event.after) :
    ∀ event ∈ program.trace exec s, I event.after := by
  induction program generalizing s with
  | ret value => simp
  | act op next ih =>
      have hfirst : I (exec op s).2 := by
        by_cases hop : changing op
        · exact h _ List.mem_cons_self hop
        · rw [hquiet op hop s]
          exact hstart
      intro event hevent
      rcases List.mem_cons.mp hevent with rfl | hrest
      · exact hfirst
      · exact ih _ hfirst (fun e he => h e (List.mem_cons_of_mem _ he)) event hrest

/-- A property that holds at the start, and that every action keeps, holds
after every action. -/
theorem forall_after_of_invariant {I : σ → Prop} (hkeep : ∀ op t, I t → I (exec op t).2)
    {program : Program Op Answer α} (hstart : I s) :
    ∀ event ∈ program.trace exec s, I event.after := by
  induction program generalizing s with
  | ret value => simp
  | act op next ih =>
      intro event hevent
      rcases List.mem_cons.mp hevent with rfl | hrest
      · exact hkeep op s hstart
      · exact ih _ (hkeep op s hstart) event hrest

end Program

namespace Fallible

variable {Op : Type} {Answer : Op → Type} {α β ε σ V : Type}
  {exec : (op : Op) → σ → Answer op × σ} {view : σ → V} {plan plan' : List (V → V)} {s : σ}

/-- The plan of a composition of programs that may stop with an error. -/
theorem follows_bind {program : Fallible Op Answer ε α} {f : α → Fallible Op Answer ε β}
    (h : Program.Follows exec view Succeeded plan program.run s)
    (hf : ∀ value s', Program.run exec program.run s = (.ok value, s') →
      Program.Follows exec view Succeeded plan' (f value).run s') :
    Program.Follows exec view Succeeded (plan ++ plan') (program >>= f).run s := by
  rw [ExceptT.run_bind]
  rcases hrun : Program.run exec program.run s with ⟨e | value, s'⟩
  · apply h.bind_failure (show _ = Program.ret (.error e) by rw [hrun]; rfl)
    exact not_succeeded_error e
  · have hsuccess : Succeeded (Program.run exec program.run s).1 := by
      rw [hrun]
      trivial
    apply h.bind_success hsuccess
    rw [hrun]
    exact hf value s' hrun

theorem follows_bind_step {step : V → V} {program : Fallible Op Answer ε α}
    {f : α → Fallible Op Answer ε β}
    (h : Program.Follows exec view Succeeded [step] program.run s)
    (hf : ∀ value s', Program.Follows exec view Succeeded plan (f value).run s') :
    Program.Follows exec view Succeeded (step :: plan) (program >>= f).run s := by
  show Program.Follows exec view Succeeded ([step] ++ plan) (program >>= f).run s
  exact follows_bind h fun value s' _ => hf value s'

end Fallible

end AtomicProgram
