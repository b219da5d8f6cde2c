import McKube.Atomic.Program

/-!
# Programs with the same effect

Two programs have the same effect on a state if they perform the same visible
actions in the same order, end in the same state, and succeed together.  Their
other actions and their errors may differ.

* `SameEffect.bind`: sequential composition.
* `SameEffect.bind_quiet`, `SameEffect.bind_quiet_right`: a part that succeeds
  without a visible action and leaves the state alone can be left out.
-/

namespace AtomicProgram

/-! ## Visible actions -/

namespace Program

variable {Op : Type} {Answer : Op → Type} {α β σ : Type}
  (exec : (op : Op) → σ → Answer op × σ) (visible : Op → Prop) [DecidablePred visible]

/-- The visible actions of a run, in order. -/
def actions (program : Program Op Answer α) (s : σ) : List Op :=
  ((program.trace exec s).map Event.op).filter fun op => visible op

@[simp] theorem actions_ret (value : α) (s : σ) :
    (Program.ret value : Program Op Answer α).actions exec visible s = [] := rfl

theorem actions_act_of_visible {op : Op} (hop : visible op)
    (next : Answer op → Program Op Answer α) (s : σ) :
    (Program.act op next).actions exec visible s =
      op :: (next (exec op s).1).actions exec visible (exec op s).2 :=
  List.filter_cons_of_pos (decide_eq_true hop)

theorem actions_act_of_not_visible {op : Op} (hop : ¬ visible op)
    (next : Answer op → Program Op Answer α) (s : σ) :
    (Program.act op next).actions exec visible s =
      (next (exec op s).1).actions exec visible (exec op s).2 :=
  List.filter_cons_of_neg (by simpa using hop)

theorem actions_bind (program : Program Op Answer α) (f : α → Program Op Answer β) (s : σ) :
    (program >>= f).actions exec visible s =
      program.actions exec visible s ++
        (f (program.run exec s).1).actions exec visible (program.run exec s).2 := by
  unfold actions
  rw [trace_bind, List.map_append, List.filter_append]

variable {exec} in
theorem Performs.actions_eq_nil {program : Program Op Answer α}
    (h : program.Performs fun op => ¬ visible op) (s : σ) : program.actions exec visible s = [] := by
  induction program generalizing s with
  | ret value => rfl
  | act op next ih =>
      rw [actions_act_of_not_visible exec visible h.1]
      exact ih _ (h.2 _) _

theorem mem_actions {program : Program Op Answer α} {s : σ} {op : Op} :
    op ∈ program.actions exec visible s ↔
      visible op ∧ ∃ event ∈ program.trace exec s, event.op = op := by
  simp [actions, and_comm]

end Program

/-! ## The same effect -/

namespace Fallible

variable {Op : Type} {Answer : Op → Type} {α β γ δ ε σ : Type}
  {exec : (op : Op) → σ → Answer op × σ} {visible : Op → Prop} [DecidablePred visible] {s s' : σ}

theorem run_bind_of_ok {program : Fallible Op Answer ε α} {f : α → Fallible Op Answer ε β}
    {value : α} (h : Program.run exec program.run s = (.ok value, s')) :
    Program.run exec (program >>= f).run s = Program.run exec (f value).run s' := by
  rw [run_bind, h]

theorem run_bind_of_error {program : Fallible Op Answer ε α} {f : α → Fallible Op Answer ε β}
    {e : ε} (h : Program.run exec program.run s = (.error e, s')) :
    Program.run exec (program >>= f).run s = (.error e, s') := by
  rw [run_bind, h]

theorem actions_bind_of_ok {program : Fallible Op Answer ε α} {f : α → Fallible Op Answer ε β}
    {value : α} (h : Program.run exec program.run s = (.ok value, s')) :
    Program.actions exec visible (program >>= f).run s =
      Program.actions exec visible program.run s ++ Program.actions exec visible (f value).run s' := by
  rw [ExceptT.run_bind, Program.actions_bind, h]

theorem actions_bind_of_error {program : Fallible Op Answer ε α} {f : α → Fallible Op Answer ε β}
    {e : ε} (h : Program.run exec program.run s = (.error e, s')) :
    Program.actions exec visible (program >>= f).run s =
      Program.actions exec visible program.run s := by
  rw [ExceptT.run_bind, Program.actions_bind, h]
  exact List.append_nil _

theorem actions_bind_ne_nil {program : Fallible Op Answer ε α} {f : α → Fallible Op Answer ε β}
    (h : Program.actions exec visible program.run s ≠ []) :
    Program.actions exec visible (program >>= f).run s ≠ [] := by
  rw [ExceptT.run_bind, Program.actions_bind]
  exact List.append_ne_nil_of_left_ne_nil h _

variable (exec visible) in
/-- The two programs have the same effect on the state `s`. -/
structure SameEffect (a : Fallible Op Answer ε α) (b : Fallible Op Answer ε β) (s : σ) : Prop where
  actions : Program.actions exec visible a.run s = Program.actions exec visible b.run s
  state : (Program.run exec a.run s).2 = (Program.run exec b.run s).2
  success : Succeeded (Program.run exec a.run s).1 ↔ Succeeded (Program.run exec b.run s).1

namespace SameEffect

variable {a : Fallible Op Answer ε α} {b : Fallible Op Answer ε β} {c : Fallible Op Answer ε γ}

theorem refl (a : Fallible Op Answer ε α) (s : σ) : SameEffect exec visible a a s :=
  ⟨rfl, rfl, Iff.rfl⟩

theorem symm (h : SameEffect exec visible a b s) : SameEffect exec visible b a s :=
  ⟨h.actions.symm, h.state.symm, h.success.symm⟩

theorem trans (h : SameEffect exec visible a b s) (h' : SameEffect exec visible b c s) :
    SameEffect exec visible a c s :=
  ⟨h.actions.trans h'.actions, h.state.trans h'.state, h.success.trans h'.success⟩

/-- Another error in the place of the one that is returned. -/
theorem mapError (change : ε → ε) :
    SameEffect exec visible
      (ExceptT.mk (a.run >>= fun result => .ret (result.mapError change)) :
        Fallible Op Answer ε α) a s := by
  have hsuccess : ∀ result : Except ε α,
      Succeeded (result.mapError change) ↔ Succeeded result := by
    rintro (e | value)
    · exact iff_of_false (not_succeeded_error _) (not_succeeded_error _)
    · exact iff_of_true trivial trivial
  constructor
  · rw [ExceptT.run_mk, Program.actions_bind]
    exact List.append_nil _
  · rw [ExceptT.run_mk, Program.run_bind]
    rfl
  · rw [ExceptT.run_mk, Program.run_bind]
    exact hsuccess _

/-- The second parts are compared where the first parts succeed. -/
theorem bind {f : α → Fallible Op Answer ε γ} {g : β → Fallible Op Answer ε δ}
    (h : SameEffect exec visible a b s)
    (hnext : ∀ v w s', Program.run exec a.run s = (.ok v, s') →
      Program.run exec b.run s = (.ok w, s') → SameEffect exec visible (f v) (g w) s') :
    SameEffect exec visible (a >>= f) (b >>= g) s := by
  obtain ⟨hactions, hstate, hsuccess⟩ := h
  rcases ha : Program.run exec a.run s with ⟨e | v, t⟩
  · rcases hb : Program.run exec b.run s with ⟨e' | w, t'⟩
    · rw [ha, hb] at hstate
      constructor
      · rw [actions_bind_of_error ha, actions_bind_of_error hb, hactions]
      · rw [run_bind_of_error ha, run_bind_of_error hb]
        exact hstate
      · rw [run_bind_of_error ha, run_bind_of_error hb]
        exact iff_of_false (not_succeeded_error _) (not_succeeded_error _)
    · rw [ha, hb] at hsuccess
      exact absurd (hsuccess.mpr trivial) (not_succeeded_error _)
  · rcases hb : Program.run exec b.run s with ⟨e' | w, t'⟩
    · rw [ha, hb] at hsuccess
      exact absurd (hsuccess.mp trivial) (not_succeeded_error _)
    · rw [ha, hb] at hstate
      obtain rfl : t = t' := hstate
      have hrest := hnext v w t ha hb
      constructor
      · rw [actions_bind_of_ok ha, actions_bind_of_ok hb, hactions, hrest.actions]
      · rw [run_bind_of_ok ha, run_bind_of_ok hb]
        exact hrest.state
      · rw [run_bind_of_ok ha, run_bind_of_ok hb]
        exact hrest.success

/-- A first part without an effect. -/
theorem bind_quiet {f : α → Fallible Op Answer ε γ} {v : α}
    (hrun : Program.run exec a.run s = (.ok v, s))
    (hactions : Program.actions exec visible a.run s = []) :
    SameEffect exec visible (a >>= f) (f v) s := by
  constructor
  · rw [actions_bind_of_ok hrun, hactions, List.nil_append]
  · rw [run_bind_of_ok hrun]
  · rw [run_bind_of_ok hrun]

/-- A second part without an effect. -/
theorem bind_quiet_right {f : α → Fallible Op Answer ε γ}
    (hnext : ∀ v s', Program.run exec a.run s = (.ok v, s') →
      Program.actions exec visible (f v).run s' = [] ∧
        ∃ w, Program.run exec (f v).run s' = (.ok w, s')) :
    SameEffect exec visible (a >>= f) a s := by
  rcases ha : Program.run exec a.run s with ⟨e | v, t⟩
  · constructor
    · rw [actions_bind_of_error ha]
    · rw [run_bind_of_error ha, ha]
    · rw [run_bind_of_error ha, ha]
      exact iff_of_false (not_succeeded_error _) (not_succeeded_error _)
  · obtain ⟨hactions, w, hrun⟩ := hnext v t ha
    constructor
    · rw [actions_bind_of_ok ha, hactions, List.append_nil]
    · rw [run_bind_of_ok ha, hrun, ha]
    · rw [run_bind_of_ok ha, hrun, ha]
      exact iff_of_true trivial trivial

end SameEffect

end Fallible

end AtomicProgram
