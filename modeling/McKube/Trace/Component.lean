import McKube.Trace.Machine

/-!
# Components of a machine

A machine often has parts that are machines themselves: a part of its state changes only by
inputs of its own, which are made from the inputs of the whole and the state they find.

* `Component.stateAfter_inputs`: the part is where its own inputs bring it.
* `Component.outputs_eq`: what the whole shows of the part is what the part puts out.
-/

namespace Trace

theorem filterMap_concat {α β : Type} (f : α → Option β) (l : List α) (a : α) :
    (l ++ [a]).filterMap f = l.filterMap f ++ (f a).toList := by
  rw [List.filterMap_append]
  cases hfa : f a with
  | none => simp [hfa]
  | some b => simp [hfa]

variable {σ ι ω τ κ β : Type}

/-- The machine `m` as a part of the machine `whole`. -/
structure Component (whole : Machine σ ι ω) (m : Machine τ κ β) where
  state : σ → τ
  input : σ → ι → Option κ
  init : state whole.init = m.init
  step : ∀ s x, state (whole.step s x).1 =
    (input s x).elim (state s) fun k => (m.step (state s) k).1

namespace Component

variable {whole : Machine σ ι ω} {m : Machine τ κ β} (c : Component whole m)

/-- The inputs of the part in a run of the whole. -/
def inputs (xs : List ι) : List κ :=
  (whole.moments xs).filterMap fun moment => c.input moment.1 moment.2

theorem inputs_concat (xs : List ι) (x : ι) :
    c.inputs (xs ++ [x]) = c.inputs xs ++ (c.input (whole.stateAfter xs) x).toList := by
  unfold inputs
  rw [Machine.moments_concat, filterMap_concat]

theorem stateAfter_inputs (xs : List ι) :
    c.state (whole.stateAfter xs) = m.stateAfter (c.inputs xs) := by
  induction xs using List.reverseRecOn with
  | nil => exact c.init
  | append_singleton xs x ih =>
      rw [Machine.stateAfter_concat, c.step, c.inputs_concat, ih]
      cases c.input (whole.stateAfter xs) x with
      | none => simp
      | some k => simp

/-- An input of the part belongs to a moment of the whole. -/
theorem mem_inputs {xs : List ι} {k : κ} (hk : k ∈ c.inputs xs) :
    ∃ p x q, xs = p ++ x :: q ∧ c.input (whole.stateAfter p) x = some k := by
  induction xs using List.reverseRecOn with
  | nil => cases hk
  | append_singleton xs x ih =>
      rw [inputs_concat, List.mem_append, Option.mem_toList] at hk
      rcases hk with hold | hnew
      · obtain ⟨p, y, q, rfl, hy⟩ := ih hold
        exact ⟨p, y, q ++ [x], by simp, hy⟩
      · exact ⟨xs, x, [], rfl, hnew⟩

/-- What the whole shows of the part. -/
def outputs {γ : Type} (shown : ω → Option γ) (whole : Machine σ ι ω) (xs : List ι) : List γ :=
  (whole.trace xs).filterMap fun entry => shown entry.2

theorem outputs_concat {γ : Type} (shown : ω → Option γ) (xs : List ι) (x : ι) :
    outputs shown whole (xs ++ [x]) =
      outputs shown whole xs ++ (shown (whole.outputAt xs x)).toList := by
  unfold outputs
  rw [Machine.trace_concat, filterMap_concat]

/-- If the whole shows what the part puts out at each step, it does so over a run. -/
theorem outputs_eq {γ : Type} {m : Machine τ κ (Option γ)} (c : Component whole m)
    {shown : ω → Option γ}
    (hshown : ∀ s x, shown (whole.step s x).2 =
      (c.input s x).bind fun k => (m.step (c.state s) k).2) (xs : List ι) :
    outputs shown whole xs = (m.trace (c.inputs xs)).filterMap Prod.snd := by
  induction xs using List.reverseRecOn with
  | nil => rfl
  | append_singleton xs x ih =>
      rw [outputs_concat, ih, c.inputs_concat, Machine.outputAt, hshown]
      cases c.input (whole.stateAfter xs) x with
      | none => simp
      | some k =>
          rw [Option.toList_some, Machine.trace_concat, filterMap_concat, Option.bind_some,
            c.stateAfter_inputs]
          rfl

end Component

end Trace
