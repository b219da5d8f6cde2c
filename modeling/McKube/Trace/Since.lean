import McKube.Trace.Machine

/-!
# Since

`Since P Q xs` says that, in the run `xs`, some input came at a moment with `P`,
and every later input came at a moment with `Q`.

* `since_concat_iff`: one more input.
* `Machine.since_of_state`, `Machine.state_of_since`: what the state of a machine
  says about the past, and what the past says about the state.
-/

namespace Trace

variable {ι : Type} {P Q : List ι → ι → Prop}

/-- At some moment of the run there was `P`, and `Q` at all moments after it. -/
def Since (P Q : List ι → ι → Prop) (xs : List ι) : Prop :=
  ∃ p x q, xs = p ++ x :: q ∧ P p x ∧ ∀ q₁ y q₂, q = q₁ ++ y :: q₂ → Q (p ++ x :: q₁) y

@[simp] theorem not_since_nil : ¬ Since P Q [] := by
  rintro ⟨p, x, q, hsplit, -⟩
  simp at hsplit

theorem since_concat_iff {xs : List ι} {x : ι} :
    Since P Q (xs ++ [x]) ↔ P xs x ∨ (Since P Q xs ∧ Q xs x) := by
  constructor
  · rintro ⟨p, z, q, hsplit, hP, hQ⟩
    -- the moment with `P` is before the last input, or it is the last input
    rcases concat_eq_append_cons_iff.mp hsplit with ⟨q', rfl, rfl⟩ | ⟨rfl, rfl, rfl⟩
    · refine Or.inr ⟨⟨p, z, q', rfl, hP, fun q₁ y q₂ hq' => ?_⟩, hQ q' x [] rfl⟩
      exact hQ q₁ y (q₂ ++ [x]) (by rw [hq', List.append_assoc, List.cons_append])
    · exact Or.inl hP
  · rintro (hP | ⟨⟨p, z, q, rfl, hP, hQ⟩, hlast⟩)
    · exact ⟨xs, x, [], rfl, hP, fun q₁ y q₂ hnil => by simp at hnil⟩
    · refine ⟨p, z, q ++ [x], by simp, hP, fun q₁ y q₂ hsplit => ?_⟩
      rcases concat_eq_append_cons_iff.mp hsplit with ⟨q', rfl, rfl⟩ | ⟨rfl, rfl, rfl⟩
      · exact hQ q₁ y q' rfl
      · exact hlast

/-- If something came and there was no `Q` in between, then there was not `Q`. -/
theorem exists_not_of_not_since {p q : List ι} {x : ι} (hP : P p x)
    (h : ¬ Since P (fun p y => ¬ Q p y) (p ++ x :: q)) :
    ∃ q₁ y q₂, q = q₁ ++ y :: q₂ ∧ Q (p ++ x :: q₁) y := by
  by_contra hnone
  exact h ⟨p, x, q, rfl, hP, fun q₁ y q₂ hsplit hQ => hnone ⟨q₁, y, q₂, hsplit, hQ⟩⟩

namespace Machine

variable {σ ω : Type} (m : Machine σ ι ω)

/-- A property of the state that only `P` brings about, and that only lasts while
there is `Q`, tells of the past. -/
theorem since_of_state {J : σ → Prop} (hinit : ¬ J m.init)
    (hstep : ∀ p x, J (m.stateAfter (p ++ [x])) → P p x ∨ (J (m.stateAfter p) ∧ Q p x))
    {xs : List ι} (h : J (m.stateAfter xs)) : Since P Q xs := by
  induction xs using List.reverseRecOn with
  | nil => exact absurd h hinit
  | append_singleton xs x ih =>
      rw [since_concat_iff]
      exact (hstep xs x h).imp_right fun hlater => ⟨ih hlater.1, hlater.2⟩

/-- A property of the state that `P` brings about, and that lasts while there
is `Q`. -/
theorem state_of_since {J : σ → Prop} (hnow : ∀ p x, P p x → J (m.stateAfter (p ++ [x])))
    (hlater : ∀ p x, J (m.stateAfter p) → Q p x → J (m.stateAfter (p ++ [x]))) {xs : List ι}
    (h : Since P Q xs) : J (m.stateAfter xs) := by
  induction xs using List.reverseRecOn with
  | nil => exact absurd h not_since_nil
  | append_singleton xs x ih =>
      rcases since_concat_iff.mp h with hP | ⟨hsince, hQ⟩
      · exact hnow xs x hP
      · exact hlater xs x (ih hsince) hQ

end Machine

end Trace
