import McKube.Trace.Machine
import Mathlib.Data.List.DropRight

/-!
# Latches

A latch is one bit, armed at first.  An input that disarms it fires if the
latch is armed; an input that rearms it has an effect only if it is not.

* `armedAfter_iff_last`: the bit described by the inputs alone.
* `ArmedSince`, `armedSince_concat`: the bit described by what has fired.
* `armedAfter_filter`: the other inputs do not matter.
-/

namespace Trace

/-- A latch over inputs `ι`; no input both disarms and rearms it. -/
structure Latch (ι : Type) where
  disarms : ι → Bool
  rearms : ι → Bool
  exclusive : ∀ x, disarms x = true → rearms x = false

namespace Latch

variable {ι : Type} (l : Latch ι)

def step (armed : Bool) (x : ι) : Bool :=
  if armed && l.disarms x then false else if !armed && l.rearms x then true else armed

/-- The bit after a list of inputs. -/
def armedAfter (xs : List ι) : Bool := xs.foldl l.step true

@[simp] theorem armedAfter_nil : l.armedAfter [] = true := rfl

@[simp] theorem armedAfter_concat (xs : List ι) (x : ι) :
    l.armedAfter (xs ++ [x]) = l.step (l.armedAfter xs) x := by
  simp [armedAfter, List.foldl_append]

theorem step_disarms {x : ι} (hx : l.disarms x = true) (armed : Bool) :
    l.step armed x = false := by
  have hrearms := l.exclusive x hx
  cases armed <;> simp [step, hx, hrearms]

theorem step_rearms {x : ι} (hx : l.rearms x = true) (armed : Bool) :
    l.step armed x = true := by
  have hdisarms : l.disarms x = false := by
    cases hd : l.disarms x with
    | false => rfl
    | true =>
        rw [l.exclusive x hd] at hx
        cases hx
  cases armed <;> simp [step, hx, hdisarms]

theorem step_eq_true_iff (armed : Bool) (x : ι) :
    l.step armed x = true ↔ l.disarms x = false ∧ (l.rearms x = true ∨ armed = true) := by
  cases hdisarms : l.disarms x with
  | true => simp [l.step_disarms hdisarms]
  | false => cases hrearms : l.rearms x <;> cases armed <;> simp [step, hdisarms, hrearms]

theorem step_other {x : ι} (hdisarms : l.disarms x = false) (hrearms : l.rearms x = false)
    (armed : Bool) : l.step armed x = armed := by
  simp [step, hdisarms, hrearms]

/-- The latch is armed iff the last input that disarms or rearms it rearms it. -/
theorem armedAfter_iff_last (xs : List ι) :
    l.armedAfter xs = true ↔
      ∀ x ∈ (xs.filter (fun x => l.disarms x || l.rearms x)).getLast?, l.rearms x = true := by
  induction xs using List.reverseRecOn with
  | nil => simp
  | append_singleton xs x ih =>
      rw [armedAfter_concat, List.filter_append]
      by_cases hdisarms : l.disarms x = true
      · simp [l.step_disarms hdisarms, hdisarms, l.exclusive x hdisarms]
      by_cases hrearms : l.rearms x = true
      · simp [l.step_rearms hrearms, hrearms]
      · simp only [Bool.not_eq_true] at hdisarms hrearms
        rw [l.step_other hdisarms hrearms, ih]
        simp [hdisarms, hrearms]

/-- Without a rearming input the latch stays armed iff nothing disarms it. -/
theorem armedAfter_append_of_not_rearms {xs ys : List ι}
    (hrearms : ∀ y ∈ ys, l.rearms y = false) :
    l.armedAfter (xs ++ ys) = true ↔
      l.armedAfter xs = true ∧ ∀ y ∈ ys, l.disarms y = false := by
  induction ys using List.reverseRecOn with
  | nil => simp
  | append_singleton ys y ih =>
      have hinit := ih (fun z hz => hrearms z (List.mem_append_left _ hz))
      rw [← List.append_assoc, armedAfter_concat, step_eq_true_iff, hinit]
      simp only [hrearms y (by simp), Bool.false_eq_true, false_or, List.mem_append,
        List.mem_singleton]
      constructor
      · rintro ⟨hy, harmed, hquiet⟩
        refine ⟨harmed, fun z hz => ?_⟩
        rcases hz with hz | rfl
        · exact hquiet z hz
        · exact hy
      · rintro ⟨harmed, hquiet⟩
        exact ⟨hquiet y (Or.inr rfl), harmed, fun z hz => hquiet z (Or.inl hz)⟩

/-- The inputs that neither disarm nor rearm can be left out. -/
theorem armedAfter_filter {keep : ι → Bool}
    (hkeep : ∀ x, keep x = false → l.disarms x = false ∧ l.rearms x = false) (xs : List ι) :
    l.armedAfter (xs.filter keep) = l.armedAfter xs := by
  induction xs using List.reverseRecOn with
  | nil => rfl
  | append_singleton xs x ih =>
      rw [List.filter_append, armedAfter_concat, ← ih]
      cases hx : keep x with
      | true => rw [List.filter_cons_of_pos hx, List.filter_nil, armedAfter_concat]
      | false =>
          obtain ⟨hdisarms, hrearms⟩ := hkeep x hx
          rw [l.step_other hdisarms hrearms]
          simp [hx]

end Latch

/-! ## Entries of a trace -/

section Entries

variable {ε : Type} (fired rearms : ε → Bool)

/-- No entry has fired, or a rearming entry came after the last one that has. -/
def ArmedSince (trace : List ε) : Prop :=
  (∀ e ∈ trace, fired e = false) ∨ ∃ e ∈ trace.rtakeWhile (fun e => !fired e), rearms e = true

theorem armedSince_nil : ArmedSince fired rearms [] :=
  Or.inl fun _ he => nomatch he

theorem armedSince_concat (trace : List ε) (e : ε) :
    ArmedSince fired rearms (trace ++ [e]) ↔
      fired e = false ∧ (rearms e = true ∨ ArmedSince fired rearms trace) := by
  cases hfired : fired e with
  | true => simp [ArmedSince, hfired]
  | false =>
      simp only [ArmedSince, List.rtakeWhile_concat, hfired, Bool.not_false, if_true,
        List.mem_append, List.mem_singleton, true_and]
      constructor
      · rintro (hquiet | ⟨y, hy | rfl, hrearms⟩)
        · exact Or.inr (Or.inl fun y hy => hquiet y (Or.inl hy))
        · exact Or.inr (Or.inr ⟨y, hy, hrearms⟩)
        · exact Or.inl hrearms
      · rintro (hrearms | hquiet | ⟨y, hy, hrearms⟩)
        · exact Or.inr ⟨e, Or.inr rfl, hrearms⟩
        · refine Or.inl fun y hy => ?_
          rcases hy with hy | rfl
          · exact hquiet y hy
          · exact hfired
        · exact Or.inr ⟨y, Or.inl hy, hrearms⟩

/-- A rearming entry with none that fires from it on. -/
theorem armedSince_append_cons {trace rest : List ε} {e : ε} (he : rearms e = true)
    (hquiet : ∀ y ∈ e :: rest, fired y = false) :
    ArmedSince fired rearms (trace ++ e :: rest) := by
  induction rest using List.reverseRecOn with
  | nil => exact (armedSince_concat fired rearms trace e).mpr ⟨hquiet e (by simp), Or.inl he⟩
  | append_singleton rest y ih =>
      rw [← List.cons_append, ← List.append_assoc, armedSince_concat]
      refine ⟨hquiet y (by simp), Or.inr (ih fun z hz => hquiet z ?_)⟩
      rw [← List.cons_append]
      exact List.mem_append_left _ hz

instance (trace : List ε) : Decidable (ArmedSince fired rearms trace) :=
  inferInstanceAs (Decidable (_ ∨ _))

end Entries

end Trace
