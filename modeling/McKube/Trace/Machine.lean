import Mathlib.Data.List.Induction
import Mathlib.Tactic.Common

/-!
# Machines driven by inputs

A `Machine` answers each input with an output and a new state.  A run is the
list of its inputs; a moment of a run is a split of this list, written
`p ++ x :: q` when the input `x` is about to be taken.

* `trace_append`, `trace_concat`: the trace of a run in two parts.
* `Machine.invariant`: the invariant rule.
* `Machine.always_iff_of_admissible`, `Machine.always_iff`: a property that the
  good inputs keep, and the others destroy, holds in every state of a run iff all
  inputs are good.
-/

namespace Trace

/-! ## Splits of a list -/

/-- The moments of a run with one more input at the end. -/
theorem concat_eq_append_cons_iff {α : Type} {xs p q : List α} {x y : α} :
    xs ++ [x] = p ++ y :: q ↔
      (∃ q', q = q' ++ [x] ∧ xs = p ++ y :: q') ∨ (q = [] ∧ xs = p ∧ x = y) := by
  constructor
  · intro h
    rcases List.eq_nil_or_concat q with rfl | ⟨q', z, rfl⟩
    · obtain ⟨hinit, hlast⟩ := List.append_inj' h rfl
      exact Or.inr ⟨rfl, hinit, List.head_eq_of_cons_eq hlast⟩
    · rw [List.concat_eq_append, ← List.cons_append, ← List.append_assoc] at h
      obtain ⟨hinit, hlast⟩ := List.append_inj' h rfl
      refine Or.inl ⟨q', ?_, hinit⟩
      rw [List.concat_eq_append, hlast]
  · rintro (⟨q', rfl, rfl⟩ | ⟨rfl, rfl, rfl⟩)
    · simp
    · rfl

/-! ## Machines -/

/-- A machine with states `σ`, inputs `ι` and outputs `ω`. -/
structure Machine (σ ι ω : Type) where
  init : σ
  step : σ → ι → σ × ω

namespace Machine

variable {σ ι ω : Type} (m : Machine σ ι ω)

/-- The state after a list of inputs. -/
def stateAfter (xs : List ι) : σ := xs.foldl (fun s x => (m.step s x).1) m.init

/-- The output for the input `x` after the inputs `p`. -/
def outputAt (p : List ι) (x : ι) : ω := (m.step (m.stateAfter p) x).2

@[simp] theorem stateAfter_nil : m.stateAfter [] = m.init := rfl

@[simp] theorem stateAfter_concat (xs : List ι) (x : ι) :
    m.stateAfter (xs ++ [x]) = (m.step (m.stateAfter xs) x).1 := by
  simp [stateAfter, List.foldl_append]

/-- One moment of a run, as a step of the machine. -/
theorem step_stateAfter (p : List ι) (x : ι) :
    m.step (m.stateAfter p) x = (m.stateAfter (p ++ [x]), m.outputAt p x) := by
  rw [stateAfter_concat]
  rfl

/-- The inputs with their outputs, from the state `s` on. -/
def traceFrom (s : σ) : List ι → List (ι × ω)
  | [] => []
  | x :: xs => (x, (m.step s x).2) :: traceFrom (m.step s x).1 xs

/-- The inputs of a run with their outputs. -/
def trace (xs : List ι) : List (ι × ω) := m.traceFrom m.init xs

@[simp] theorem trace_nil : m.trace [] = [] := rfl

theorem traceFrom_append (s : σ) (xs ys : List ι) :
    m.traceFrom s (xs ++ ys) =
      m.traceFrom s xs ++ m.traceFrom (xs.foldl (fun s x => (m.step s x).1) s) ys := by
  induction xs generalizing s with
  | nil => rfl
  | cons x xs ih =>
      show (x, (m.step s x).2) :: m.traceFrom (m.step s x).1 (xs ++ ys) = _
      rw [ih]
      rfl

theorem trace_append (xs ys : List ι) :
    m.trace (xs ++ ys) = m.trace xs ++ m.traceFrom (m.stateAfter xs) ys :=
  m.traceFrom_append m.init xs ys

@[simp] theorem trace_concat (xs : List ι) (x : ι) :
    m.trace (xs ++ [x]) = m.trace xs ++ [(x, m.outputAt xs x)] :=
  m.trace_append xs [x]

theorem traceFrom_concat (xs ys : List ι) (y : ι) :
    m.traceFrom (m.stateAfter xs) (ys ++ [y]) =
      m.traceFrom (m.stateAfter xs) ys ++ [(y, m.outputAt (xs ++ ys) y)] := by
  rw [traceFrom_append]
  congr 1
  show [(y, (m.step _ y).2)] = _
  rw [outputAt, stateAfter, stateAfter, List.foldl_append]

/-- An entry of the trace from a moment on. -/
theorem mem_traceFrom_iff {xs ys : List ι} {e : ι × ω} :
    e ∈ m.traceFrom (m.stateAfter xs) ys ↔
      ∃ p q, ys = p ++ e.1 :: q ∧ m.outputAt (xs ++ p) e.1 = e.2 := by
  induction ys using List.reverseRecOn with
  | nil => simp [traceFrom]
  | append_singleton ys y ih =>
      rw [traceFrom_concat, List.mem_append, ih, List.mem_singleton]
      constructor
      · rintro (⟨p, q, rfl, houtput⟩ | rfl)
        · exact ⟨p, q ++ [y], by simp, houtput⟩
        · exact ⟨ys, [], rfl, rfl⟩
      · rintro ⟨p, q, hsplit, houtput⟩
        rcases concat_eq_append_cons_iff.mp hsplit with ⟨q', -, hys⟩ | ⟨-, rfl, rfl⟩
        · exact Or.inl ⟨p, q', hys, houtput⟩
        · exact Or.inr (Prod.ext rfl houtput.symm)

/-- The inputs with the states in which they are taken, from the state `s` on. -/
def momentsFrom (s : σ) : List ι → List (σ × ι)
  | [] => []
  | x :: xs => (s, x) :: momentsFrom (m.step s x).1 xs

/-- The inputs of a run with the states in which they are taken. -/
def moments (xs : List ι) : List (σ × ι) := m.momentsFrom m.init xs

@[simp] theorem moments_nil : m.moments [] = [] := rfl

theorem momentsFrom_append (s : σ) (xs ys : List ι) :
    m.momentsFrom s (xs ++ ys) =
      m.momentsFrom s xs ++ m.momentsFrom (xs.foldl (fun s x => (m.step s x).1) s) ys := by
  induction xs generalizing s with
  | nil => rfl
  | cons x xs ih =>
      show (s, x) :: m.momentsFrom (m.step s x).1 (xs ++ ys) = _
      rw [ih]
      rfl

@[simp] theorem moments_concat (xs : List ι) (x : ι) :
    m.moments (xs ++ [x]) = m.moments xs ++ [(m.stateAfter xs, x)] :=
  m.momentsFrom_append m.init xs [x]

theorem length_momentsFrom (s : σ) (xs : List ι) : (m.momentsFrom s xs).length = xs.length := by
  induction xs generalizing s with
  | nil => rfl
  | cons x xs ih => rw [momentsFrom, List.length_cons, List.length_cons, ih]

theorem map_fst_traceFrom (s : σ) (xs : List ι) : (m.traceFrom s xs).map Prod.fst = xs := by
  induction xs generalizing s with
  | nil => rfl
  | cons x xs ih =>
      rw [traceFrom, List.map_cons, ih]

/-- The moment of an entry of the trace. -/
theorem trace_eq_append_cons {xs : List ι} {t r : List (ι × ω)} {e : ι × ω}
    (htrace : m.trace xs = t ++ e :: r) :
    ∃ p q, xs = p ++ e.1 :: q ∧ m.trace p = t ∧ m.outputAt p e.1 = e.2 := by
  have hinputs : xs = t.map Prod.fst ++ e.1 :: r.map Prod.fst := by
    rw [← m.map_fst_traceFrom m.init xs]
    show (m.trace xs).map Prod.fst = _
    rw [htrace, List.map_append, List.map_cons]
  refine ⟨t.map Prod.fst, r.map Prod.fst, hinputs, ?_⟩
  rw [hinputs, trace_append] at htrace
  have hlength : (m.trace (t.map Prod.fst)).length = t.length := by
    rw [← List.length_map Prod.fst]
    show ((m.traceFrom m.init (t.map Prod.fst)).map Prod.fst).length = t.length
    rw [map_fst_traceFrom, List.length_map]
  obtain ⟨hinit, htail⟩ := List.append_inj htrace hlength
  exact ⟨hinit, congrArg Prod.snd (List.head_eq_of_cons_eq htail)⟩

/-- The invariant rule. -/
theorem invariant {I : σ → Prop} (hinit : I m.init)
    (hstep : ∀ s x, I s → I (m.step s x).1) (xs : List ι) : I (m.stateAfter xs) := by
  induction xs using List.reverseRecOn with
  | nil => exact hinit
  | append_singleton xs x ih =>
      rw [stateAfter_concat]
      exact hstep _ x ih

/-- At an admissible input, the property is kept iff the input is good; then,
in a run of admissible inputs, the property holds in all states iff all inputs
are good. -/
theorem always_iff_of_admissible {I : σ → Prop} {admissible good : σ → ι → Prop}
    (hinit : I m.init)
    (hstep : ∀ s x, admissible s x → I s → (I (m.step s x).1 ↔ good s x)) {xs : List ι}
    (hadmissible : ∀ p x q, xs = p ++ x :: q → admissible (m.stateAfter p) x) :
    (∀ p q, xs = p ++ q → I (m.stateAfter p)) ↔
      ∀ p x q, xs = p ++ x :: q → good (m.stateAfter p) x := by
  constructor
  · intro halways p x q hsplit
    apply (hstep _ x (hadmissible p x q hsplit) (halways p (x :: q) hsplit)).mp
    rw [← stateAfter_concat]
    exact halways (p ++ [x]) q (by rw [hsplit, List.append_assoc, List.singleton_append])
  · intro hgood p
    induction p using List.reverseRecOn with
    | nil => exact fun _ _ => hinit
    | append_singleton p x ih =>
        intro q hsplit
        have hsplit' : xs = p ++ x :: q := by
          rw [hsplit, List.append_assoc, List.singleton_append]
        rw [stateAfter_concat]
        exact (hstep _ x (hadmissible p x q hsplit') (ih (x :: q) hsplit')).mpr
          (hgood p x q hsplit')

/-- In a state with the property, an input keeps the property iff it is good;
then the property holds in all states of a run iff all its inputs are good. -/
theorem always_iff {J I : σ → Prop} {good : σ → ι → Prop} (hinvariant : ∀ xs, J (m.stateAfter xs))
    (hinit : I m.init) (hstep : ∀ s x, J s → I s → (I (m.step s x).1 ↔ good s x))
    (xs : List ι) :
    (∀ p q, xs = p ++ q → I (m.stateAfter p)) ↔
      ∀ p x q, xs = p ++ x :: q → good (m.stateAfter p) x :=
  m.always_iff_of_admissible hinit hstep fun p _ _ _ => hinvariant p

end Machine

end Trace
