import Mathlib.Logic.Function.Basic
import Mathlib.Tactic.Common

/-!
# Programs of atomic actions over a shared state

A `Program Op Answer α` is a finite-branching tree: it has either returned a
value, or it performs one action `op : Op` and continues with the answer of
the environment, of type `Answer op`.  What an action does to the state is
not part of the tree.  It is given by an executor
`exec : (op : Op) → σ → Answer op × σ`, so that one program can be run alone,
observed action by action, or run against another program.

* `run` and `trace`: the sequential meaning, and every action with the state
  that it leaves.
* `Performs` and `Returns`: static bounds on the actions and on the results of
  a program.
* `Establishes`: every successful path passes an action after which a given
  property of the state holds.
* Programs that may stop with an error are `ExceptT ε (Program Op Answer)`;
  each of the notions has its rule for the `bind` of that monad.
-/

namespace AtomicProgram

/-- A program: a returned value, or one action and a continuation. -/
inductive Program (Op : Type) (Answer : Op → Type) (α : Type) where
  | ret (value : α)
  | act (op : Op) (next : Answer op → Program Op Answer α)

namespace Program

variable {Op : Type} {Answer : Op → Type} {α β γ ε σ : Type}

/-- Sequential composition: graft `f` onto the returned values. -/
def bind : Program Op Answer α → (α → Program Op Answer β) → Program Op Answer β
  | .ret value, f => f value
  | .act op next, f => .act op fun answer => (next answer).bind f

instance : Monad (Program Op Answer) where
  pure := .ret
  bind := bind

@[simp] theorem pure_eq_ret (value : α) :
    (pure value : Program Op Answer α) = .ret value := rfl

@[simp] theorem ret_bind (value : α) (f : α → Program Op Answer β) :
    (Program.ret value >>= f) = f value := rfl

@[simp] theorem act_bind (op : Op) (next : Answer op → Program Op Answer α)
    (f : α → Program Op Answer β) :
    (Program.act op next >>= f) = .act op fun answer => next answer >>= f := rfl

theorem bind_ret (program : Program Op Answer α) : program.bind .ret = program := by
  induction program with
  | ret value => rfl
  | act op next ih => exact congrArg (Program.act op) (funext ih)

theorem bind_assoc (program : Program Op Answer α) (f : α → Program Op Answer β)
    (g : β → Program Op Answer γ) :
    (program.bind f).bind g = program.bind fun value => (f value).bind g := by
  induction program with
  | ret value => rfl
  | act op next ih => exact congrArg (Program.act op) (funext ih)

instance : LawfulMonad (Program Op Answer) :=
  LawfulMonad.mk' (Program Op Answer) bind_ret (fun _ _ => rfl) bind_assoc

/-- The program that performs one action and returns its answer. -/
def perform (op : Op) : Program Op Answer (Answer op) := .act op .ret

/-! ## The sequential meaning -/

section Sequential

variable (exec : (op : Op) → σ → Answer op × σ)

/-- Run a program alone from a state. -/
def run : Program Op Answer α → σ → α × σ
  | .ret value, s => (value, s)
  | .act op next, s => (next (exec op s).1).run (exec op s).2

/-- One performed action with its answer and the state that it leaves. -/
structure Event (Op : Type) (Answer : Op → Type) (σ : Type) where
  op : Op
  answer : Answer op
  after : σ

/-- The actions of a sequential run, in order. -/
def trace : Program Op Answer α → σ → List (Event Op Answer σ)
  | .ret _, _ => []
  | .act op next, s =>
      ⟨op, (exec op s).1, (exec op s).2⟩ ::
        (next (exec op s).1).trace (exec op s).2

@[simp] theorem run_ret (value : α) (s : σ) :
    (Program.ret value : Program Op Answer α).run exec s = (value, s) := rfl

@[simp] theorem run_act (op : Op) (next : Answer op → Program Op Answer α) (s : σ) :
    (Program.act op next).run exec s = (next (exec op s).1).run exec (exec op s).2 := rfl

@[simp] theorem run_perform (op : Op) (s : σ) :
    (perform op : Program Op Answer (Answer op)).run exec s = exec op s := rfl

theorem run_bind (program : Program Op Answer α) (f : α → Program Op Answer β) (s : σ) :
    (program >>= f).run exec s =
      (f (program.run exec s).1).run exec (program.run exec s).2 := by
  induction program generalizing s with
  | ret value => rfl
  | act op next ih => exact ih (exec op s).1 (exec op s).2

@[simp] theorem trace_ret (value : α) (s : σ) :
    (Program.ret value : Program Op Answer α).trace exec s = [] := rfl

@[simp] theorem trace_act (op : Op) (next : Answer op → Program Op Answer α) (s : σ) :
    (Program.act op next).trace exec s =
      ⟨op, (exec op s).1, (exec op s).2⟩ ::
        (next (exec op s).1).trace exec (exec op s).2 := rfl

theorem trace_bind (program : Program Op Answer α) (f : α → Program Op Answer β) (s : σ) :
    (program >>= f).trace exec s =
      program.trace exec s ++
        (f (program.run exec s).1).trace exec (program.run exec s).2 := by
  induction program generalizing s with
  | ret value => rfl
  | act op next ih =>
      simp only [act_bind, trace_act, run_act, List.cons_append, List.cons.injEq, true_and]
      exact ih (exec op s).1 (exec op s).2

/-- A run ends where it has started, or where one of its actions has left it. -/
theorem run_eq_or_mem_trace (program : Program Op Answer α) (s : σ) :
    (program.run exec s).2 = s ∨
      ∃ event ∈ program.trace exec s, event.after = (program.run exec s).2 := by
  induction program generalizing s with
  | ret value => exact Or.inl rfl
  | act op next ih =>
      right
      rcases ih (exec op s).1 (exec op s).2 with hsame | ⟨event, hevent, hafter⟩
      · exact ⟨_, List.mem_cons_self, hsame.symm⟩
      · exact ⟨event, List.mem_cons_of_mem _ hevent, hafter⟩

end Sequential

/-! ## A static bound on the actions -/

/-- Whatever the answers are, the program performs only actions in `allowed`. -/
def Performs (allowed : Op → Prop) : Program Op Answer α → Prop
  | .ret _ => True
  | .act op next => allowed op ∧ ∀ answer, (next answer).Performs allowed

theorem Performs.mono {allowed wider : Op → Prop} (hwider : ∀ op, allowed op → wider op) :
    ∀ {program : Program Op Answer α}, program.Performs allowed → program.Performs wider
  | .ret _, _ => trivial
  | .act op _, h => ⟨hwider op h.1, fun answer => (h.2 answer).mono hwider⟩

theorem Performs.bind {allowed : Op → Prop} {program : Program Op Answer α}
    {f : α → Program Op Answer β} (h : program.Performs allowed)
    (hf : ∀ value, (f value).Performs allowed) : (program >>= f).Performs allowed := by
  induction program with
  | ret value => exact hf value
  | act op next ih => exact ⟨h.1, fun answer => ih answer (h.2 answer)⟩

/-- The invariant rule: a property kept by every allowed action holds at the
end of a run if it holds at the start. -/
theorem Performs.run_invariant {exec : (op : Op) → σ → Answer op × σ}
    {allowed : Op → Prop} {I : σ → Prop} {program : Program Op Answer α}
    (h : program.Performs allowed)
    (hkeep : ∀ op, allowed op → ∀ s, I s → I (exec op s).2)
    {s : σ} (hs : I s) : I (program.run exec s).2 := by
  induction program generalizing s with
  | ret value => exact hs
  | act op next ih => exact ih (exec op s).1 (h.2 _) (hkeep op h.1 s hs)

/-! ## A static bound on the results -/

/-- Whatever the answers are, the program returns only values in `possible`. -/
def Returns (possible : α → Prop) : Program Op Answer α → Prop
  | .ret value => possible value
  | .act _ next => ∀ answer, (next answer).Returns possible

theorem returns_true : ∀ program : Program Op Answer α, program.Returns fun _ => True
  | .ret _ => trivial
  | .act _ next => fun answer => returns_true (next answer)

theorem Returns.mono {possible wider : α → Prop}
    (hwider : ∀ value, possible value → wider value) :
    ∀ {program : Program Op Answer α}, program.Returns possible → program.Returns wider
  | .ret value, h => hwider value h
  | .act _ _, h => fun answer => (h answer).mono hwider

theorem Returns.bind {middle : α → Prop} {possible : β → Prop}
    {program : Program Op Answer α} {f : α → Program Op Answer β}
    (h : program.Returns middle) (hf : ∀ value, middle value → (f value).Returns possible) :
    (program >>= f).Returns possible := by
  induction program with
  | ret value => exact hf value h
  | act op next ih => exact fun answer => ih answer (h answer)

theorem Returns.run {exec : (op : Op) → σ → Answer op × σ} {possible : α → Prop}
    {program : Program Op Answer α} (h : program.Returns possible) (s : σ) :
    possible (program.run exec s).1 := by
  induction program generalizing s with
  | ret value => exact h
  | act op next ih => exact ih (exec op s).1 (h _) (exec op s).2

/-- The bound on the actions of a composition, when the results of the first
part are bounded too. -/
theorem Performs.bind_of_returns {allowed : Op → Prop} {middle : α → Prop}
    {program : Program Op Answer α} {f : α → Program Op Answer β}
    (h : program.Performs allowed) (hreturns : program.Returns middle)
    (hf : ∀ value, middle value → (f value).Performs allowed) :
    (program >>= f).Performs allowed := by
  induction program with
  | ret value => exact hf value hreturns
  | act op next ih => exact ⟨h.1, fun answer => ih answer (h.2 answer) (hreturns answer)⟩

/-! ## Properties that every successful path establishes -/

/-- Every path on which the program returns a value in `success` performs an
action after which `I` holds of the state.  The states between two actions
are arbitrary, so that the property does not depend on what other programs
do in between. -/
def Establishes (exec : (op : Op) → σ → Answer op × σ) (I : σ → Prop)
    (success : α → Prop) : Program Op Answer α → Prop
  | .ret value => ¬ success value
  | .act op next =>
      ∀ s, I (exec op s).2 ∨ (next (exec op s).1).Establishes exec I success

theorem Establishes.mono {exec : (op : Op) → σ → Answer op × σ} {I J : σ → Prop}
    {success : α → Prop} (hweaker : ∀ s, I s → J s) {program : Program Op Answer α}
    (h : program.Establishes exec I success) : program.Establishes exec J success := by
  induction program with
  | ret value => exact h
  | act op next ih => exact fun s => (h s).imp (hweaker _) (ih _)

/-- A composition establishes what its first part establishes, if the second
part is left with the failures of the first. -/
theorem Establishes.bind {exec : (op : Op) → σ → Answer op × σ} {I : σ → Prop}
    {success : α → Prop} {success' : β → Prop} {program : Program Op Answer α}
    {f : α → Program Op Answer β} (h : program.Establishes exec I success)
    (hf : ∀ value, ¬ success value → (f value).Establishes exec I success') :
    (program >>= f).Establishes exec I success' := by
  induction program with
  | ret value => exact hf value h
  | act op next ih => exact fun s => (h s).imp_right (ih _)

/-- The rule of a sequential run: what a successful path establishes and no
action destroys holds at the end. -/
theorem Establishes.run {exec : (op : Op) → σ → Answer op × σ} {I : σ → Prop}
    {success : α → Prop} {allowed : Op → Prop} {program : Program Op Answer α}
    (h : program.Establishes exec I success) (hperforms : program.Performs allowed)
    (hkeep : ∀ op, allowed op → ∀ s, I s → I (exec op s).2)
    {s : σ} (hsuccess : success (program.run exec s).1) : I (program.run exec s).2 := by
  induction program generalizing s with
  | ret value => exact absurd hsuccess h
  | act op next ih =>
      rcases h s with hI | hnext
      · exact (hperforms.2 _).run_invariant hkeep hI
      · exact ih (exec op s).1 hnext (hperforms.2 _) hsuccess

end Program

/-! ## Programs that may stop with an error -/

/-- The programs of an error type `ε`; `throw` ends the program. -/
abbrev Fallible (Op : Type) (Answer : Op → Type) (ε : Type) :=
  ExceptT ε (Program Op Answer)

namespace Fallible

variable {Op : Type} {Answer : Op → Type} {α β ε σ : Type}

/-- The successful results of a program that may stop with an error. -/
def Succeeded : Except ε α → Prop
  | .ok _ => True
  | .error _ => False

@[simp] theorem succeeded_ok (value : α) : Succeeded (.ok value : Except ε α) := trivial

@[simp] theorem not_succeeded_error (e : ε) : ¬ Succeeded (.error e : Except ε α) :=
  fun h => h

theorem run_bind (exec : (op : Op) → σ → Answer op × σ)
    (program : Fallible Op Answer ε α) (f : α → Fallible Op Answer ε β) (s : σ) :
    Program.run exec (program >>= f).run s =
      match Program.run exec program.run s with
      | (.ok value, s') => Program.run exec (f value).run s'
      | (.error e, s') => (.error e, s') := by
  rw [ExceptT.run_bind, Program.run_bind]
  rcases Program.run exec program.run s with ⟨value | value, s'⟩ <;> rfl

theorem trace_bind (exec : (op : Op) → σ → Answer op × σ)
    (program : Fallible Op Answer ε α) (f : α → Fallible Op Answer ε β) (s : σ) :
    Program.trace exec (program >>= f).run s =
      Program.trace exec program.run s ++
        match Program.run exec program.run s with
        | (.ok value, s') => Program.trace exec (f value).run s'
        | (.error _, _) => [] := by
  rw [ExceptT.run_bind, Program.trace_bind]
  rcases Program.run exec program.run s with ⟨value | value, s'⟩ <;> rfl

/-- A successful run of a composition splits into two successful runs. -/
theorem run_bind_eq_ok {exec : (op : Op) → σ → Answer op × σ}
    {program : Fallible Op Answer ε α} {f : α → Fallible Op Answer ε β} {s s'' : σ}
    {result : β} (h : Program.run exec (program >>= f).run s = (.ok result, s'')) :
    ∃ value s', Program.run exec program.run s = (.ok value, s') ∧
      Program.run exec (f value).run s' = (.ok result, s'') := by
  rw [run_bind] at h
  rcases hrun : Program.run exec program.run s with ⟨e | value, s'⟩
  · rw [hrun] at h
    simp at h
  · rw [hrun] at h
    exact ⟨value, s', rfl, h⟩

/-- The successful results of the program lie in `possible`. -/
def Yields (possible : α → Prop) (program : Fallible Op Answer ε α) : Prop :=
  Program.Returns (fun result => ∀ value, result = .ok value → possible value) program.run

theorem yields_true (program : Fallible Op Answer ε α) : program.Yields fun _ => True :=
  (Program.returns_true program.run).mono fun _ _ _ _ => trivial

theorem Yields.bind {middle : α → Prop} {possible : β → Prop}
    {program : Fallible Op Answer ε α} {f : α → Fallible Op Answer ε β}
    (h : program.Yields middle) (hf : ∀ value, middle value → Yields possible (f value)) :
    Yields possible (program >>= f) := by
  unfold Yields
  rw [ExceptT.run_bind]
  refine Program.Returns.bind h fun result hresult => ?_
  cases result with
  | ok value => exact hf value (hresult value rfl)
  | error e =>
      intro value heq
      cases heq

theorem Yields.run {exec : (op : Op) → σ → Answer op × σ} {possible : α → Prop}
    {program : Fallible Op Answer ε α} (h : program.Yields possible) {s s' : σ} {value : α}
    (hrun : Program.run exec program.run s = (.ok value, s')) : possible value :=
  Program.Returns.run h s value (by rw [hrun])

theorem performs_bind_of_yields {allowed : Op → Prop} {middle : α → Prop}
    {program : Fallible Op Answer ε α} {f : α → Fallible Op Answer ε β}
    (h : Program.Performs allowed program.run) (hyields : program.Yields middle)
    (hf : ∀ value, middle value → Program.Performs allowed (f value).run) :
    Program.Performs allowed (program >>= f).run := by
  rw [ExceptT.run_bind]
  refine Program.Performs.bind_of_returns h hyields fun result hresult => ?_
  cases result with
  | ok value => exact hf value (hresult value rfl)
  | error e => exact trivial

theorem performs_bind {allowed : Op → Prop} {program : Fallible Op Answer ε α}
    {f : α → Fallible Op Answer ε β} (h : Program.Performs allowed program.run)
    (hf : ∀ value, Program.Performs allowed (f value).run) :
    Program.Performs allowed (program >>= f).run :=
  performs_bind_of_yields h program.yields_true fun value _ => hf value

/-- A composition establishes what its first part establishes. -/
theorem establishes_bind_left {exec : (op : Op) → σ → Answer op × σ} {I : σ → Prop}
    {program : Fallible Op Answer ε α} {f : α → Fallible Op Answer ε β}
    (h : Program.Establishes exec I Succeeded program.run) :
    Program.Establishes exec I Succeeded (program >>= f).run := by
  rw [ExceptT.run_bind]
  refine Program.Establishes.bind h fun result hresult => ?_
  cases result with
  | ok value => exact absurd trivial hresult
  | error e => exact not_succeeded_error e

/-- A composition establishes what its second part establishes for every
value that the first part can hand over. -/
theorem establishes_bind_of_yields {exec : (op : Op) → σ → Answer op × σ} {I : σ → Prop}
    {middle : α → Prop} {program : Fallible Op Answer ε α} {f : α → Fallible Op Answer ε β}
    (hyields : program.Yields middle)
    (h : ∀ value, middle value → Program.Establishes exec I Succeeded (f value).run) :
    Program.Establishes exec I Succeeded (program >>= f).run := by
  unfold Yields at hyields
  rw [ExceptT.run_bind]
  generalize program.run = tree at hyields
  induction tree with
  | ret value =>
      cases value with
      | ok value => exact h value (hyields value rfl)
      | error e => exact not_succeeded_error e
  | act op next ih => exact fun s => Or.inr (ih _ (hyields _))

theorem establishes_bind_right {exec : (op : Op) → σ → Answer op × σ} {I : σ → Prop}
    {program : Fallible Op Answer ε α} {f : α → Fallible Op Answer ε β}
    (h : ∀ value, Program.Establishes exec I Succeeded (f value).run) :
    Program.Establishes exec I Succeeded (program >>= f).run :=
  establishes_bind_of_yields program.yields_true fun value _ => h value

end Fallible

end AtomicProgram
