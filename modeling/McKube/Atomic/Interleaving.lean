import McKube.Atomic.Program

/-!
# Two programs over one state

`Interleaved exec p q s out` says that the programs `p` and `q`, started
together in the state `s` and performing their actions one at a time in some
order, end with `out`: the two returned values and the final state.

* `Interleaved.sequential`: running `p` and then `q` is one interleaving, and
  `Interleaved.scheduled` computes the one of a given order of turns.
* `Interleaved.invariant` and `Interleaved.establishes_left`: the rules for a
  property that no action of either program destroys.
* `Interleaved.eq_sequential`: if every action of `p` commutes with every
  action of `q`, every interleaving has the outcome of `p` followed by `q`.
-/

namespace AtomicProgram

variable {Op : Type} {Answer : Op → Type} {α β σ : Type}

/-- The outcomes of two programs whose actions are performed in any order. -/
inductive Interleaved (exec : (op : Op) → σ → Answer op × σ) :
    Program Op Answer α → Program Op Answer β → σ → α × β × σ → Prop where
  | done (a : α) (b : β) (s : σ) : Interleaved exec (.ret a) (.ret b) s (a, b, s)
  | left {op : Op} {next : Answer op → Program Op Answer α} {q : Program Op Answer β}
      {s : σ} {out : α × β × σ}
      (rest : Interleaved exec (next (exec op s).1) q (exec op s).2 out) :
      Interleaved exec (.act op next) q s out
  | right {op : Op} {next : Answer op → Program Op Answer β} {p : Program Op Answer α}
      {s : σ} {out : α × β × σ}
      (rest : Interleaved exec p (next (exec op s).1) (exec op s).2 out) :
      Interleaved exec p (.act op next) s out

namespace Interleaved

variable {exec : (op : Op) → σ → Answer op × σ} {p : Program Op Answer α}
  {q : Program Op Answer β} {s : σ} {out : α × β × σ}

/-- The two parties of an interleaving can be exchanged. -/
theorem swap (h : Interleaved exec p q s out) :
    Interleaved exec q p s (out.2.1, out.1, out.2.2) := by
  induction h with
  | done a b s => exact .done b a s
  | left rest ih => exact .right ih
  | right rest ih => exact .left ih

/-- A party that has returned does not act any more. -/
theorem of_ret_left (a : α) (q : Program Op Answer β) (s : σ) :
    Interleaved exec (.ret a) q s (a, (q.run exec s).1, (q.run exec s).2) := by
  induction q generalizing s with
  | ret b => exact .done a b s
  | act op next ih => exact .right (ih _ _)

/-- Running `p` to its end and then `q` is an interleaving. -/
theorem sequential (p : Program Op Answer α) (q : Program Op Answer β) (s : σ) :
    Interleaved exec p q s
      ((p.run exec s).1, (q.run exec (p.run exec s).2).1,
        (q.run exec (p.run exec s).2).2) := by
  induction p generalizing s with
  | ret a => exact of_ret_left a q s
  | act op next ih => exact .left (ih _ _)

/-- Run two programs by a list of turns: `true` lets the left one act, `false`
the right one.  There is an outcome if the turns fit. -/
def scheduled (exec : (op : Op) → σ → Answer op × σ) :
    List Bool → Program Op Answer α → Program Op Answer β → σ → Option (α × β × σ)
  | [], .ret a, .ret b, s => some (a, b, s)
  | true :: turns, .act op next, q, s => scheduled exec turns (next (exec op s).1) q (exec op s).2
  | false :: turns, p, .act op next, s => scheduled exec turns p (next (exec op s).1) (exec op s).2
  | _, _, _, _ => none

theorem of_scheduled {turns : List Bool} (h : scheduled exec turns p q s = some out) :
    Interleaved exec p q s out := by
  fun_induction scheduled exec turns p q s with
  | case1 a b s =>
      cases h
      exact .done a b s
  | case2 turns op next q s ih => exact .left (ih h)
  | case3 turns p op next s ih => exact .right (ih h)
  | case4 => cases h

/-! ## Properties that survive every action -/

/-- The invariant rule: a property kept by the actions of both programs holds
at the end of every interleaving. -/
theorem invariant {allowedLeft allowedRight : Op → Prop} {I : σ → Prop}
    (h : Interleaved exec p q s out)
    (hp : p.Performs allowedLeft) (hq : q.Performs allowedRight)
    (hkeepLeft : ∀ op, allowedLeft op → ∀ t, I t → I (exec op t).2)
    (hkeepRight : ∀ op, allowedRight op → ∀ t, I t → I (exec op t).2)
    (hs : I s) : I out.2.2 := by
  induction h with
  | done a b s => exact hs
  | left rest ih => exact ih (hp.2 _) hq (hkeepLeft _ hp.1 _ hs)
  | right rest ih => exact ih hp (hq.2 _) (hkeepRight _ hq.1 _ hs)

/-- What the left program establishes on success, and no action of either
program destroys, holds at the end of an interleaving in which the left
program succeeds. -/
theorem establishes_left {allowedLeft allowedRight : Op → Prop} {I : σ → Prop}
    {success : α → Prop} (h : Interleaved exec p q s out)
    (hestablishes : p.Establishes exec I success)
    (hp : p.Performs allowedLeft) (hq : q.Performs allowedRight)
    (hkeepLeft : ∀ op, allowedLeft op → ∀ t, I t → I (exec op t).2)
    (hkeepRight : ∀ op, allowedRight op → ∀ t, I t → I (exec op t).2)
    (hsuccess : success out.1) : I out.2.2 := by
  induction h with
  | done a b s => exact absurd hsuccess hestablishes
  | @left op next q s out rest ih =>
      rcases hestablishes s with hI | hnext
      · exact rest.invariant (hp.2 _) hq hkeepLeft hkeepRight hI
      · exact ih hnext (hp.2 _) hq hsuccess
  | right rest ih => exact ih hestablishes hp (hq.2 _) hsuccess

end Interleaved

/-! ## Independent programs -/

/-- Two actions commute: in either order they give the same answers and leave
the same state. -/
def Commute (exec : (op : Op) → σ → Answer op × σ) (op op' : Op) : Prop :=
  ∀ s, (exec op (exec op' s).2).1 = (exec op s).1 ∧
    (exec op' (exec op s).2).1 = (exec op' s).1 ∧
    (exec op (exec op' s).2).2 = (exec op' (exec op s).2).2

/-- An action that commutes with every action of a program can be moved from
before a run of the program to after it. -/
theorem Program.Performs.run_commute {exec : (op : Op) → σ → Answer op × σ}
    {allowed : Op → Prop} {p : Program Op Answer α} (h : p.Performs allowed) {op' : Op}
    (hcommute : ∀ op, allowed op → Commute exec op op') (s : σ) :
    (p.run exec (exec op' s).2).1 = (p.run exec s).1 ∧
      (exec op' (p.run exec s).2).1 = (exec op' s).1 ∧
      (p.run exec (exec op' s).2).2 = (exec op' (p.run exec s).2).2 := by
  induction p generalizing s with
  | ret a => exact ⟨rfl, rfl, rfl⟩
  | act op next ih =>
      obtain ⟨hanswer, hanswer', hstate⟩ := hcommute op h.1 s
      obtain ⟨hvalue, hlast, hfinal⟩ := ih (exec op s).1 (h.2 _) (exec op s).2
      simp only [Program.run_act, hanswer, hstate]
      exact ⟨hvalue, hlast.trans hanswer', hfinal⟩

/-- If every action of `p` commutes with every action of `q`, every
interleaving of the two has the outcome of running `p` and then `q`. -/
theorem Interleaved.eq_sequential {exec : (op : Op) → σ → Answer op × σ}
    {allowedLeft allowedRight : Op → Prop} {p : Program Op Answer α}
    {q : Program Op Answer β} {s : σ} {out : α × β × σ}
    (h : Interleaved exec p q s out)
    (hp : p.Performs allowedLeft) (hq : q.Performs allowedRight)
    (hcommute : ∀ op, allowedLeft op → ∀ op', allowedRight op' → Commute exec op op') :
    out = ((p.run exec s).1, (q.run exec (p.run exec s).2).1,
      (q.run exec (p.run exec s).2).2) := by
  induction h with
  | done a b s => rfl
  | left rest ih => exact ih (hp.2 _) hq
  | @right op' next p s out rest ih =>
      obtain ⟨hvalue, hanswer, hstate⟩ :=
        hp.run_commute (fun op hop => hcommute op hop op' hq.1) s
      rw [ih hp (hq.2 _), hvalue, hstate, Program.run_act, hanswer]

/-- For independent programs the two sequential orders agree as well. -/
theorem Interleaved.eq_sequential_swapped {exec : (op : Op) → σ → Answer op × σ}
    {allowedLeft allowedRight : Op → Prop} {p : Program Op Answer α}
    {q : Program Op Answer β} {s : σ} {out : α × β × σ}
    (h : Interleaved exec p q s out)
    (hp : p.Performs allowedLeft) (hq : q.Performs allowedRight)
    (hcommute : ∀ op, allowedLeft op → ∀ op', allowedRight op' → Commute exec op op') :
    out = ((p.run exec (q.run exec s).2).1, (q.run exec s).1,
      (p.run exec (q.run exec s).2).2) := by
  have hsequential : Interleaved exec p q s ((p.run exec (q.run exec s).2).1,
      (q.run exec s).1, (p.run exec (q.run exec s).2).2) :=
    (Interleaved.sequential q p s).swap
  exact (h.eq_sequential hp hq hcommute).trans
    (hsequential.eq_sequential hp hq hcommute).symm

end AtomicProgram
