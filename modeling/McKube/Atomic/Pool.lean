import McKube.Atomic.Program
import Mathlib.Data.List.Basic
import Mathlib.Logic.Relation

/-!
# Any number of programs over one state

A `Pool` is a list of programs that share a state.  In each step one of them
performs its next action, or a further program is started; nothing is said about
the order.

* `Guarantees`: what a program does to the state as long as everybody keeps an
  invariant.  `Reaches.guaranteed` is the rule for a pool of such programs.
* `Reaches.attained`: what a program establishes before it succeeds, and nobody
  destroys.
* `Reaches.part`: programs that the others do not disturb give the results that they would
  give without them.
-/

namespace AtomicProgram

variable {Op : Type} {Answer : Op → Type} {α β σ : Type}

/-! ## Pools -/

structure Pool (Op : Type) (Answer : Op → Type) (α σ : Type) where
  programs : List (Program Op Answer α)
  state : σ

namespace Pool

/-- One step: a program performs its next action, or one that `arrives` describes is
started. -/
inductive Step (exec : (op : Op) → σ → Answer op × σ) (arrives : Program Op Answer α → Prop) :
    Pool Op Answer α σ → Pool Op Answer α σ → Prop where
  | act {programs : List (Program Op Answer α)} {s : σ} {i : Nat} {op : Op}
      {next : Answer op → Program Op Answer α} (h : programs[i]? = some (.act op next)) :
      Step exec arrives ⟨programs, s⟩ ⟨programs.set i (next (exec op s).1), (exec op s).2⟩
  | start {programs : List (Program Op Answer α)} {s : σ} {p : Program Op Answer α}
      (h : arrives p) : Step exec arrives ⟨programs, s⟩ ⟨programs ++ [p], s⟩

/-- The pools that can come about. -/
def Reaches (exec : (op : Op) → σ → Answer op × σ) (arrives : Program Op Answer α → Prop) :
    Pool Op Answer α σ → Pool Op Answer α σ → Prop :=
  Relation.ReflTransGen (Step exec arrives)

variable {exec : (op : Op) → σ → Answer op × σ} {arrives : Program Op Answer α → Prop}

/-- One of the programs may run to its end while the others wait. -/
theorem reaches_run {programs : List (Program Op Answer α)} {i : Nat} {p : Program Op Answer α}
    (h : programs[i]? = some p) (s : σ) :
    Reaches exec arrives ⟨programs, s⟩
      ⟨programs.set i (.ret (p.run exec s).1), (p.run exec s).2⟩ := by
  induction p generalizing programs s with
  | ret value =>
      have hsame : programs.set i (.ret value) = programs := by
        obtain ⟨hi, hvalue⟩ := List.getElem?_eq_some_iff.mp h
        rw [← hvalue, List.set_getElem_self]
      rw [Program.run_ret, hsame]
      exact .refl
  | act op next ih =>
      obtain ⟨hi, -⟩ := List.getElem?_eq_some_iff.mp h
      have hnext : (programs.set i (next (exec op s).1))[i]? = some (next (exec op s).1) :=
        List.getElem?_set_self hi
      have hrest := ih (exec op s).1 hnext (exec op s).2
      rw [List.set_set] at hrest
      exact .head (.act h) hrest

theorem Reaches.mono {arrives' : Program Op Answer α → Prop} {pool pool' : Pool Op Answer α σ}
    (hwider : ∀ p, arrives p → arrives' p) (h : Reaches exec arrives pool pool') :
    Reaches exec arrives' pool pool' := by
  refine Relation.ReflTransGen.mono ?_ _ _ h
  rintro a b (hact | hstart)
  · exact .act hact
  · exact .start (hwider _ hstart)

/-- A program that has returned stays as it is. -/
theorem Reaches.mem_ret {pool pool' : Pool Op Answer α σ} {value : α}
    (h : Reaches exec arrives pool pool') (hvalue : .ret value ∈ pool.programs) :
    .ret value ∈ pool'.programs := by
  induction h with
  | refl => exact hvalue
  | tail _ hstep ih =>
      cases hstep with
      | @act programs s i op next hact =>
          obtain ⟨j, hj⟩ := List.mem_iff_getElem?.mp ih
          have hne : i ≠ j := by
            rintro rfl
            rw [hact] at hj
            cases hj
          refine List.mem_iff_getElem?.mpr ⟨j, ?_⟩
          rw [List.getElem?_set_ne hne]
          exact hj
      | start hstart => exact List.mem_append_left _ ih

end Pool

/-! ## Invariants and guarantees -/

namespace Program

/-- Whatever happens in between, as long as it keeps `I`: every action of the program keeps
`I` and changes the state only as `G` allows, and the program returns only values in
`possible`. -/
def Guarantees (exec : (op : Op) → σ → Answer op × σ) (I : σ → Prop) (G : σ → σ → Prop)
    (possible : α → Prop) : Program Op Answer α → Prop
  | .ret value => possible value
  | .act op next => ∀ s, I s →
      (I (exec op s).2 ∧ G s (exec op s).2) ∧
        (next (exec op s).1).Guarantees exec I G possible

variable {exec : (op : Op) → σ → Answer op × σ} {I : σ → Prop} {G : σ → σ → Prop}

theorem Guarantees.mono {possible wider : α → Prop}
    (hwider : ∀ value, possible value → wider value) :
    ∀ {program : Program Op Answer α}, program.Guarantees exec I G possible →
      program.Guarantees exec I G wider
  | .ret value, h => hwider value h
  | .act _ _, h => fun s hs => ⟨(h s hs).1, (h s hs).2.mono hwider⟩

theorem Guarantees.bind {middle : α → Prop} {possible : β → Prop}
    {program : Program Op Answer α} {f : α → Program Op Answer β}
    (h : program.Guarantees exec I G middle)
    (hf : ∀ value, middle value → (f value).Guarantees exec I G possible) :
    (program >>= f).Guarantees exec I G possible := by
  induction program with
  | ret value => exact hf value h
  | act op next ih => exact fun s hs => ⟨(h s hs).1, ih _ (h s hs).2⟩

/-- From the static bounds: actions that keep `I` in every state. -/
theorem Performs.guarantees {allowed : Op → Prop} {program : Program Op Answer α}
    (h : program.Performs allowed)
    (hkeep : ∀ op, allowed op → ∀ s, I s → I (exec op s).2 ∧ G s (exec op s).2) :
    program.Guarantees exec I G fun _ => True := by
  induction program with
  | ret value => exact trivial
  | act op next ih => exact fun s hs => ⟨hkeep op h.1 s hs, ih _ (h.2 _)⟩

/-- The two bounds on the results may be shown one after the other. -/
theorem Guarantees.of_returns {possible : α → Prop} {program : Program Op Answer α}
    (h : program.Guarantees exec I G fun _ => True) (hreturns : program.Returns possible) :
    program.Guarantees exec I G possible := by
  induction program with
  | ret value => exact hreturns
  | act op next ih => exact fun s hs => ⟨(h s hs).1, ih _ (h s hs).2 (hreturns _)⟩

/-- A composition establishes what its second part establishes. -/
theorem establishes_bind_right {J : σ → Prop} {success : β → Prop}
    (program : Program Op Answer α) {f : α → Program Op Answer β}
    (h : ∀ value, (f value).Establishes exec J success) :
    (program >>= f).Establishes exec J success := by
  induction program with
  | ret value => exact h value
  | act op next ih => exact fun s => Or.inr (ih _)

end Program

namespace Fallible

variable {ε : Type} {exec : (op : Op) → σ → Answer op × σ} {I : σ → Prop} {G : σ → σ → Prop}

theorem guarantees_bind_of_yields {middle : α → Prop} {program : Fallible Op Answer ε α}
    {f : α → Fallible Op Answer ε β}
    (h : Program.Guarantees exec I G (fun _ => True) program.run)
    (hyields : program.Yields middle)
    (hf : ∀ value, middle value → Program.Guarantees exec I G (fun _ => True) (f value).run) :
    Program.Guarantees exec I G (fun _ => True) (program >>= f).run := by
  rw [ExceptT.run_bind]
  refine (h.of_returns hyields).bind fun result hresult => ?_
  cases result with
  | ok value => exact hf value (hresult value rfl)
  | error e => exact trivial

theorem guarantees_bind {program : Fallible Op Answer ε α} {f : α → Fallible Op Answer ε β}
    (h : Program.Guarantees exec I G (fun _ => True) program.run)
    (hf : ∀ value, Program.Guarantees exec I G (fun _ => True) (f value).run) :
    Program.Guarantees exec I G (fun _ => True) (program >>= f).run :=
  guarantees_bind_of_yields h program.yields_true fun value _ => hf value

end Fallible

namespace Pool

variable {exec : (op : Op) → σ → Answer op × σ} {arrives : Program Op Answer α → Prop}

theorem forall_programs_set {P : Program Op Answer α → Prop}
    {programs : List (Program Op Answer α)} (h : ∀ p ∈ programs, P p) {i : Nat}
    {q : Program Op Answer α} (hq : P q) : ∀ p ∈ programs.set i q, P p := by
  intro p hp
  rcases List.mem_or_eq_of_mem_set hp with hold | rfl
  · exact h p hold
  · exact hq

theorem forall_programs_concat {P : Program Op Answer α → Prop}
    {programs : List (Program Op Answer α)} (h : ∀ p ∈ programs, P p)
    {q : Program Op Answer α} (hq : P q) : ∀ p ∈ programs ++ [q], P p := by
  intro p hp
  rcases List.mem_append.mp hp with hold | hnew
  · exact h p hold
  · rw [List.mem_singleton.mp hnew]
    exact hq

/-- What every program has when it is started and keeps with every action. -/
theorem Reaches.forall_programs {P : Program Op Answer α → Prop} {pool pool' : Pool Op Answer α σ}
    (h : Reaches exec arrives pool pool') (hprograms : ∀ p ∈ pool.programs, P p)
    (harrives : ∀ p, arrives p → P p)
    (hnext : ∀ op next answer, P (.act op next) → P (next answer)) :
    ∀ p ∈ pool'.programs, P p := by
  induction h with
  | refl => exact hprograms
  | tail _ hstep ih =>
      cases hstep with
      | act hact => exact forall_programs_set ih (hnext _ _ _ (ih _ (List.mem_of_getElem? hact)))
      | start hstart => exact forall_programs_concat ih (harrives _ hstart)

section Guaranteed

variable {I : σ → Prop} {G : σ → σ → Prop} {possible : α → Prop} {pool pool' : Pool Op Answer α σ}

/-- The rule for pools of programs that guarantee an invariant to each other. -/
theorem Reaches.guaranteed (h : Reaches exec arrives pool pool')
    (hprograms : ∀ p ∈ pool.programs, p.Guarantees exec I G possible)
    (harrives : ∀ p, arrives p → p.Guarantees exec I G possible) (hs : I pool.state) :
    I pool'.state ∧ Relation.ReflTransGen G pool.state pool'.state ∧
      ∀ p ∈ pool'.programs, p.Guarantees exec I G possible := by
  induction h with
  | refl => exact ⟨hs, .refl, hprograms⟩
  | tail _ hstep ih =>
      obtain ⟨hI, hG, hall⟩ := ih
      cases hstep with
      | act hact =>
          obtain ⟨⟨hI', hG'⟩, hnext⟩ := hall _ (List.mem_of_getElem? hact) _ hI
          exact ⟨hI', hG.tail hG', forall_programs_set hall hnext⟩
      | start hstart => exact ⟨hI, hG, forall_programs_concat hall (harrives _ hstart)⟩

/-- What every program has established before it returns with success, and what no action
destroys while `I` holds, holds as soon as one program has returned with success. -/
theorem Reaches.attained {J : σ → Prop} {success : α → Prop} (h : Reaches exec arrives pool pool')
    (hprograms : ∀ p ∈ pool.programs, p.Guarantees exec I G possible)
    (harrives : ∀ p, arrives p → p.Guarantees exec I G possible) (hs : I pool.state)
    (hestablishes : ∀ p ∈ pool.programs, p.Establishes exec J success)
    (harrives' : ∀ p, arrives p → p.Establishes exec J success)
    (hstable : ∀ s t, I s → G s t → J s → J t) {value : α}
    (hvalue : .ret value ∈ pool'.programs) (hsuccess : success value) : J pool'.state := by
  -- at every moment `J` holds, or everybody has it still to do
  suffices hdue : J pool'.state ∨ ∀ p ∈ pool'.programs, p.Establishes exec J success by
    rcases hdue with hJ | hdue
    · exact hJ
    · exact absurd hsuccess (hdue _ hvalue)
  clear hvalue
  induction h with
  | refl => exact Or.inr hestablishes
  | tail hreaches hstep ih =>
      have hbefore : Reaches exec arrives _ _ := hreaches
      obtain ⟨hI, -, hall⟩ := hbefore.guaranteed hprograms harrives hs
      cases hstep with
      | act hact =>
          have hkept := (hall _ (List.mem_of_getElem? hact) _ hI).1
          rcases ih with hJ | hdue
          · exact Or.inl (hstable _ _ hI hkept.2 hJ)
          · rcases hdue _ (List.mem_of_getElem? hact) _ with hJ | hnext
            · exact Or.inl hJ
            · exact Or.inr (forall_programs_set hdue hnext)
      | start hstart =>
          rcases ih with hJ | hdue
          · exact Or.inl hJ
          · exact Or.inr (forall_programs_concat hdue (harrives' _ hstart))

/-- The same of one program, known by its place: nothing is asked of what the others
establish. -/
theorem Reaches.attained_at {J : σ → Prop} {success : α → Prop} {i : Nat} {p : Program Op Answer α}
    (h : Reaches exec arrives pool pool')
    (hprograms : ∀ p ∈ pool.programs, p.Guarantees exec I G possible)
    (harrives : ∀ p, arrives p → p.Guarantees exec I G possible) (hs : I pool.state)
    (hp : pool.programs[i]? = some p) (hestablishes : p.Establishes exec J success)
    (hstable : ∀ s t, I s → G s t → J s → J t) {value : α}
    (hvalue : pool'.programs[i]? = some (.ret value)) (hsuccess : success value) :
    J pool'.state := by
  suffices hdue : J pool'.state ∨
      ∃ q, pool'.programs[i]? = some q ∧ q.Establishes exec J success by
    rcases hdue with hJ | ⟨q, hq, hdue⟩
    · exact hJ
    · obtain rfl : q = .ret value := Option.some.inj (hq.symm.trans hvalue)
      exact absurd hsuccess hdue
  clear hvalue
  induction h with
  | refl => exact Or.inr ⟨p, hp, hestablishes⟩
  | tail hreaches hstep ih =>
      have hbefore : Reaches exec arrives _ _ := hreaches
      obtain ⟨hI, -, hall⟩ := hbefore.guaranteed hprograms harrives hs
      cases hstep with
      | @act programs s j op next hact =>
          have hkept := (hall _ (List.mem_of_getElem? hact) _ hI).1
          rcases ih with hJ | ⟨q, hq, hdue⟩
          · exact Or.inl (hstable _ _ hI hkept.2 hJ)
          · by_cases hij : j = i
            · subst hij
              obtain rfl : .act op next = q := Option.some.inj (hact.symm.trans hq)
              obtain ⟨hj, -⟩ := List.getElem?_eq_some_iff.mp hact
              exact (hdue s).imp_right fun hnext => ⟨_, List.getElem?_set_self hj, hnext⟩
            · exact Or.inr ⟨q, (List.getElem?_set_ne hij).trans hq, hdue⟩
      | start hstart =>
          refine ih.imp_right fun ⟨q, hq, hdue⟩ => ⟨q, ?_, hdue⟩
          obtain ⟨hi, -⟩ := List.getElem?_eq_some_iff.mp hq
          exact (List.getElem?_append_left hi).trans hq

end Guaranteed

/-! ## A part of the programs -/

section Part

/-- The second list is the first one without some programs of the kind `other`; what is left
is of the kind `mine`. -/
inductive Part (mine other : Program Op Answer α → Prop) :
    List (Program Op Answer α) → List (Program Op Answer α) → Prop where
  | nil : Part mine other [] []
  | keep {p : Program Op Answer α} {all part : List (Program Op Answer α)} (hp : mine p)
      (h : Part mine other all part) : Part mine other (p :: all) (p :: part)
  | drop {p : Program Op Answer α} {all part : List (Program Op Answer α)} (hp : other p)
      (h : Part mine other all part) : Part mine other (p :: all) part

namespace Part

variable {mine other : Program Op Answer α → Prop} {all part : List (Program Op Answer α)}
  {p : Program Op Answer α}

/-- A program of the whole is one of the part, with its place there, or is left out. -/
theorem place (h : Part mine other all part) {i : Nat} (hi : all[i]? = some p) :
    (mine p ∧ ∃ j, part[j]? = some p ∧ ∀ q, mine q → Part mine other (all.set i q) (part.set j q)) ∨
      (other p ∧ ∀ q, other q → Part mine other (all.set i q) part) := by
  induction h generalizing i with
  | nil => cases hi
  | @keep q all part hq hrest ih =>
      cases i with
      | zero =>
          obtain rfl : q = p := Option.some.inj hi
          exact Or.inl ⟨hq, 0, rfl, fun r hr => .keep hr hrest⟩
      | succ i =>
          rcases ih hi with ⟨hp, j, hj, hset⟩ | ⟨hp, hset⟩
          · exact Or.inl ⟨hp, j + 1, hj, fun r hr => .keep hq (hset r hr)⟩
          · exact Or.inr ⟨hp, fun r hr => .keep hq (hset r hr)⟩
  | @drop q all part hq hrest ih =>
      cases i with
      | zero =>
          obtain rfl : q = p := Option.some.inj hi
          exact Or.inr ⟨hq, fun r hr => .drop hr hrest⟩
      | succ i =>
          rcases ih hi with ⟨hp, j, hj, hset⟩ | ⟨hp, hset⟩
          · exact Or.inl ⟨hp, j, hj, fun r hr => .drop hq (hset r hr)⟩
          · exact Or.inr ⟨hp, fun r hr => .drop hq (hset r hr)⟩

theorem concat_keep (h : Part mine other all part) (hp : mine p) :
    Part mine other (all ++ [p]) (part ++ [p]) := by
  induction h with
  | nil => exact .keep hp .nil
  | keep hq _ ih => exact .keep hq ih
  | drop hq _ ih => exact .drop hq ih

theorem concat_drop (h : Part mine other all part) (hp : other p) :
    Part mine other (all ++ [p]) part := by
  induction h with
  | nil => exact .drop hp .nil
  | keep hq _ ih => exact .keep hq ih
  | drop hq _ ih => exact .drop hq ih

theorem mem_iff (h : Part mine other all part) (hp : ¬ other p) : p ∈ all ↔ p ∈ part := by
  induction h with
  | nil => rfl
  | keep _ _ ih => rw [List.mem_cons, List.mem_cons, ih]
  | drop hq _ ih =>
      rw [List.mem_cons, ih, or_iff_right]
      rintro rfl
      exact hp hq

end Part

variable {Same : σ → σ → Prop} {own other : Op → Prop} {tag : α → Prop}

/-- Leave out programs whose actions do not change what the others see: the rest of the pool
comes about without them, in the same order, and sees the same. -/
theorem Reaches.part [Std.Refl Same] [IsTrans σ Same] {s : σ} {pool : Pool Op Answer α σ}
    (h : Reaches exec arrives ⟨[], s⟩ pool)
    (harrives : ∀ p, arrives p → (p.Performs own ∧ p.Returns tag) ∨
      (p.Performs other ∧ p.Returns fun value => ¬ tag value))
    (hown : ∀ op, own op → ∀ s t, Same s t →
      (exec op s).1 = (exec op t).1 ∧ Same (exec op s).2 (exec op t).2)
    (hother : ∀ op, other op → ∀ s, Same (exec op s).2 s) :
    ∃ part : Pool Op Answer α σ,
      Reaches exec (fun p => arrives p ∧ p.Performs own ∧ p.Returns tag) ⟨[], s⟩ part ∧
      Same pool.state part.state ∧
      Part (fun p => p.Performs own ∧ p.Returns tag)
        (fun p => p.Performs other ∧ p.Returns fun value => ¬ tag value)
        pool.programs part.programs := by
  induction h with
  | refl => exact ⟨⟨[], s⟩, .refl, Std.Refl.refl _, .nil⟩
  | tail _ hstep ih =>
      obtain ⟨part, hreaches, hsame, hpart⟩ := ih
      cases hstep with
      | @act programs t i op next hact =>
          rcases hpart.place hact with ⟨⟨hperforms, hreturns⟩, j, hj, hset⟩ |
            ⟨⟨hperforms, hreturns⟩, hset⟩
          · -- the same step in the part
            obtain ⟨hanswer, hsame'⟩ := hown op hperforms.1 _ _ hsame
            obtain ⟨partPrograms, partState⟩ := part
            refine ⟨⟨partPrograms.set j (next (exec op t).1), (exec op partState).2⟩,
              hreaches.tail ?_, hsame', hset _ ⟨hperforms.2 _, hreturns _⟩⟩
            rw [hanswer]
            exact .act hj
          · exact ⟨part, hreaches, IsTrans.trans _ _ _ (hother op hperforms.1 t) hsame,
              hset _ ⟨hperforms.2 _, hreturns _⟩⟩
      | @start programs t p hstart =>
          rcases harrives p hstart with hmine | hrest
          · exact ⟨⟨part.programs ++ [p], part.state⟩, hreaches.tail (.start ⟨hstart, hmine⟩),
              hsame, hpart.concat_keep hmine⟩
          · exact ⟨part, hreaches, hsame, hpart.concat_drop hrest⟩

end Part

end Pool

end AtomicProgram
