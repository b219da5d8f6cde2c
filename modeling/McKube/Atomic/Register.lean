import McKube.Atomic.Pool

/-!
# A register of the shared state

The programs of a pool write to one register of their state, each with values of its own and
without a lock.

* `Reaches.register_written`: the register shows nothing that nobody has written.
* `Reaches.register_current`: once a program has returned with success, what the register has
  shown before that program is gone for good, unless somebody writes it again who could still
  write when the program was started.
-/

namespace AtomicProgram

variable {Op : Type} {Answer : Op → Type} {α σ V : Type}

/-! ## Writers -/

/-- A step leaves the register alone, or puts a value from `values` into it. -/
def Puts (register : σ → Option V) (values : V → Prop) (s t : σ) : Prop :=
  register t = register s ∨ ∃ v, values v ∧ register t = some v

/-- The register shows one of the values. -/
def ShowsOneOf (register : σ → Option V) (values : V → Prop) (s : σ) : Prop :=
  ∃ v, values v ∧ register s = some v

section Steps

variable {register : σ → Option V} {values wider : V → Prop} {s t u : σ}

theorem Puts.mono (hwider : ∀ v, values v → wider v) (h : Puts register values s t) :
    Puts register wider s t :=
  h.imp_right fun ⟨v, hv, hshows⟩ => ⟨v, hwider v hv, hshows⟩

theorem Puts.trans (h : Puts register values s t) (h' : Puts register values t u) :
    Puts register values s u := by
  rcases h' with hsame | hnew
  · exact h.imp hsame.trans fun ⟨v, hv, hshows⟩ => ⟨v, hv, hsame.trans hshows⟩
  · exact Or.inr hnew

theorem puts_of_steps (h : Relation.ReflTransGen (Puts register values) s t) :
    Puts register values s t := by
  induction h with
  | refl => exact Or.inl rfl
  | tail _ hstep ih => exact ih.trans hstep

theorem ShowsOneOf.step (hstep : Puts register values s t) (h : ShowsOneOf register values s) :
    ShowsOneOf register values t := by
  rcases hstep with hsame | hnew
  · obtain ⟨v, hv, hshows⟩ := h
    exact ⟨v, hv, hsame.trans hshows⟩
  · exact hnew

end Steps

namespace Program

variable (exec : (op : Op) → σ → Answer op × σ) (register : σ → Option V)

/-- The program puts no other values into the register, whatever runs beside it. -/
abbrev WritesOnly (values : V → Prop) (p : Program Op Answer α) : Prop :=
  p.Performs fun op => ∀ s, Puts register values s (exec op s).2

variable {exec register} {values wider : V → Prop} {p : Program Op Answer α}

theorem WritesOnly.mono (hwider : ∀ v, values v → wider v) (h : p.WritesOnly exec register values) :
    p.WritesOnly exec register wider :=
  Performs.mono (fun _ hop s => (hop s).mono hwider) h

theorem WritesOnly.guarantees (h : p.WritesOnly exec register values) :
    p.Guarantees exec (fun _ => True) (Puts register values) fun _ => True :=
  Performs.guarantees h fun _ hop s _ => ⟨trivial, hop s⟩

end Program

/-! ## Pools of writers -/

namespace Pool

variable {exec : (op : Op) → σ → Answer op × σ} {arrives : Program Op Answer α → Prop}
  {register : σ → Option V} {values : V → Prop} {pool pool' : Pool Op Answer α σ}

theorem Reaches.register_written (h : Reaches exec arrives pool pool')
    (hprograms : ∀ p ∈ pool.programs, p.WritesOnly exec register values)
    (harrives : ∀ p, arrives p → p.WritesOnly exec register values) :
    Puts register values pool.state pool'.state := by
  obtain ⟨-, hsteps, -⟩ := h.guaranteed (fun p hp => (hprograms p hp).guarantees)
    (fun p hp => (harrives p hp).guarantees) trivial
  exact puts_of_steps hsteps

/-- The pool has one more program, which returns with success.  The programs that were there
before are known by what they could still write. -/
theorem Reaches.register_current {success : α → Prop} {p : Program Op Answer α} {value : α}
    (h : Reaches exec arrives ⟨pool.programs ++ [p], pool.state⟩ pool')
    (hprograms : ∀ q ∈ pool.programs, q.WritesOnly exec register values)
    (harrives : ∀ q, arrives q → q.WritesOnly exec register values)
    (hp : p.WritesOnly exec register values)
    (hestablishes : p.Establishes exec (ShowsOneOf register values) success)
    (hvalue : pool'.programs[pool.programs.length]? = some (.ret value))
    (hsuccess : success value) : ShowsOneOf register values pool'.state := by
  refine h.attained_at (forall_programs_concat (fun q hq => (hprograms q hq).guarantees)
    hp.guarantees) (fun q hq => (harrives q hq).guarantees) trivial
    (List.getElem?_concat_length) hestablishes (fun s t _ hstep hs => hs.step hstep) hvalue hsuccess

end Pool

end AtomicProgram
