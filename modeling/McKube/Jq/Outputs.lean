import Mathlib.Data.List.Basic
import Mathlib.Tactic.Common

/-!
# Filters with many outputs

A filter of `jq` sends out any number of values and may then stop with an error.  An
error ends everything that the filter is a part of; the values before it have been
sent.

* `first_comma`, `first_pipe`: what a filter does first depends only on what its parts
  do first.
-/

namespace Jq

variable {α β : Type}

/-- The outputs of a filter, and whether an error has followed them. -/
structure Outputs (α : Type) where
  values : List α
  failed : Bool
  deriving DecidableEq, Repr

/-- One thing that a filter does. -/
inductive Act (α : Type)
  | output (value : α)
  | error
  deriving DecidableEq, Repr

namespace Outputs

def empty : Outputs α := ⟨[], false⟩

def error : Outputs α := ⟨[], true⟩

def single (value : α) : Outputs α := ⟨[value], false⟩

/-- `.[]`, for the elements of an array. -/
def iterate (values : List α) : Outputs α := ⟨values, false⟩

/-- `o, more`. -/
def comma (o more : Outputs α) : Outputs α :=
  if o.failed then o else ⟨o.values ++ more.values, more.failed⟩

/-- `o | next`. -/
def pipe (o : Outputs α) (next : α → Outputs β) : Outputs β :=
  o.values.foldr (fun value rest => (next value).comma rest) ⟨[], o.failed⟩

/-- `select(condition)`, which sends its input once for each `true`. -/
def select (condition : α → Outputs Bool) (value : α) : Outputs α :=
  (condition value).pipe fun holds => if holds then single value else empty

/-! ## Pipes of pipes -/

theorem comma_assoc (o more rest : Outputs α) :
    (o.comma more).comma rest = o.comma (more.comma rest) := by
  obtain ⟨values, failed⟩ := o
  obtain ⟨values', failed'⟩ := more
  cases failed <;> cases failed' <;> simp [comma]

theorem comma_pipe (o more : Outputs α) (next : α → Outputs β) :
    (o.comma more).pipe next = (o.pipe next).comma (more.pipe next) := by
  obtain ⟨values, failed⟩ := o
  induction values with
  | nil => cases failed <;> rfl
  | cons value values ih =>
      -- the first output of `o` goes through `next` before all others
      have hcons : ((⟨value :: values, failed⟩ : Outputs α).comma more).pipe next =
          (next value).comma (((⟨values, failed⟩ : Outputs α).comma more).pipe next) := by
        cases failed <;> rfl
      rw [hcons, ih, ← comma_assoc]
      rfl

theorem pipe_assoc {γ : Type} (o : Outputs α) (next : α → Outputs β) (last : β → Outputs γ) :
    (o.pipe next).pipe last = o.pipe fun value => (next value).pipe last := by
  obtain ⟨values, failed⟩ := o
  induction values with
  | nil => rfl
  | cons value values ih =>
      show ((next value).comma ((⟨values, failed⟩ : Outputs α).pipe next)).pipe last = _
      rw [comma_pipe, ih]
      rfl

/-! ## What a filter does first -/

/-- The first output, or the error if there is none before it. -/
def first (o : Outputs α) : Option (Act α) :=
  match o.values with
  | value :: _ => some (.output value)
  | [] => if o.failed then some .error else none

@[simp] theorem first_empty : (empty : Outputs α).first = none := rfl

@[simp] theorem first_error : (error : Outputs α).first = some .error := rfl

@[simp] theorem first_single (value : α) : (single value).first = some (.output value) := rfl

theorem head?_values (o : Outputs α) {value : α} :
    o.values.head? = some value ↔ o.first = some (.output value) := by
  obtain ⟨values, failed⟩ := o
  cases values with
  | nil => cases failed <;> simp [first]
  | cons other values => simp [first]

@[simp] theorem first_comma (o more : Outputs α) :
    (o.comma more).first = o.first.or more.first := by
  obtain ⟨values, failed⟩ := o
  cases failed with
  | true =>
      cases values with
      | nil => rfl
      | cons value values => rfl
  | false =>
      cases values with
      | nil => rfl
      | cons value values => rfl

theorem first_pipe (o : Outputs α) (next : α → Outputs β) :
    (o.pipe next).first =
      (o.values.findSome? fun value => (next value).first).or
        (if o.failed then some .error else none) := by
  obtain ⟨values, failed⟩ := o
  unfold pipe
  induction values with
  | nil => rfl
  | cons value values ih =>
      rw [List.foldr_cons, first_comma, List.findSome?_cons]
      cases (next value).first with
      | some act => rfl
      | none => exact ih

@[simp] theorem first_pipe_single (value : α) (next : α → Outputs β) :
    ((single value).pipe next).first = (next value).first := by
  rw [first_pipe]
  cases hnext : (next value).first <;> simp [single, hnext]

@[simp] theorem first_pipe_iterate (values : List α) (next : α → Outputs β) :
    ((iterate values).pipe next).first = values.findSome? fun value => (next value).first := by
  rw [first_pipe]
  simp [iterate]

/-- A value that comes out of a pipe has come out of its last part. -/
theorem exists_of_mem_pipe {o : Outputs α} {next : α → Outputs β} {result : β}
    (h : result ∈ (o.pipe next).values) : ∃ value, result ∈ (next value).values := by
  obtain ⟨values, failed⟩ := o
  unfold pipe at h
  induction values with
  | nil => cases h
  | cons value values ih =>
      rw [List.foldr_cons, comma] at h
      split at h
      · exact ⟨value, h⟩
      · rcases List.mem_append.mp h with hvalue | hrest
        · exact ⟨value, hvalue⟩
        · exact ih hrest

end Outputs

end Jq
