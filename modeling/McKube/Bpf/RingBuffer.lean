import Mathlib.Algebra.BigOperators.Group.List.Basic
import Mathlib.Algebra.GroupWithZero.Nat

/-!
# BPF ring buffers

The ring buffer between a BPF program and its reader.  A record takes its data, a header of
eight bytes, and what is missing to a multiple of eight; a reservation fails if the record
would fill the buffer.  The records come out in the order in which they went in.

* `hasRoom_of_few`: how many records of one length always fit.
* `records_submit`, `records_of_read`: a buffer is a queue.
-/

namespace Bpf

/-- The bytes that a record of data takes. -/
def recordSize (length : Nat) : Nat := (length + 15) / 8 * 8

/-- A ring buffer of `size` bytes with the records that have not been read, the oldest first. -/
structure RingBuffer (size : Nat) where
  records : List (List UInt8)
  bounded : (records.map fun data => recordSize data.length).sum ≤ size - 1

namespace RingBuffer

variable {size : Nat} (rb : RingBuffer size)

def empty : RingBuffer size := ⟨[], Nat.zero_le _⟩

/-- The bytes that the records take. -/
def used : Nat := (rb.records.map fun data => recordSize data.length).sum

/-- A reservation for so much data succeeds. -/
def HasRoom (length : Nat) : Prop := rb.used + recordSize length ≤ size - 1

instance (length : Nat) : Decidable (rb.HasRoom length) :=
  inferInstanceAs (Decidable (_ ≤ _))

/-- A record is reserved, filled and submitted; without room nothing happens. -/
def submit (data : List UInt8) : RingBuffer size :=
  if h : rb.HasRoom data.length then
    { records := rb.records ++ [data]
      bounded := by
        rw [List.map_append, List.sum_append, List.map_singleton, List.sum_singleton]
        exact h }
  else rb

theorem records_submit {data : List UInt8} (h : rb.HasRoom data.length) :
    (rb.submit data).records = rb.records ++ [data] := by
  rw [submit, dif_pos h]

/-- The oldest record, and the buffer without it. -/
def read : Option (List UInt8 × RingBuffer size) :=
  match h : rb.records with
  | [] => none
  | data :: rest =>
      some (data, {
        records := rest
        bounded := by
          have hbounded := rb.bounded
          rw [h, List.map_cons, List.sum_cons] at hbounded
          omega })

theorem records_of_read {data : List UInt8} {rest : RingBuffer size}
    (h : rb.read = some (data, rest)) : rb.records = data :: rest.records := by
  unfold read at h
  split at h
  · cases h
  · next hrecords =>
      cases h
      exact hrecords

theorem records_of_read_none (h : rb.read = none) : rb.records = [] := by
  unfold read at h
  split at h
  · next hrecords => exact hrecords
  · cases h

/-- There is room as long as there are not too many records of this length. -/
theorem hasRoom_of_few {length : Nat} (hall : ∀ data ∈ rb.records, data.length = length)
    (hfew : (rb.records.length + 1) * recordSize length < size) : rb.HasRoom length := by
  have hused : rb.used = rb.records.length * recordSize length := by
    unfold used
    rw [List.map_congr_left fun data hdata => by rw [hall data hdata], List.map_const',
      List.sum_replicate_nat]
  unfold HasRoom
  rw [hused]
  rw [Nat.add_mul] at hfew
  omega

end RingBuffer

end Bpf
