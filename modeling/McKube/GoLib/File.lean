import Mathlib.Data.List.Basic
import Mathlib.Tactic.Common

/-!
# Files that are read

An `*os.File` answers to `Read` and to `Seek`.  On a regular file the system
chooses how many bytes a read returns.

* `regular_read`, `regular_read_end`: what a read in the file and at its end does.
* `regular_seek_back`: going back to a place in what has been read.
-/

namespace GoLib

/-- A Go string or slice of which the bytes matter. -/
abbrev Bytes := List UInt8

namespace bytes

/-- `bytes.IndexByte`; `none` stands for -1. -/
def indexByte (b : Bytes) (c : UInt8) : Option Nat := b.findIdx? fun d => d = c

theorem indexByte_of_not_mem {b : Bytes} {c : UInt8} (h : c ∉ b) : indexByte b c = none := by
  rw [indexByte, List.findIdx?_eq_none_iff]
  intro d hd
  rw [decide_eq_false_iff_not]
  rintro rfl
  exact h hd

theorem indexByte_append_cons {b : Bytes} {c : UInt8} (h : c ∉ b) (more : Bytes) :
    indexByte (b ++ c :: more) c = some b.length := by
  have hnone : b.findIdx? (fun d => d = c) = none := indexByte_of_not_mem h
  rw [indexByte, List.findIdx?_append, hnone, List.findIdx?_cons]
  simp

end bytes

namespace os

inductive FileError
  | eof
  | closed
  | other
  deriving DecidableEq, Repr

/-- An `*os.File`: `Read` into a buffer with `space` bytes, and `Seek` relative to the
current offset. -/
structure File (σ : Type) where
  read : (space : Nat) → σ → (Bytes × Option FileError) × σ
  seek : (offset : Int) → σ → Option FileError × σ

/-- How many bytes a read returns, at an offset of a regular file: at least one of
those that are left. -/
structure Splitting (content : Bytes) where
  size : (space offset call : Nat) → Nat
  le_space : ∀ space offset call, size space offset call ≤ space
  le_rest : ∀ space offset call, size space offset call ≤ content.length - offset
  pos : ∀ space offset call, 0 < space → offset < content.length → 0 < size space offset call

/-- The state of a regular file: the offset, and the number of reads so far. -/
structure Position where
  offset : Nat
  calls : Nat

variable {content : Bytes} (splitting : Splitting content)

def regular : File Position where
  read space p :=
    let n := splitting.size space p.offset p.calls
    (((content.drop p.offset).take n, if 0 < space ∧ n = 0 then some .eof else none),
      { offset := p.offset + n, calls := p.calls + 1 })
  seek offset p :=
    if (p.offset : Int) + offset < 0 then (some .other, p)
    else (none, { p with offset := ((p.offset : Int) + offset).toNat })

/-- `rest` is what has not been read at the position. -/
structure At (content : Bytes) (p : Position) (rest : Bytes) : Prop where
  le : p.offset ≤ content.length
  drop : content.drop p.offset = rest

namespace At

variable {p : Position} {rest : Bytes}

theorem start : At content ⟨0, 0⟩ content := ⟨Nat.zero_le _, rfl⟩

theorem length_eq (h : At content p rest) : p.offset + rest.length = content.length := by
  have hle := h.le
  rw [← h.drop, List.length_drop]
  omega

end At

variable {p : Position} {rest : Bytes} {space : Nat}

/-- A read returns at least one byte, if there is one. -/
theorem regular_read (h : At content p rest) (hspace : 0 < space) (hrest : rest ≠ []) :
    ∃ n p', 0 < n ∧ n ≤ rest.length ∧ p'.offset = p.offset + n ∧ At content p' (rest.drop n) ∧
      (regular splitting).read space p = ((rest.take n, none), p') := by
  have hlength := h.length_eq
  have hpos : 0 < rest.length := List.length_pos_of_ne_nil hrest
  have hsize : 0 < splitting.size space p.offset p.calls :=
    splitting.pos space p.offset p.calls hspace (by omega)
  have hle := splitting.le_rest space p.offset p.calls
  refine ⟨splitting.size space p.offset p.calls,
    ⟨p.offset + splitting.size space p.offset p.calls, p.calls + 1⟩, hsize, by omega, rfl,
    ⟨?_, ?_⟩, ?_⟩
  · show p.offset + splitting.size space p.offset p.calls ≤ content.length
    omega
  · rw [← h.drop, List.drop_drop]
  · have hnot : ¬ (0 < space ∧ splitting.size space p.offset p.calls = 0) := by omega
    show ((_, if _ then _ else _), _) = _
    rw [if_neg hnot, h.drop]

theorem regular_read_end (h : At content p []) (hspace : 0 < space) :
    ∃ p', At content p' [] ∧ (regular splitting).read space p = (([], some .eof), p') := by
  have hlength := h.length_eq
  have hle := splitting.le_rest space p.offset p.calls
  rw [List.length_nil] at hlength
  have hzero : splitting.size space p.offset p.calls = 0 := by omega
  refine ⟨⟨p.offset, p.calls + 1⟩, ⟨h.le, h.drop⟩, ?_⟩
  show ((List.take (splitting.size space p.offset p.calls) _, if _ then _ else _), _) = _
  rw [hzero, if_pos ⟨hspace, rfl⟩, List.take_zero]
  rfl

/-- After a read of `n` bytes the file can go back to the place behind the first `k` of
them. -/
theorem regular_seek_back {p' : Position} {n k : Nat} (h : At content p rest)
    (hoffset : p'.offset = p.offset + n) (hk : k ≤ n) (hn : n ≤ rest.length) :
    ∃ p'', At content p'' (rest.drop k) ∧
      (regular splitting).seek ((k : Int) - n) p' = (none, p'') := by
  have hlength := h.length_eq
  have htarget : (p'.offset : Int) + ((k : Int) - n) = ((p.offset + k : Nat) : Int) := by omega
  refine ⟨{ p' with offset := p.offset + k }, ⟨?_, ?_⟩, ?_⟩
  · show p.offset + k ≤ content.length
    omega
  · rw [← h.drop, List.drop_drop]
  · show (if (p'.offset : Int) + _ < 0 then _ else _) = _
    rw [htarget, if_neg (by omega), Int.toNat_natCast]

end os

end GoLib
