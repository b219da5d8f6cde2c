import Mathlib.Tactic.Common

/-!
# The layout of a C structure

A structure is stored member by member, each at the next multiple of its
alignment, which for a scalar is its size.  What is in the padding is not
defined: it is a parameter, by the offset of the byte.

* `layoutFrom_of_dvd`: a member that is aligned follows without padding.
-/

namespace Abi

/-- The number of bytes from an offset to the next multiple of `align`. -/
def gap (offset align : Nat) : Nat := (align - offset % align) % align

theorem gap_of_dvd {offset align : Nat} (h : align ∣ offset) : gap offset align = 0 := by
  rw [gap, Nat.mod_eq_zero_of_dvd h, Nat.sub_zero, Nat.mod_self]

/-- The `count` bytes of padding at an offset. -/
def paddingBytes (padding : Nat → UInt8) (offset count : Nat) : List UInt8 :=
  (List.range' offset count).map padding

/-- The members from an offset on, each given by its bytes. -/
def layoutFrom (padding : Nat → UInt8) : Nat → List (List UInt8) → List UInt8
  | _, [] => []
  | offset, member :: members =>
      paddingBytes padding offset (gap offset member.length) ++ (member ++
        layoutFrom padding (offset + gap offset member.length + member.length) members)

/-- The alignment of a structure is that of its widest member. -/
def alignment (members : List (List UInt8)) : Nat := (members.map List.length).foldr max 1

/-- The bytes of a structure, with the padding at its end. -/
def layout (padding : Nat → UInt8) (members : List (List UInt8)) : List UInt8 :=
  let body := layoutFrom padding 0 members
  body ++ paddingBytes padding body.length (gap body.length (alignment members))

@[simp] theorem length_paddingBytes (padding : Nat → UInt8) (offset count : Nat) :
    (paddingBytes padding offset count).length = count := by
  rw [paddingBytes, List.length_map, List.length_range']

@[simp] theorem paddingBytes_zero (padding : Nat → UInt8) (offset : Nat) :
    paddingBytes padding offset 0 = [] := rfl

theorem layoutFrom_of_dvd {padding : Nat → UInt8} {offset : Nat} {member : List UInt8}
    (h : member.length ∣ offset) (members : List (List UInt8)) :
    layoutFrom padding offset (member :: members) =
      member ++ layoutFrom padding (offset + member.length) members := by
  rw [layoutFrom, gap_of_dvd h, paddingBytes_zero, List.nil_append, Nat.add_zero]

end Abi
