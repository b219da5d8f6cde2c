import Mathlib.Data.Nat.Digits.Lemmas
import Mathlib.Logic.Equiv.Defs

/-!
# Little-endian scalars

A `Scalar` is a type whose values are stored in a fixed number of bytes; it
carries the two round trips.  Unsigned words are stored with their lowest byte
first, and a signed word is stored as the unsigned word with the same bits.
-/

namespace Abi

/-! ## Numbers -/

/-- The number whose base-256 digits, the lowest first, are the bytes. -/
def ofBytes (bytes : List UInt8) : Nat := Nat.ofDigits 256 (bytes.map UInt8.toNat)

/-- The lowest `width` bytes of a number. -/
def toBytes : Nat → Nat → List UInt8
  | 0, _ => []
  | width + 1, n => UInt8.ofNat n :: toBytes width (n / 256)

theorem ofBytes_cons (b : UInt8) (bytes : List UInt8) :
    ofBytes (b :: bytes) = b.toNat + 256 * ofBytes bytes := by
  rw [ofBytes, List.map_cons, Nat.ofDigits_cons]
  rfl

theorem length_toBytes (width n : Nat) : (toBytes width n).length = width := by
  induction width generalizing n with
  | zero => rfl
  | succ width ih => rw [toBytes, List.length_cons, ih]

theorem ofBytes_toBytes {width n : Nat} (h : n < 256 ^ width) : ofBytes (toBytes width n) = n := by
  induction width generalizing n with
  | zero =>
      rw [pow_zero, Nat.lt_one_iff] at h
      subst h
      rfl
  | succ width ih =>
      have hrest : n / 256 < 256 ^ width := by
        rw [pow_succ] at h
        exact Nat.div_lt_of_lt_mul (by rwa [Nat.mul_comm])
      have hlowest : (UInt8.ofNat n).toNat = n % 256 := UInt8.toNat_ofNat'
      rw [toBytes, ofBytes_cons, ih hrest, hlowest]
      exact Nat.mod_add_div n 256

theorem ofBytes_lt (bytes : List UInt8) : ofBytes bytes < 256 ^ bytes.length := by
  have hdigits : ∀ d ∈ bytes.map UInt8.toNat, d < 256 := by
    intro d hd
    obtain ⟨b, -, rfl⟩ := List.mem_map.mp hd
    exact b.toNat_lt
  have hlt := Nat.ofDigits_lt_base_pow_length (by omega) hdigits
  rwa [List.length_map] at hlt

theorem toBytes_ofBytes (bytes : List UInt8) : toBytes bytes.length (ofBytes bytes) = bytes := by
  induction bytes with
  | nil => rfl
  | cons b bytes ih =>
      -- the lowest byte is the remainder modulo 256, the others are the quotient
      have hlowest : UInt8.ofNat (b.toNat + 256 * ofBytes bytes) = b := by
        apply UInt8.toNat_inj.mp
        have hb := b.toNat_lt
        rw [UInt8.toNat_ofNat']
        omega
      have hrest : (b.toNat + 256 * ofBytes bytes) / 256 = ofBytes bytes := by
        have hb := b.toNat_lt
        omega
      rw [List.length_cons, ofBytes_cons, toBytes, hlowest, hrest, ih]

/-! ## Scalars -/

/-- A type whose values are stored in `width` bytes. -/
structure Scalar (α : Type) where
  width : Nat
  encode : α → List UInt8
  decode : List UInt8 → α
  length_encode : ∀ a, (encode a).length = width
  decode_encode : ∀ a, decode (encode a) = a
  encode_decode : ∀ bytes, bytes.length = width → encode (decode bytes) = bytes

namespace Scalar

attribute [simp] length_encode decode_encode

variable {α β : Type}

/-- An unsigned word, by the numbers that it stands for. -/
def unsigned (width : Nat) (toNat : α → Nat) (ofNat : Nat → α)
    (hlt : ∀ a, toNat a < 256 ^ width) (hleft : ∀ a, ofNat (toNat a) = a)
    (hright : ∀ n, n < 256 ^ width → toNat (ofNat n) = n) : Scalar α where
  width := width
  encode a := toBytes width (toNat a)
  decode bytes := ofNat (ofBytes bytes)
  length_encode a := length_toBytes width (toNat a)
  decode_encode a := by rw [ofBytes_toBytes (hlt a), hleft]
  encode_decode bytes hlength := by
    subst hlength
    rw [hright _ (ofBytes_lt bytes), toBytes_ofBytes]

/-- The same bytes, read as another type. -/
def congr (s : Scalar α) (e : α ≃ β) : Scalar β where
  width := s.width
  encode b := s.encode (e.symm b)
  decode bytes := e (s.decode bytes)
  length_encode b := s.length_encode (e.symm b)
  decode_encode b := by rw [s.decode_encode, Equiv.apply_symm_apply]
  encode_decode bytes hlength := by rw [Equiv.symm_apply_apply, s.encode_decode bytes hlength]

def uint32 : Scalar UInt32 :=
  unsigned 4 UInt32.toNat UInt32.ofNat (fun a => a.toNat_lt) (fun _ => UInt32.ofNat_toNat)
    fun _ h => UInt32.toNat_ofNat_of_lt' h

def uint64 : Scalar UInt64 :=
  unsigned 8 UInt64.toNat UInt64.ofNat (fun a => a.toNat_lt) (fun _ => UInt64.ofNat_toNat)
    fun _ h => UInt64.toNat_ofNat_of_lt' h

def int64 : Scalar Int64 :=
  uint64.congr
    { toFun := UInt64.toInt64
      invFun := Int64.toUInt64
      left_inv := UInt64.toUInt64_toInt64
      right_inv := Int64.toInt64_toUInt64 }

@[simp] theorem width_uint32 : uint32.width = 4 := rfl

@[simp] theorem width_uint64 : uint64.width = 8 := rfl

@[simp] theorem width_int64 : int64.width = 8 := rfl

end Scalar

end Abi
