import McKube.GoLib.Strings
import Mathlib.Tactic.NormNum

/-!
# Decimal integers

`strconv.Itoa` and the verb `%d` of `fmt.Sprintf`, `strconv.Atoi`, and the
verb `%d` of `fmt.Sscanf`.  Go's `int` has 64 bits: the two parsers fail on a
number outside its range.  `atoi_itoa` and `sscanfInt_itoa` say that both
parsers read back what was printed.
-/

namespace GoLib

/-- The range of Go's `int`. -/
def InInt (n : Int) : Prop := -9223372036854775808 ≤ n ∧ n ≤ 9223372036854775807

instance (n : Int) : Decidable (InInt n) :=
  inferInstanceAs (Decidable (-9223372036854775808 ≤ n ∧ n ≤ 9223372036854775807))

/-- `strconv.Itoa`, and `fmt.Sprintf("%d", n)`. -/
def itoa : Int → GoString
  | .ofNat n => Nat.toDigits 10 n
  | .negSucc n => '-' :: Nat.toDigits 10 (n + 1)

/-- Strip an optional sign; the flag is set for `-`. -/
def splitSign : GoString → Bool × GoString
  | '-' :: s => (true, s)
  | '+' :: s => (false, s)
  | s => (false, s)

/-- The value of a signed run of decimal digits, if it fits into an `int`. -/
def signedValue (negative : Bool) (digits : GoString) : Option Int :=
  let magnitude : Int := Nat.ofDigitChars 10 digits 0
  let value := if negative then -magnitude else magnitude
  if InInt value then some value else none

/-- `strconv.Atoi`; `none` is an error. -/
def atoi (s : GoString) : Option Int :=
  let digits := (splitSign s).2
  if digits ≠ [] ∧ digits.all Char.isDigit then
    signedValue (splitSign s).1 digits
  else
    none

/-- `fmt.Sscanf(s, "%d", &v)` on a string that does not start with white
space; `none` is an error.  What follows the digits is not looked at. -/
def sscanfInt (s : GoString) : Option Int :=
  let digits := (splitSign s).2.takeWhile Char.isDigit
  if digits ≠ [] then
    signedValue (splitSign s).1 digits
  else
    none

/-! ## The printed form -/

/-- A run of digits has no sign. -/
theorem splitSign_of_digits {s : GoString} (hs : s.all Char.isDigit = true) :
    splitSign s = (false, s) := by
  have hdigit : ∀ c ∈ s, c.isDigit = true := List.all_eq_true.mp hs
  unfold splitSign
  split
  · rename_i s
    exact absurd (hdigit '-' List.mem_cons_self) (by decide)
  · rename_i s
    exact absurd (hdigit '+' List.mem_cons_self) (by decide)
  · rfl

private theorem all_isDigit_toDigits (n : Nat) :
    (Nat.toDigits 10 n).all Char.isDigit = true := by
  rw [List.all_eq_true]
  intro c hc
  exact Nat.isDigit_of_mem_toDigits (by decide) (by decide) hc

/-- The digits of the printed form, without the sign. -/
private theorem splitSign_itoa (n : Int) :
    splitSign (itoa n) = (decide (n < 0), Nat.toDigits 10 n.natAbs) := by
  cases n with
  | negSucc n => simp [itoa, splitSign]
  | ofNat n => simp [itoa, splitSign_of_digits (all_isDigit_toDigits n)]

/-- Different integers are printed differently. -/
theorem itoa_injective : Function.Injective itoa := by
  intro m n h
  have hsplit : (decide (m < 0), Nat.toDigits 10 m.natAbs) =
      (decide (n < 0), Nat.toDigits 10 n.natAbs) := by
    rw [← splitSign_itoa, ← splitSign_itoa, h]
  obtain ⟨hsign, hdigits⟩ := Prod.mk.inj hsplit
  have hsign' : m < 0 ↔ n < 0 := decide_eq_decide.mp hsign
  have habs : m.natAbs = n.natAbs := by
    rw [← Nat.ofDigitChars_ten_toDigits (n := m.natAbs), hdigits,
      Nat.ofDigitChars_ten_toDigits]
  omega

private theorem signedValue_natAbs {n : Int} (hn : InInt n) :
    signedValue (decide (n < 0)) (Nat.toDigits 10 n.natAbs) = some n := by
  have hvalue : (if decide (n < 0) = true then -(n.natAbs : Int) else (n.natAbs : Int)) = n := by
    by_cases hneg : n < 0
    · simp only [hneg, decide_true, if_true]
      omega
    · simp only [hneg, decide_false, Bool.false_eq_true, if_false]
      omega
  unfold signedValue
  simp only [Nat.ofDigitChars_ten_toDigits, hvalue, if_pos hn]

@[simp] theorem atoi_itoa {n : Int} (hn : InInt n) : atoi (itoa n) = some n := by
  unfold atoi
  rw [splitSign_itoa]
  simp only [all_isDigit_toDigits, ne_eq, Nat.toDigits_ne_nil, not_false_eq_true, and_self,
    if_true]
  exact signedValue_natAbs hn

@[simp] theorem sscanfInt_itoa {n : Int} (hn : InInt n) : sscanfInt (itoa n) = some n := by
  have htake : (Nat.toDigits 10 n.natAbs).takeWhile Char.isDigit = Nat.toDigits 10 n.natAbs :=
    List.takeWhile_eq_self_iff.mpr (List.all_eq_true.mp (all_isDigit_toDigits _))
  unfold sscanfInt
  rw [splitSign_itoa]
  simp only [htake, ne_eq, Nat.toDigits_ne_nil, not_false_eq_true, if_true]
  exact signedValue_natAbs hn

private theorem isSpace_eq_false_of_isDigit {c : Char} (hc : c.isDigit = true) :
    isSpace c = false := by
  rw [Char.isDigit_iff_toNat] at hc
  obtain ⟨hlow, hhigh⟩ := hc
  have hzero : '0'.toNat = 48 := rfl
  have hnine : '9'.toNat = 57 := rfl
  simp only [isSpace, Bool.or_eq_false_iff, Bool.and_eq_false_iff, decide_eq_false_iff_not,
    beq_eq_false_iff_ne]
  omega

/-- A printed integer is a word: it survives trimming and splitting. -/
theorem isWord_itoa (n : Int) : IsWord (itoa n) := by
  have hdigits : ∀ m : Nat, ∀ c ∈ Nat.toDigits 10 m, isSpace c = false := fun m c hc =>
    isSpace_eq_false_of_isDigit (Nat.isDigit_of_mem_toDigits (by decide) (by decide) hc)
  cases n with
  | ofNat n => exact ⟨Nat.toDigits_ne_nil, hdigits n⟩
  | negSucc n =>
      refine ⟨by simp [itoa], ?_⟩
      intro c hc
      rcases List.mem_cons.mp hc with rfl | hrest
      · decide
      · exact hdigits (n + 1) c hrest

@[simp] theorem trimSpace_itoa (n : Int) : trimSpace (itoa n) = itoa n :=
  trimSpace_eq_self (isWord_itoa n).2

/-! ## Indices -/

/-- A run of decimal digits without a sign, of any size. -/
def parseIndex (s : GoString) : Option Nat :=
  if s ≠ [] ∧ s.all Char.isDigit then some (Nat.ofDigitChars 10 s 0) else none

theorem parseIndex_itoa (n : Nat) : parseIndex (itoa n) = some n := by
  have hne : itoa n ≠ [] := (isWord_itoa n).1
  unfold parseIndex
  rw [if_pos ⟨hne, all_isDigit_toDigits n⟩]
  exact congrArg some Nat.ofDigitChars_ten_toDigits

theorem trimSpace_of_parseIndex {s : GoString} {n : Nat} (h : parseIndex s = some n) :
    trimSpace s = s := by
  unfold parseIndex at h
  split at h
  · next hdigits =>
      exact trimSpace_eq_self fun c hc =>
        isSpace_eq_false_of_isDigit (List.all_eq_true.mp hdigits.2 c hc)
  · cases h

/-- An index is a number without a sign: `strconv.Atoi` reads it, if it fits into
an `int`. -/
theorem atoi_of_parseIndex {s : GoString} {i : Nat} (h : parseIndex s = some i) :
    atoi s = if InInt i then some (i : Int) else none := by
  unfold parseIndex at h
  split at h
  · rename_i hs
    rw [Option.some.injEq] at h
    unfold atoi signedValue
    rw [splitSign_of_digits hs.2, if_pos hs, ← h]
    rfl
  · cases h

/-- What `strconv.Atoi` reads beyond the indices has a sign. -/
theorem exists_sign_of_atoi {s : GoString} {n : Int} (h : atoi s = some n)
    (hindex : parseIndex s = none) :
    ∃ sign digits, (sign = '-' ∨ sign = '+') ∧ s = sign :: digits ∧
      digits.all Char.isDigit = true := by
  unfold atoi at h
  dsimp only at h
  split at h
  · rename_i hs
    unfold splitSign at hs
    split at hs
    · rename_i digits
      exact ⟨'-', digits, Or.inl rfl, rfl, hs.2⟩
    · rename_i digits
      exact ⟨'+', digits, Or.inr rfl, rfl, hs.2⟩
    · rw [parseIndex, if_pos hs] at hindex
      cases hindex
  · cases h

theorem not_mem_itoa {c : Char} (hc : c.isDigit = false) (n : Nat) : c ∉ itoa n := by
  intro hmem
  have hdigit : c.isDigit = true :=
    Nat.isDigit_of_mem_toDigits (b := 10) (n := n) (by decide) (by decide) hmem
  rw [hc] at hdigit
  cases hdigit

/-- `Atoi` refuses what is out of range. -/
theorem inInt_of_atoi {s : GoString} {n : Int} (h : atoi s = some n) : InInt n := by
  unfold atoi at h
  dsimp only at h
  split at h
  · unfold signedValue at h
    dsimp only at h
    rw [Option.ite_none_right_eq_some, Option.some.injEq] at h
    obtain ⟨hrange, rfl⟩ := h
    exact hrange
  · cases h

/-- The value of a hexadecimal digit. -/
def unhex (c : Char) : Option Nat :=
  if c.isDigit then
    some (c.toNat - '0'.toNat)
  else if 'a' ≤ c ∧ c ≤ 'f' then
    some (c.toNat - 'a'.toNat + 10)
  else if 'A' ≤ c ∧ c ≤ 'F' then
    some (c.toNat - 'A'.toNat + 10)
  else
    none

end GoLib
