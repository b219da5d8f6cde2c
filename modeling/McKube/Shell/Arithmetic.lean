import McKube.GoLib.Strconv

/-!
# Arithmetic in shell scripts

Bash computes with 64-bit numbers that wrap around.  Of the expressions that it knows
only decimal numerals are evaluated here; `none` is an error, or an expression of another
kind.

* `arith_itoa`, `printfInt_itoa`: a number that is not negative is read back.
-/

namespace Shell

open GoLib

/-- The value of a decimal numeral.  With a zero in front it would be octal. -/
def numeral (s : GoString) : Option Nat :=
  if s ≠ [] ∧ s.all Char.isDigit ∧ (s.head? = some '0' → s = ['0']) then
    some (Nat.ofDigitChars 10 s 0)
  else
    none

/-- The value of a variable in `((…))`. -/
def arith (s : GoString) : Option Int64 := (numeral s).map Int64.ofNat

/-- The verb `%d` of `printf`, which stops at the largest 64-bit number. -/
def printfInt (s : GoString) : Option GoString :=
  (numeral s).map fun n => itoa (min n 9223372036854775807 : Nat)

/-- The operator `/`. -/
def div (a b : Int64) : Option Int64 := if b = 0 then none else some (a / b)

theorem head?_toDigits {n : Nat} (h : (Nat.toDigits 10 n).head? = some '0') : n = 0 := by
  induction n using Nat.strongRecOn with
  | _ n ih =>
      by_cases hlt : n < 10
      · rw [Nat.toDigits_of_lt_base hlt, List.head?_cons, Option.some.injEq] at h
        have hdigit : ∀ m < 10, Nat.digitChar m = '0' → m = 0 := by decide
        exact hdigit n hlt h
      · rw [Nat.toDigits_of_base_le (by decide) (by omega),
          List.head?_append_of_ne_nil _ Nat.toDigits_ne_nil] at h
        have hzero := ih (n / 10) (by omega) h
        omega

theorem numeral_toDigits (n : Nat) : numeral (Nat.toDigits 10 n) = some n := by
  have hdigits : (Nat.toDigits 10 n).all Char.isDigit = true := by
    rw [List.all_eq_true]
    intro c hc
    exact Nat.isDigit_of_mem_toDigits (by decide) (by decide) hc
  have hzero : (Nat.toDigits 10 n).head? = some '0' → Nat.toDigits 10 n = ['0'] := by
    intro hhead
    rw [head?_toDigits hhead, Nat.toDigits_zero]
  rw [numeral, if_pos ⟨Nat.toDigits_ne_nil, hdigits, hzero⟩, Nat.ofDigitChars_ten_toDigits]

theorem numeral_itoa {n : Int64} (hn : 0 ≤ n) : numeral (itoa n.toInt) = some n.toInt.toNat := by
  have hint : (0 : Int) ≤ n.toInt := by simpa using Int64.le_iff_toInt_le.mp hn
  obtain ⟨m, hm⟩ := Int.eq_ofNat_of_zero_le hint
  rw [hm]
  exact numeral_toDigits m

theorem arith_itoa {n : Int64} (hn : 0 ≤ n) : arith (itoa n.toInt) = some n := by
  have hint : (0 : Int) ≤ n.toInt := by simpa using Int64.le_iff_toInt_le.mp hn
  rw [arith, numeral_itoa hn, Option.map_some, Option.some.injEq, ← Int64.ofInt_eq_ofNat,
    Int.toNat_of_nonneg hint, Int64.ofInt_toInt]

theorem printfInt_itoa {n : Int64} (hn : 0 ≤ n) :
    printfInt (itoa n.toInt) = some (itoa n.toInt) := by
  have hint : (0 : Int) ≤ n.toInt := by simpa using Int64.le_iff_toInt_le.mp hn
  have hbound : n.toInt < 2 ^ 63 := Int64.toInt_lt n
  have hmin : ((min n.toInt.toNat 9223372036854775807 : Nat) : Int) = n.toInt := by omega
  rw [printfInt, numeral_itoa hn, Option.map_some, hmin]

end Shell
