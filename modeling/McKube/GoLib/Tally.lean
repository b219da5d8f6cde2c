import Mathlib.Data.List.AList
import Mathlib.Algebra.BigOperators.Group.List.Lemmas
import Mathlib.Algebra.BigOperators.Ring.Finset
import Mathlib.Data.List.Dedup
import Mathlib.Tactic.Common

/-!
# Counters in a map

A value of type `map[K]int` in which every key counts how often it has occurred.
A Go `int` has 64 bits, so the counters are exact below 2^63 occurrences and wrap
around after that.

* `Counts.increment`: one more occurrence.
* `Counts.sum_values`: the counters add up to the number of occurrences.
* `Counts.toInt_get`, `Counts.sum_toInt`: the same with exact numbers.
-/

namespace GoLib

theorem sum_concat (counts : List Int64) (n : Int64) : (counts ++ [n]).sum = counts.sum + n := by
  simp

theorem sum_eq_of_perm {counts others : List Int64} (h : counts.Perm others) :
    counts.sum = others.sum := by
  have hcomm : ∀ x ∈ counts, ∀ y ∈ counts, ∀ z : Int64, y + (x + z) = x + (y + z) := by
    intro x _ y _ z
    grind
  exact h.foldr_eq' hcomm 0

/-- A value of type `map[κ]int`. -/
structure Tally (κ : Type) where
  counts : AList (fun _ : κ => Int64)

namespace Tally

variable {κ : Type}

def empty : Tally κ := ⟨∅⟩

def keys (t : Tally κ) : List κ := t.counts.keys

def values (t : Tally κ) : List Int64 := t.counts.entries.map Sigma.snd

/-- `len(m)`. -/
def len (t : Tally κ) : Int64 := Int64.ofNat t.keys.length

variable [DecidableEq κ]

/-- `m[key]`, which is zero for a missing key. -/
def get (t : Tally κ) (key : κ) : Int64 := (t.counts.lookup key).getD 0

/-- `m[key]++`. -/
def increment (t : Tally κ) (key : κ) : Tally κ := ⟨t.counts.insert key (t.get key + 1)⟩

theorem get_increment (t : Tally κ) (key other : κ) :
    (t.increment key).get other = if other = key then t.get key + 1 else t.get other := by
  unfold increment get
  split
  · next heq =>
      subst heq
      rw [AList.lookup_insert]
      rfl
  · next hne => rw [AList.lookup_insert_ne hne]

theorem mem_keys_increment {t : Tally κ} {key other : κ} :
    other ∈ (t.increment key).keys ↔ other = key ∨ other ∈ t.keys := by
  exact AList.mem_insert t.counts

theorem values_eq_map_keys (t : Tally κ) : t.values = t.keys.map t.get := by
  show t.counts.entries.map Sigma.snd = (t.counts.entries.map Sigma.fst).map t.get
  rw [List.map_map]
  apply List.map_congr_left
  intro entry hentry
  have hlookup : t.counts.lookup entry.1 = some entry.2 := AList.mem_lookup_iff.mpr hentry
  show entry.2 = (t.counts.lookup entry.1).getD 0
  rw [hlookup]
  rfl

/-- How often a key occurs. -/
def occurs (occurrences : List κ) (key : κ) : Nat :=
  occurrences.countP fun other => decide (other = key)

theorem occurs_append (occurrences more : List κ) (key : κ) :
    occurs (occurrences ++ more) key = occurs occurrences key + occurs more key :=
  List.countP_append

theorem occurs_singleton (other key : κ) : occurs [other] key = if other = key then 1 else 0 := by
  simp [occurs]

theorem occurs_eq_zero_iff {occurrences : List κ} {key : κ} :
    occurs occurrences key = 0 ↔ key ∉ occurrences := by
  rw [occurs, List.countP_eq_zero]
  constructor
  · intro h hmem
    exact h key hmem (decide_eq_true rfl)
  · intro h other hother heq
    exact h (of_decide_eq_true heq ▸ hother)

/-- The keys are what has occurred, and every counter says how often. -/
structure Counts (t : Tally κ) (occurrences : List κ) : Prop where
  get : ∀ key, t.get key = Int64.ofNat (occurs occurrences key)
  mem_keys : ∀ key, key ∈ t.keys ↔ key ∈ occurrences

theorem counts_empty : (empty : Tally κ).Counts [] where
  get _ := rfl
  mem_keys key := by simp [keys, empty]

namespace Counts

variable {t : Tally κ} {occurrences : List κ}

theorem increment (h : t.Counts occurrences) (key : κ) :
    (t.increment key).Counts (occurrences ++ [key]) where
  get other := by
    rw [get_increment, occurs_append, occurs_singleton]
    split
    · next heq =>
        subst heq
        rw [h.get, if_pos rfl, Int64.ofNat_add]
        rfl
    · next hne => rw [h.get, if_neg (Ne.symm hne), add_zero]
  mem_keys other := by
    rw [mem_keys_increment, h.mem_keys, List.mem_append, List.mem_singleton, or_comm]

theorem perm_keys (h : t.Counts occurrences) : t.keys.Perm occurrences.dedup := by
  apply (List.perm_ext_iff_of_nodup t.counts.keys_nodup (List.nodup_dedup occurrences)).mpr
  intro key
  rw [List.mem_dedup]
  exact h.mem_keys key

theorem sum_occurs_keys (h : t.Counts occurrences) :
    (t.keys.map (occurs occurrences)).sum = occurrences.length := by
  rw [(h.perm_keys.map _).sum_eq]
  exact List.sum_map_count_dedup_eq_length occurrences

theorem values_eq (h : t.Counts occurrences) :
    t.values = (t.keys.map (occurs occurrences)).map Int64.ofNat := by
  rw [values_eq_map_keys, List.map_map]
  apply List.map_congr_left
  intro key _
  exact h.get key

theorem sum_map_ofNat (counts : List Nat) :
    (counts.map Int64.ofNat).sum = Int64.ofNat counts.sum := by
  induction counts with
  | nil => rfl
  | cons n counts ih =>
      rw [List.map_cons, List.sum_cons, List.sum_cons, ih, Int64.ofNat_add]

/-- The counters add up to the number of occurrences. -/
theorem sum_values (h : t.Counts occurrences) :
    t.values.sum = Int64.ofNat occurrences.length := by
  rw [h.values_eq, sum_map_ofNat, h.sum_occurs_keys]

theorem toInt_get (h : t.Counts occurrences) (hlength : occurrences.length < 2 ^ 63) (key : κ) :
    (t.get key).toInt = occurs occurrences key := by
  have hcount : occurs occurrences key ≤ occurrences.length := List.countP_le_length
  rw [h.get, Int64.toInt_ofNat_of_lt (by omega)]

theorem sum_toInt (h : t.Counts occurrences) (hlength : occurrences.length < 2 ^ 63) :
    (t.values.map Int64.toInt).sum = occurrences.length := by
  have hvalues : t.values.map Int64.toInt =
      (t.keys.map (occurs occurrences)).map Nat.cast := by
    rw [values_eq_map_keys, List.map_map, List.map_map]
    apply List.map_congr_left
    intro key _
    exact h.toInt_get hlength key
  rw [hvalues, ← Nat.cast_list_sum, h.sum_occurs_keys]

end Counts

end Tally

end GoLib
