import McKube.Bpf.HashMap
import Mathlib.Data.Finset.Card
import Mathlib.Data.List.Induction

/-!
# Tables of lazily started machines

A table gives each key a small machine of its own.  The machine is started when
its key is first seen, if the map has a free entry at that moment; then every
input with the key drives it.  Keys are never removed, so the keys that find
room are the first distinct ones.

* `keys_after`: the stored keys are the first `maxEntries` keys seen.
* `lookup_after`, `lookup_ensure_after`: what the shared map stores for a key is
  the state of a private machine, driven by the inputs with this key alone.
-/

namespace Bpf

/-! ## The first keys -/

section FirstKeys

variable {κ : Type} [DecidableEq κ]

theorem eraseDups_concat (keys : List κ) (key : κ) :
    (keys ++ [key]).eraseDups =
      if key ∈ keys then keys.eraseDups else keys.eraseDups ++ [key] := by
  rw [List.eraseDups_append]
  by_cases hkey : key ∈ keys
  · simp [hkey, List.removeAll]
  · simp [hkey, List.removeAll, List.eraseDups_cons]

theorem nodup_eraseDups (keys : List κ) : keys.eraseDups.Nodup := by
  induction keys using List.reverseRecOn with
  | nil => exact List.nodup_nil
  | append_singleton keys key ih =>
      rw [eraseDups_concat]
      split
      · exact ih
      · next hkey =>
          have hnew : key ∉ keys.eraseDups := fun h => hkey (List.mem_eraseDups.mp h)
          rw [← List.concat_eq_append]
          exact List.Nodup.concat hnew ih

theorem length_eraseDups (keys : List κ) : keys.eraseDups.length = keys.toFinset.card := by
  have hsame : keys.toFinset = keys.eraseDups.toFinset := by
    ext key
    simp
  rw [hsame, List.toFinset_card_of_nodup (nodup_eraseDups keys)]

/-- The first `bound` distinct keys of a list. -/
def firstKeys (bound : Nat) (keys : List κ) : List κ := keys.eraseDups.take bound

@[simp] theorem firstKeys_nil (bound : Nat) : firstKeys bound ([] : List κ) = [] := by
  simp [firstKeys]

theorem mem_of_mem_firstKeys {bound : Nat} {keys : List κ} {key : κ}
    (hkey : key ∈ firstKeys bound keys) : key ∈ keys :=
  List.mem_eraseDups.mp (List.mem_of_mem_take hkey)

theorem mem_firstKeys_iff_of_card_le {bound : Nat} {keys : List κ}
    (hcard : keys.toFinset.card ≤ bound) {key : κ} : key ∈ firstKeys bound keys ↔ key ∈ keys := by
  rw [firstKeys, List.take_of_length_le (by rw [length_eraseDups]; exact hcard),
    List.mem_eraseDups]

/-- Later keys do not change whether a key that was seen is a first one. -/
theorem mem_firstKeys_append_iff {bound : Nat} {keys : List κ} {key : κ} (hkey : key ∈ keys)
    (more : List κ) : key ∈ firstKeys bound (keys ++ more) ↔ key ∈ firstKeys bound keys := by
  have hnodup := nodup_eraseDups (keys ++ more)
  rw [List.eraseDups_append] at hnodup
  have hrest : key ∉ (more.removeAll keys).eraseDups :=
    List.disjoint_of_nodup_append hnodup (List.mem_eraseDups.mpr hkey)
  rw [firstKeys, List.eraseDups_append, List.take_append, List.mem_append, firstKeys]
  constructor
  · rintro (h | h)
    · exact h
    · exact absurd (List.mem_of_mem_take h) hrest
  · exact Or.inl

theorem firstKeys_concat_of_mem {bound : Nat} {keys : List κ} {key : κ} (hkey : key ∈ keys) :
    firstKeys bound (keys ++ [key]) = firstKeys bound keys := by
  rw [firstKeys, eraseDups_concat, if_pos hkey, firstKeys]

theorem firstKeys_concat_of_full {bound : Nat} {keys : List κ} (key : κ)
    (hfull : (firstKeys bound keys).length = bound) :
    firstKeys bound (keys ++ [key]) = firstKeys bound keys := by
  have hlength : bound ≤ keys.eraseDups.length := by
    rw [firstKeys, List.length_take] at hfull
    omega
  rw [firstKeys, eraseDups_concat]
  split
  · rfl
  · rw [List.take_append_of_le_length hlength, firstKeys]

/-- While there is room, the first keys are all keys. -/
theorem mem_firstKeys_iff_of_room {bound : Nat} {keys : List κ} {key : κ}
    (hroom : (firstKeys bound keys).length < bound) : key ∈ firstKeys bound keys ↔ key ∈ keys := by
  apply mem_firstKeys_iff_of_card_le
  rw [firstKeys, List.length_take, length_eraseDups] at hroom
  omega

theorem firstKeys_concat_of_room {bound : Nat} {keys : List κ} {key : κ} (hkey : key ∉ keys)
    (hroom : (firstKeys bound keys).length < bound) :
    firstKeys bound (keys ++ [key]) = firstKeys bound keys ++ [key] := by
  rw [firstKeys, List.length_take] at hroom
  have hlength : keys.eraseDups.length < bound := by omega
  rw [firstKeys, eraseDups_concat, if_neg hkey, firstKeys,
    List.take_of_length_le (by rw [List.length_append, List.length_singleton]; omega),
    List.take_of_length_le (by omega)]

end FirstKeys

/-! ## The table -/

/-- A machine for every key.  An input `x` drives the machine of `key x`;
`write` is the value that it stores, if it stores one. -/
structure LazyTable (κ ν ι : Type) where
  key : ι → κ
  init : ν
  write : ν → ι → Option ν

namespace LazyTable

variable {κ ν ι : Type} [DecidableEq κ] {maxEntries : Nat} (t : LazyTable κ ν ι)

/-- Start the machine of the input's key if it is new, then drive it. -/
def step (m : HashMap κ ν maxEntries) (x : ι) : HashMap κ ν maxEntries :=
  let m' := m.ensure (t.key x) t.init
  match m'.lookup (t.key x) with
  | none => m'
  | some value =>
      match t.write value x with
      | none => m'
      | some value' => m'.update (t.key x) value'

/-- The map after a list of inputs. -/
def after (maxEntries : Nat) (xs : List ι) : HashMap κ ν maxEntries :=
  xs.foldl t.step HashMap.empty

@[simp] theorem after_nil : t.after maxEntries [] = HashMap.empty := rfl

@[simp] theorem after_concat (xs : List ι) (x : ι) :
    t.after maxEntries (xs ++ [x]) = t.step (t.after maxEntries xs) x := by
  simp [after, List.foldl_append]

/-- The state of one machine after one input. -/
def next (value : ν) (x : ι) : ν := (t.write value x).getD value

/-- The state of a private machine for `key` after the inputs with this key. -/
def valueAfter (key : κ) (xs : List ι) : ν :=
  (xs.filter (fun x => t.key x = key)).foldl t.next t.init

@[simp] theorem valueAfter_nil (key : κ) : t.valueAfter key [] = t.init := rfl

theorem valueAfter_concat_self (xs : List ι) (x : ι) :
    t.valueAfter (t.key x) (xs ++ [x]) = t.next (t.valueAfter (t.key x) xs) x := by
  simp [valueAfter, List.filter_append, List.foldl_append]

theorem valueAfter_concat_of_ne {key : κ} (xs : List ι) {x : ι} (hne : t.key x ≠ key) :
    t.valueAfter key (xs ++ [x]) = t.valueAfter key xs := by
  simp [valueAfter, List.filter_append, hne]

theorem valueAfter_of_not_mem {key : κ} {xs : List ι} (hkey : key ∉ xs.map t.key) :
    t.valueAfter key xs = t.init := by
  have hnone : xs.filter (fun x => t.key x = key) = [] := by
    rw [List.filter_eq_nil_iff]
    intro x hx
    simp only [decide_eq_true_eq]
    rintro rfl
    exact hkey (List.mem_map_of_mem hx)
  rw [valueAfter, hnone, List.foldl_nil]

/-! ### What a step does -/

section Step

variable (m : HashMap κ ν maxEntries) (x : ι)

/-- A step makes sure of the key, and then stores at most one value. -/
theorem step_cases :
    ((m.ensure (t.key x) t.init).lookup (t.key x) = none ∧
        t.step m x = m.ensure (t.key x) t.init) ∨
      ∃ value, (m.ensure (t.key x) t.init).lookup (t.key x) = some value ∧
        ((t.next value x = value ∧ t.step m x = m.ensure (t.key x) t.init) ∨
          t.step m x = (m.ensure (t.key x) t.init).update (t.key x) (t.next value x)) := by
  cases hlookup : (m.ensure (t.key x) t.init).lookup (t.key x) with
  | none => exact Or.inl ⟨rfl, by simp [step, hlookup]⟩
  | some value =>
      refine Or.inr ⟨value, rfl, ?_⟩
      cases hwrite : t.write value x with
      | none => exact Or.inl ⟨by simp [next, hwrite], by simp [step, hlookup, hwrite]⟩
      | some value' => exact Or.inr (by simp [step, next, hlookup, hwrite])

theorem keys_step : (t.step m x).keys.Perm (m.ensure (t.key x) t.init).keys := by
  rcases t.step_cases m x with ⟨-, hstep⟩ | ⟨value, hlookup, ⟨-, hstep⟩ | hstep⟩
  · rw [hstep]
  · rw [hstep]
  · rw [hstep]
    apply HashMap.keys_update_of_mem
    rw [← HashMap.lookup_isSome_iff, hlookup]
    rfl

theorem lookup_step_of_ne {key : κ} (hne : key ≠ t.key x) :
    (t.step m x).lookup key = m.lookup key := by
  rw [← m.lookup_ensure_of_ne hne t.init]
  rcases t.step_cases m x with ⟨-, hstep⟩ | ⟨value, -, ⟨-, hstep⟩ | hstep⟩
  · rw [hstep]
  · rw [hstep]
  · rw [hstep, HashMap.lookup_update_of_ne _ hne]

theorem lookup_step_self :
    (t.step m x).lookup (t.key x) =
      ((m.ensure (t.key x) t.init).lookup (t.key x)).map (fun value => t.next value x) := by
  rcases t.step_cases m x with ⟨hlookup, hstep⟩ | ⟨value, hlookup, ⟨hnext, hstep⟩ | hstep⟩
  · rw [hstep, hlookup, Option.map_none]
  · rw [hstep, hlookup, Option.map_some, hnext]
  · have hstored : t.key x ∈ (m.ensure (t.key x) t.init).keys := by
      rw [← HashMap.lookup_isSome_iff, hlookup]
      rfl
    rw [hstep, HashMap.lookup_update _ (Or.inl hstored), hlookup, Option.map_some]

end Step

/-! ### What a run does -/

/-- Making sure of one more key keeps the stored keys the first ones. -/
theorem keys_ensure {m : HashMap κ ν maxEntries} {keys : List κ}
    (hkeys : m.keys.Perm (firstKeys maxEntries keys)) (key : κ) (value : ν) :
    (m.ensure key value).keys.Perm (firstKeys maxEntries (keys ++ [key])) := by
  by_cases hstored : key ∈ m.keys
  · have hmem : key ∈ keys := mem_of_mem_firstKeys (hkeys.mem_iff.mp hstored)
    rw [m.ensure_of_mem hstored, firstKeys_concat_of_mem hmem]
    exact hkeys
  rw [m.ensure_of_not_mem hstored]
  by_cases hroom : m.keys.length < maxEntries
  · rw [hkeys.length_eq] at hroom
    have hnew : key ∉ keys := by
      rw [← mem_firstKeys_iff_of_room hroom, ← hkeys.mem_iff]
      exact hstored
    rw [firstKeys_concat_of_room hnew hroom,
      m.keys_update_of_not_mem hstored (by rw [hkeys.length_eq]; exact hroom)]
    exact (hkeys.cons key).trans (List.perm_append_singleton key _).symm
  · -- no free entry: the map stays as it is, and the key is not among the first
    have hfull : m.keys.length = maxEntries :=
      Nat.le_antisymm m.length_keys_le (Nat.le_of_not_lt hroom)
    rw [m.update_of_full hstored hfull,
      firstKeys_concat_of_full key (by rw [← hkeys.length_eq]; exact hfull)]
    exact hkeys

/-- The stored keys are the first ones of the inputs. -/
theorem keys_after (xs : List ι) :
    (t.after maxEntries xs).keys.Perm (firstKeys maxEntries (xs.map t.key)) := by
  induction xs using List.reverseRecOn with
  | nil => simp
  | append_singleton xs x ih =>
      rw [after_concat, List.map_append, List.map_singleton]
      exact (t.keys_step _ x).trans (keys_ensure ih (t.key x) t.init)

/-- A key that is stored only now has not been seen before. -/
theorem not_mem_keys_of_room {xs : List ι} {key : κ}
    (hstored : key ∉ (t.after maxEntries xs).keys)
    (hroom : (t.after maxEntries xs).keys.length < maxEntries) : key ∉ xs.map t.key := by
  rw [(t.keys_after xs).length_eq] at hroom
  rw [← mem_firstKeys_iff_of_room hroom, ← (t.keys_after xs).mem_iff]
  exact hstored

/-- After the key is made sure of, its value is still that of its machine. -/
theorem value_of_lookup_ensure {xs : List ι} {key : κ}
    (hstored : ∀ value, (t.after maxEntries xs).lookup key = some value →
      value = t.valueAfter key xs) {value : ν}
    (hvalue : ((t.after maxEntries xs).ensure key t.init).lookup key = some value) :
    value = t.valueAfter key xs := by
  by_cases hkey : key ∈ (t.after maxEntries xs).keys
  · rw [HashMap.lookup_ensure_of_mem _ hkey] at hvalue
    exact hstored value hvalue
  · rw [HashMap.ensure_of_not_mem _ hkey] at hvalue
    by_cases hroom : (t.after maxEntries xs).keys.length < maxEntries
    · rw [HashMap.lookup_update _ (Or.inr hroom), Option.some.injEq] at hvalue
      rw [← hvalue, t.valueAfter_of_not_mem (t.not_mem_keys_of_room hkey hroom)]
    · have hfull := Nat.le_antisymm (HashMap.length_keys_le _) (Nat.le_of_not_lt hroom)
      rw [HashMap.update_of_full _ hkey hfull, (HashMap.lookup_eq_none_iff _ _).mpr hkey] at hvalue
      cases hvalue

/-- A stored value is the state of the private machine of its key. -/
theorem value_of_lookup (xs : List ι) {key : κ} {value : ν}
    (hvalue : (t.after maxEntries xs).lookup key = some value) :
    value = t.valueAfter key xs := by
  induction xs using List.reverseRecOn generalizing value with
  | nil => cases hvalue
  | append_singleton xs x ih =>
      rw [after_concat] at hvalue
      by_cases hkey : key = t.key x
      · subst hkey
        rw [lookup_step_self, Option.map_eq_some_iff] at hvalue
        obtain ⟨before, hbefore, rfl⟩ := hvalue
        rw [valueAfter_concat_self, t.value_of_lookup_ensure (fun _ => ih) hbefore]
      · rw [t.lookup_step_of_ne _ _ hkey] at hvalue
        rw [t.valueAfter_concat_of_ne xs (Ne.symm hkey)]
        exact ih hvalue

/-- The shared map against the private machines. -/
theorem lookup_after (xs : List ι) (key : κ) :
    (t.after maxEntries xs).lookup key =
      if key ∈ firstKeys maxEntries (xs.map t.key) then some (t.valueAfter key xs) else none := by
  split
  · next hkey =>
      rw [← (t.keys_after xs).mem_iff, ← HashMap.lookup_isSome_iff] at hkey
      obtain ⟨value, hvalue⟩ := Option.isSome_iff_exists.mp hkey
      rw [hvalue, t.value_of_lookup xs hvalue]
  · next hkey =>
      rw [HashMap.lookup_eq_none_iff, (t.keys_after xs).mem_iff]
      exact hkey

/-- What an input finds when it has made sure of its key. -/
theorem lookup_ensure_after (xs : List ι) (key : κ) :
    ((t.after maxEntries xs).ensure key t.init).lookup key =
      if key ∈ firstKeys maxEntries (xs.map t.key ++ [key]) then
        some (t.valueAfter key xs)
      else none := by
  have hkeys : ((t.after maxEntries xs).ensure key t.init).keys.Perm
      (firstKeys maxEntries (xs.map t.key ++ [key])) := keys_ensure (t.keys_after xs) key t.init
  split
  · next hkey =>
      rw [← hkeys.mem_iff, ← HashMap.lookup_isSome_iff] at hkey
      obtain ⟨value, hvalue⟩ := Option.isSome_iff_exists.mp hkey
      rw [hvalue, t.value_of_lookup_ensure (fun _ => t.value_of_lookup xs) hvalue]
  · next hkey =>
      rw [HashMap.lookup_eq_none_iff, hkeys.mem_iff]
      exact hkey

end LazyTable

end Bpf
