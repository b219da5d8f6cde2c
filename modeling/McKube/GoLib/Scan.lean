import McKube.GoLib.Tally
import Mathlib.Algebra.Order.BigOperators.Group.List
import Mathlib.Algebra.Order.Group.Nat

/-!
# Ranging over counters that grow

A `range` loop lists the counters of a map while another goroutine increments them.  It
lists every key that the map had at first, once, with the value of the moment at which it
comes to the key.

* `Scan.visit`: one more key is listed.
* `Scan.complete`: the list adds up to what the map had at first, and the increments that
  came before the loop was at their key.
-/

namespace GoLib.Tally

variable {κ σ : Type} [DecidableEq κ]

/-! ## Occurrences of several keys -/

theorem sum_map_occurs_nil (keys : List κ) : (keys.map (occurs [])).sum = 0 := by
  induction keys with
  | nil => rfl
  | cons key keys ih =>
      rw [List.map_cons, List.sum_cons, ih]
      rfl

theorem sum_map_occurs_append (keys occurrences more : List κ) :
    (keys.map (occurs (occurrences ++ more))).sum =
      (keys.map (occurs occurrences)).sum + (keys.map (occurs more)).sum := by
  have hfun : occurs (occurrences ++ more) = fun key => occurs occurrences key + occurs more key :=
    funext (occurs_append occurrences more)
  rw [hfun, List.sum_map_add]

theorem sum_map_occurs_singleton {keys : List κ} (hnodup : keys.Nodup) (other : κ) :
    (keys.map (occurs [other])).sum = if other ∈ keys then 1 else 0 := by
  induction keys with
  | nil => rfl
  | cons key keys ih =>
      obtain ⟨hkey, hrest⟩ := List.nodup_cons.mp hnodup
      rw [List.map_cons, List.sum_cons, occurs_singleton, ih hrest]
      by_cases heq : other = key
      · subst heq
        simp [hkey]
      · simp [heq]

theorem sum_map_occurs_le {keys : List κ} (hnodup : keys.Nodup) (occurrences : List κ) :
    (keys.map (occurs occurrences)).sum ≤ occurrences.length := by
  induction occurrences using List.reverseRecOn with
  | nil => rw [sum_map_occurs_nil, List.length_nil]
  | append_singleton occurrences other ih =>
      rw [sum_map_occurs_append, sum_map_occurs_singleton hnodup, List.length_append,
        List.length_singleton]
      split <;> omega

theorem sum_map_occurs_eq {keys : List κ} (hnodup : keys.Nodup) {occurrences : List κ}
    (hall : ∀ key ∈ occurrences, key ∈ keys) :
    (keys.map (occurs occurrences)).sum = occurrences.length := by
  induction occurrences using List.reverseRecOn with
  | nil => rw [sum_map_occurs_nil, List.length_nil]
  | append_singleton occurrences other ih =>
      have hother : other ∈ keys := hall other (by simp)
      rw [sum_map_occurs_append, sum_map_occurs_singleton hnodup, List.length_append,
        List.length_singleton, if_pos hother,
        ih fun key hkey => hall key (List.mem_append_left _ hkey)]

/-! ## The range loop -/

/-- The loop has been started when the keys `before` had occurred, and the keys `since` have
occurred since; of these, `late` are counted in what has been listed. -/
structure Scan (key : σ → κ) (value : σ → Int64) (before since : List κ) (listed : List σ)
    (late : Nat) : Prop where
  nodup : (listed.map key).Nodup
  values : ∃ count : κ → Nat, (∀ entry ∈ listed, value entry = Int64.ofNat (count (key entry))) ∧
    ((listed.map key).map count).sum = ((listed.map key).map (occurs before)).sum + late
  late_le : late ≤ ((listed.map key).map (occurs since)).sum

variable {key : σ → κ} {value : σ → Int64} {before since : List κ} {listed : List σ} {late : Nat}

theorem scan_nil : Scan key value before since [] 0 where
  nodup := List.nodup_nil
  values := ⟨fun _ => 0, fun _ hentry => absurd hentry List.not_mem_nil, rfl⟩
  late_le := Nat.le_refl 0

namespace Scan

/-- An increment changes nothing in the list. -/
theorem occur (h : Scan key value before since listed late) (more : List κ) :
    Scan key value before (since ++ more) listed late where
  nodup := h.nodup
  values := h.values
  late_le := by
    rw [sum_map_occurs_append]
    exact Nat.le_add_right_of_le h.late_le

/-- The loop comes to a key that it has not listed. -/
theorem visit {t : Tally κ} (ht : t.Counts (before ++ since))
    (h : Scan key value before since listed late) {entry : σ}
    (hnew : key entry ∉ listed.map key) (hvalue : value entry = t.get (key entry)) :
    Scan key value before since (listed ++ [entry]) (late + occurs since (key entry)) where
  nodup := by
    rw [List.map_append, List.map_singleton]
    exact List.nodup_append.mpr ⟨h.nodup, List.nodup_singleton _, fun a ha b hb heq =>
      hnew (List.mem_singleton.mp hb ▸ heq ▸ ha)⟩
  values := by
    obtain ⟨count, hcount, hsum⟩ := h.values
    have hold : ∀ other ∈ listed, key other ≠ key entry := by
      intro other hother heq
      exact hnew (heq ▸ List.mem_map_of_mem hother)
    refine ⟨Function.update count (key entry) (occurs (before ++ since) (key entry)), ?_, ?_⟩
    · intro other hother
      rcases List.mem_append.mp hother with hlisted | hlast
      · rw [Function.update_of_ne (hold other hlisted)]
        exact hcount other hlisted
      · rw [List.mem_singleton.mp hlast, Function.update_self, hvalue, ht.get]
    · -- the entries that are listed keep their values
      have hsame : (listed.map key).map
          (Function.update count (key entry) (occurs (before ++ since) (key entry))) =
            (listed.map key).map count := by
        apply List.map_congr_left
        intro other hother
        exact Function.update_of_ne (ne_of_mem_of_not_mem hother hnew) _ _
      rw [List.map_append, List.map_singleton, List.map_append, List.map_append, List.sum_append,
        List.sum_append, hsame, hsum, List.map_singleton, List.map_singleton,
        List.sum_singleton, List.sum_singleton, Function.update_self, occurs_append]
      omega
  late_le := by
    rw [List.map_append, List.map_singleton, List.map_append, List.map_singleton, List.sum_append,
      List.sum_singleton]
    exact Nat.add_le_add_right h.late_le _

theorem perm (h : Scan key value before since listed late) {sorted : List σ}
    (hsorted : sorted.Perm listed) : Scan key value before since sorted late where
  nodup := (hsorted.map key).nodup_iff.mpr h.nodup
  values := by
    obtain ⟨count, hcount, hsum⟩ := h.values
    refine ⟨count, fun entry hentry => hcount entry (hsorted.subset hentry), ?_⟩
    rw [((hsorted.map key).map count).sum_eq, ((hsorted.map key).map (occurs before)).sum_eq, hsum]
  late_le := by
    rw [((hsorted.map key).map (occurs since)).sum_eq]
    exact h.late_le

theorem late_le_length (h : Scan key value before since listed late) : late ≤ since.length :=
  h.late_le.trans (sum_map_occurs_le h.nodup since)

/-- The loop has come to all keys that the map had when it was started. -/
theorem complete (h : Scan key value before since listed late)
    (hall : ∀ k ∈ before, k ∈ listed.map key) :
    (listed.map value).sum = Int64.ofNat (before.length + late) ∧
      (before.length + late < 2 ^ 63 →
        (listed.map fun entry => (value entry).toInt).sum = (before.length + late : Nat)) := by
  obtain ⟨count, hcount, hsum⟩ := h.values
  rw [sum_map_occurs_eq h.nodup hall, List.map_map] at hsum
  constructor
  · have hvalues : listed.map value = (listed.map (count ∘ key)).map Int64.ofNat := by
      rw [List.map_map]
      exact List.map_congr_left hcount
    rw [hvalues, Counts.sum_map_ofNat, hsum]
  · intro hfew
    -- no counter exceeds the sum, so none has wrapped around
    have hvalues : listed.map (fun entry => (value entry).toInt) =
        (listed.map (count ∘ key)).map Nat.cast := by
      rw [List.map_map]
      apply List.map_congr_left
      intro entry hentry
      have hle : count (key entry) ≤ (listed.map (count ∘ key)).sum :=
        List.le_sum_of_mem (List.mem_map.mpr ⟨entry, hentry, rfl⟩)
      rw [hcount entry hentry, Int64.toInt_ofNat_of_lt (by omega)]
      rfl
    rw [hvalues, ← Nat.cast_list_sum, hsum]

end Scan

end GoLib.Tally
