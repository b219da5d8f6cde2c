import McKube.Json.Scanner
import Mathlib.Data.Char
import Mathlib.Data.List.Lex

/-!
# Decoding into Go values

How `encoding/json` puts an object into a struct: a key belongs to the field of its name, or
else to a field whose name is the same up to case; other keys are left out, a later member
overwrites an earlier one, and `null` leaves a value as it is.  A value of a wrong type makes
the whole call fail in the end.

* `foldlM_perm`: the order of members does not matter if they do not touch the same field.
* `mapField_toValue`: a `map[string]string` that has been written is read back.
-/

namespace Json

open GoLib

/-! ## Fields -/

/-- One character of `foldName`; of the other characters only the long s and the Kelvin sign
fold to an ASCII letter. -/
def foldRune (c : Char) : Char :=
  if c = '\u017f' then 'S' else if c = '\u212a' then 'K' else c.toUpper

def foldName (name : GoString) : GoString := name.map foldRune

/-- The fields of a struct that is built in a state `σ`: their names, and what a value does. -/
abbrev Fields (σ : Type) := List (GoString × (Value → σ → Option σ))

/-- The field that a key belongs to. -/
def fieldFor {σ : Type} (fields : Fields σ) (key : GoString) : Option (Value → σ → Option σ) :=
  (fields.lookup key).or
    ((fields.find? fun field => decide (foldName field.1 = foldName key)).map Prod.snd)

/-- One member of the object. -/
def decodeMember {σ : Type} (fields : Fields σ) (s : σ) (member : GoString × Value) : Option σ :=
  match fieldFor fields member.1 with
  | some set => set member.2 s
  | none => some s

/-- `json.Unmarshal` into a struct. -/
def decodeStruct {σ : Type} (fields : Fields σ) (init : σ) : Value → Option σ
  | .null => some init
  | .object members => members.foldlM (decodeMember fields) init
  | _ => none

/-- Steps that commute may be taken in any order. -/
theorem foldlM_perm {σ μ : Type} {step : σ → μ → Option σ} {l l' : List μ} (h : l.Perm l')
    (hcomm : ∀ x ∈ l, ∀ y ∈ l, ∀ s, (step s x).bind (step · y) = (step s y).bind (step · x))
    (s : σ) : l.foldlM step s = l'.foldlM step s := by
  induction h generalizing s with
  | nil => rfl
  | cons x _ ih =>
      rw [List.foldlM_cons, List.foldlM_cons]
      refine congrArg ((step s x).bind ·) (funext fun s' => ?_)
      exact ih (fun y hy z hz => hcomm y (List.mem_cons_of_mem x hy) z
        (List.mem_cons_of_mem x hz)) s'
  | swap x y l =>
      have hswap := hcomm x (by simp) y (by simp) s
      simp only [List.foldlM_cons]
      show (step s y).bind (fun s' => (step s' x).bind fun s'' => l.foldlM step s'') =
        (step s x).bind (fun s' => (step s' y).bind fun s'' => l.foldlM step s'')
      rw [← Option.bind_assoc, ← Option.bind_assoc, hswap]
  | trans hperm _ ih ih' =>
      rw [ih hcomm s]
      exact ih' (fun x hx y hy => hcomm x (hperm.mem_iff.mpr hx) y (hperm.mem_iff.mpr hy)) s

section Setters

variable {σ : Type}

def stringField (set : GoString → σ → σ) : Value → σ → Option σ
  | .null, s => some s
  | .string text, s => some (set text s)
  | _, _ => none

def boolField (set : Bool → σ → σ) : Value → σ → Option σ
  | .null, s => some s
  | .bool b, s => some (set b s)
  | _, _ => none

/-- An `int`: the literal has to be an integer in the range. -/
def intField (set : (n : Int) → InInt n → σ → σ) : Value → σ → Option σ
  | .null, s => some s
  | .number n, s =>
      match h : atoi n.literal with
      | some i => some (set i (inInt_of_atoi h) s)
      | none => none
  | _, _ => none

/-- A `*string`: `null` makes it nil. -/
def stringPointerField (set : Option GoString → σ → σ) : Value → σ → Option σ
  | .null, s => some (set none s)
  | .string text, s => some (set (some text) s)
  | _, _ => none

end Setters

/-! ## Maps -/

/-- A `map[string]string` as a list of its entries. -/
abbrev StringMap := List (GoString × GoString)

def StringMap.insert (m : StringMap) (key value : GoString) : StringMap :=
  (key, value) :: m.filter fun entry => decide (entry.1 ≠ key)

/-- One member of an object that is decoded into a map; `null` is the empty string there. -/
def decodeEntry (m : StringMap) : GoString × Value → Option StringMap
  | (key, .null) => some (m.insert key [])
  | (key, .string text) => some (m.insert key text)
  | _ => none

/-- A `map[string]string`: an object adds its members, `null` makes it nil. -/
def mapField {σ : Type} (get : σ → StringMap) (set : StringMap → σ → σ) : Value → σ → Option σ
  | .null, s => some (set [] s)
  | .object members, s => (members.foldlM decodeEntry (get s)).map fun m => set m s
  | _, _ => none

/-- `json.Marshal` of a map sorts the entries by their keys. -/
def StringMap.toValue (m : StringMap) : Value :=
  .object ((m.mergeSort fun a b => decide (a.1 ≤ b.1)).map fun entry => (entry.1, .string entry.2))

theorem StringMap.insert_of_not_mem {m : StringMap} {key : GoString}
    (h : key ∉ m.map Prod.fst) (value : GoString) : m.insert key value = (key, value) :: m := by
  unfold StringMap.insert
  rw [List.filter_eq_self.mpr]
  intro entry hentry
  rw [decide_eq_true_eq]
  rintro rfl
  exact h (List.mem_map_of_mem hentry)

/-- Entries with different keys are all kept. -/
theorem foldlM_decodeEntry {entries m : StringMap}
    (h : ((entries ++ m).map Prod.fst).Nodup) :
    (entries.map fun entry => (entry.1, Value.string entry.2)).foldlM decodeEntry m =
      some (entries.reverse ++ m) := by
  induction entries generalizing m with
  | nil => rfl
  | cons entry entries ih =>
      have hsplit := h
      rw [List.cons_append, List.map_cons, List.nodup_cons, List.map_append,
        List.mem_append, not_or] at hsplit
      have hnext : ((entries ++ entry :: m).map Prod.fst).Nodup := by
        have hperm : (entries ++ entry :: m).Perm (entry :: entries ++ m) := List.perm_middle
        exact (hperm.map Prod.fst).nodup_iff.mpr h
      rw [List.map_cons, List.foldlM_cons]
      show (some (StringMap.insert m entry.1 entry.2)).bind _ = _
      rw [StringMap.insert_of_not_mem hsplit.1.2, Option.bind_some, ih hnext, List.reverse_cons,
        List.append_assoc]
      rfl

/-- A map that has been written is read back, with its entries in some order. -/
theorem mapField_toValue {σ : Type} {get : σ → StringMap} (set : StringMap → σ → σ) {s : σ}
    (hnil : get s = []) {m : StringMap} (hnodup : (m.map Prod.fst).Nodup) :
    ∃ m' : StringMap, m'.Perm m ∧ mapField get set m.toValue s = some (set m' s) := by
  have hperm := List.mergeSort_perm m fun a b => decide (a.1 ≤ b.1)
  refine ⟨(m.mergeSort fun a b => decide (a.1 ≤ b.1)).reverse,
    (List.reverse_perm _).trans hperm, ?_⟩
  unfold StringMap.toValue mapField
  dsimp only
  rw [hnil, foldlM_decodeEntry, List.append_nil, Option.map_some]
  rw [List.append_nil]
  exact (hperm.map Prod.fst).nodup_iff.mpr hnodup

end Json
