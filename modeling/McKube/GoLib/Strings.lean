import Mathlib.Data.List.DropRight
import Mathlib.Tactic.Common

/-!
# Go strings

A Go string is the list of its runes.  This module holds the functions of the
packages `strings` and `unicode` that the programs of this development call,
and the lemmas about them that the proofs use: trimming is idempotent, and
`fields` reads back a list of white-space free words joined by blanks.
-/

namespace GoLib

/-- A Go string, as the list of its runes. -/
abbrev GoString := List Char

instance : Coe String GoString := ⟨String.toList⟩

/-- `unicode.IsSpace`. -/
def isSpace (c : Char) : Bool :=
  let r := c.toNat
  (0x09 ≤ r && r ≤ 0x0d) || r == 0x20 || r == 0x85 || r == 0xa0 || r == 0x1680 ||
    (0x2000 ≤ r && r ≤ 0x200a) || r == 0x2028 || r == 0x2029 || r == 0x202f ||
    r == 0x205f || r == 0x3000

/-- `strings.TrimSpace`. -/
def trimSpace (s : GoString) : GoString :=
  (s.dropWhile isSpace).rdropWhile isSpace

/-- `strings.Fields`: the maximal runs of non-space runes. -/
def fields (s : GoString) : List GoString :=
  (s.splitOnP isSpace).filter fun word => !word.isEmpty

/-- `strings.Split` by a separator of one rune. -/
def split (s : GoString) (sep : Char) : List GoString := s.splitOn sep

/-- `strings.Cut` at a single character; `none` if it is not found. -/
def cut (sep : Char) : GoString → Option (GoString × GoString)
  | [] => none
  | c :: s => if c = sep then some ([], s) else (cut sep s).map fun p => (c :: p.1, p.2)

theorem cut_cons (sep c : Char) (s : GoString) :
    cut sep (c :: s) =
      if c = sep then some ([], s) else (cut sep s).map fun p => (c :: p.1, p.2) := rfl

/-- `strings.Join` with a separator of one rune. -/
def joinWith (sep : Char) (parts : List GoString) : GoString := [sep].intercalate parts

/-- `strings.HasPrefix`. -/
def hasPrefix (s pre : GoString) : Bool := pre.isPrefixOf s

/-- `strings.TrimPrefix`. -/
def trimPrefix (s pre : GoString) : GoString :=
  if hasPrefix s pre then s.drop pre.length else s

/-- The start of the last occurrence of `sub`, if there is one. -/
def lastIndex? (sub : GoString) : GoString → Option Nat
  | [] => if sub.isPrefixOf [] then some 0 else none
  | c :: s =>
      match lastIndex? sub s with
      | some i => some (i + 1)
      | none => if sub.isPrefixOf (c :: s) then some 0 else none

theorem lastIndex?_nil (sub : GoString) :
    lastIndex? sub [] = if sub.isPrefixOf [] then some 0 else none := rfl

theorem lastIndex?_cons (sub : GoString) (c : Char) (s : GoString) :
    lastIndex? sub (c :: s) =
      match lastIndex? sub s with
      | some i => some (i + 1)
      | none => if sub.isPrefixOf (c :: s) then some 0 else none := rfl

/-- `strings.LastIndex`: `-1` when `sub` does not occur. -/
def lastIndex (s sub : GoString) : Int :=
  match lastIndex? sub s with
  | some i => i
  | none => -1

/-! ## Trimming -/

@[simp] theorem trimSpace_nil : trimSpace [] = [] := by
  simp [trimSpace]

/-- A string with no space rune is its own trimming. -/
theorem trimSpace_eq_self {s : GoString} (hspace : ∀ c ∈ s, isSpace c = false) :
    trimSpace s = s := by
  have hleft : s.dropWhile isSpace = s := by
    cases s with
    | nil => rfl
    | cons c s =>
        have hc : isSpace c = false := hspace c (List.mem_cons_self)
        simp [hc]
  unfold trimSpace
  rw [hleft, List.rdropWhile_eq_self_iff]
  intro hne hlast
  have hfalse := hspace _ (List.getLast_mem hne)
  rw [hfalse] at hlast
  contradiction

private theorem dropWhile_rdropWhile_eq_self {s : GoString}
    (hs : s.dropWhile isSpace = s) :
    (s.rdropWhile isSpace).dropWhile isSpace = s.rdropWhile isSpace := by
  -- the first rune of a non-empty prefix of `s` is the first rune of `s`
  have hprefix := List.rdropWhile_prefix isSpace (l := s)
  cases hr : s.rdropWhile isSpace with
  | nil => rfl
  | cons c rest =>
      obtain ⟨tail, htail⟩ := hprefix
      rw [hr] at htail
      have hc : isSpace c = false := by
        by_contra hspace
        rw [Bool.not_eq_false] at hspace
        rw [← htail, List.cons_append, List.dropWhile_cons_of_pos hspace] at hs
        have hlength := congrArg List.length hs
        have hle := (List.dropWhile_suffix isSpace (l := rest ++ tail)).length_le
        rw [List.length_cons] at hlength
        omega
      rw [List.dropWhile_cons_of_neg (by simp [hc])]

@[simp] theorem trimSpace_trimSpace (s : GoString) :
    trimSpace (trimSpace s) = trimSpace s := by
  unfold trimSpace
  rw [dropWhile_rdropWhile_eq_self (List.dropWhile_idempotent isSpace s),
    List.rdropWhile_idempotent]

/-- A string ends in white space. -/
def EndsInSpace (s : GoString) : Prop := ∃ c ∈ s.getLast?, isSpace c = true

instance (s : GoString) : Decidable (EndsInSpace s) :=
  decidable_of_iff (s.getLast?.any isSpace = true) (by simp [EndsInSpace, Option.any_eq_true])

theorem rdropWhile_isSpace_eq_self_iff {s : GoString} :
    s.rdropWhile isSpace = s ↔ ¬ EndsInSpace s := by
  rw [List.rdropWhile_eq_self_iff]
  unfold EndsInSpace
  cases s using List.reverseRecOn with
  | nil => simp
  | append_singleton s c => simp

/-- Trimming stops at a rune that is no space. -/
theorem trimSpace_append_cons {s t : GoString} {c d : Char} (hd : isSpace d = false)
    (hc : isSpace c = false) :
    trimSpace (d :: s ++ c :: t) = d :: s ++ c :: t.rdropWhile isSpace := by
  have hright : ∀ u t : GoString,
      (u ++ c :: t).rdropWhile isSpace = u ++ c :: t.rdropWhile isSpace := by
    intro u t
    induction t using List.reverseRecOn with
    | nil => simp [hc]
    | append_singleton t e ih =>
        rw [← List.cons_append, ← List.append_assoc, List.rdropWhile_concat,
          List.rdropWhile_concat]
        by_cases he : isSpace e = true
        · rw [if_pos he, if_pos he, ih]
        · rw [if_neg he, if_neg he, List.append_assoc, List.cons_append]
  have hleft : (d :: s ++ c :: t).dropWhile isSpace = d :: s ++ c :: t := by simp [hd]
  unfold trimSpace
  rw [hleft, hright]

/-! ## Splitting and joining -/

/-- A word: a non-empty string with no space rune. -/
def IsWord (s : GoString) : Prop := s ≠ [] ∧ ∀ c ∈ s, isSpace c = false

/-- No piece of a split contains a separator. -/
theorem eq_false_of_mem_splitOnP {p : Char → Bool} {s piece : GoString}
    (hpiece : piece ∈ s.splitOnP p) : ∀ c ∈ piece, p c = false := by
  induction s generalizing piece with
  | nil =>
      rw [List.splitOnP_nil, List.mem_singleton] at hpiece
      simp [hpiece]
  | cons c s ih =>
      rw [List.splitOnP_cons_eq_if_modifyHead] at hpiece
      by_cases hc : p c = true
      · rw [if_pos hc] at hpiece
        rcases List.mem_cons.mp hpiece with rfl | hrest
        · simp
        · exact ih hrest
      · rw [if_neg hc] at hpiece
        rw [Bool.not_eq_true] at hc
        obtain ⟨head, tail, hsplit⟩ :=
          List.exists_cons_of_ne_nil (List.splitOnP_ne_nil p s)
        rw [hsplit, List.modifyHead_cons, List.mem_cons] at hpiece
        rcases hpiece with rfl | hrest
        · have hhead : head ∈ s.splitOnP p := by simp [hsplit]
          simpa [hc] using ih hhead
        · exact ih (by simp [hsplit, hrest])

theorem not_mem_of_mem_split {s piece : GoString} {sep : Char}
    (hpiece : piece ∈ split s sep) : sep ∉ piece := by
  intro hsep
  rw [split, List.splitOn_eq_splitOnP] at hpiece
  have hfalse := eq_false_of_mem_splitOnP hpiece sep hsep
  simp at hfalse

theorem split_append_cons (s t : GoString) (sep : Char) :
    split (s ++ sep :: t) sep = split s sep ++ split t sep :=
  List.splitOn_append_cons_of_beq s t (beq_self_eq_true sep)

theorem split_eq_singleton {s : GoString} {sep : Char} (hsep : sep ∉ s) :
    split s sep = [s] :=
  List.splitOn_eq_singleton hsep

@[simp] theorem joinWith_singleton (sep : Char) (part : GoString) :
    joinWith sep [part] = part := by
  simp [joinWith]

theorem cut_append_cons {sep : Char} {s : GoString} (hsep : sep ∉ s) (t : GoString) :
    cut sep (s ++ sep :: t) = some (s, t) := by
  induction s with
  | nil => exact if_pos rfl
  | cons c s ih =>
      rw [List.mem_cons, not_or] at hsep
      rw [List.cons_append, cut_cons, if_neg (Ne.symm hsep.1), ih hsep.2]
      rfl

theorem cut_eq_none_iff {sep : Char} {s : GoString} : cut sep s = none ↔ sep ∉ s := by
  induction s with
  | nil => exact iff_of_true rfl List.not_mem_nil
  | cons c s ih =>
      rw [cut_cons, List.mem_cons]
      split
      · next heq => simp [heq]
      · next hne => rw [Option.map_eq_none_iff, ih, not_or, and_iff_right (Ne.symm hne)]

theorem not_mem_of_cut {sep : Char} {s a b : GoString} (h : cut sep s = some (a, b)) : sep ∉ a := by
  induction s generalizing a with
  | nil => cases h
  | cons c s ih =>
      rw [cut_cons] at h
      split at h
      · cases h
        exact List.not_mem_nil
      · next hne =>
          obtain ⟨⟨a', b'⟩, hcut, heq⟩ := Option.map_eq_some_iff.mp h
          cases heq
          rw [List.mem_cons, not_or]
          exact ⟨Ne.symm hne, ih hcut⟩

theorem joinWith_cons_cons (sep : Char) (part next : GoString) (parts : List GoString) :
    joinWith sep (part :: next :: parts) = part ++ sep :: joinWith sep (next :: parts) := by
  simp [joinWith]

/-- Joined parts can be joined with further ones. -/
theorem joinWith_joinWith_cons {sep : Char} {parts : List GoString} (hne : parts ≠ [])
    (more : List GoString) :
    joinWith sep (joinWith sep parts :: more) = joinWith sep (parts ++ more) := by
  induction parts with
  | nil => exact absurd rfl hne
  | cons part parts ih =>
      cases parts with
      | nil => rw [joinWith_singleton, List.singleton_append]
      | cons next parts =>
          rw [joinWith_cons_cons, List.cons_append, List.cons_append, joinWith_cons_cons,
            ← List.cons_append, ← ih (List.cons_ne_nil next parts)]
          cases more with
          | nil => rw [joinWith_singleton, joinWith_singleton]
          | cons d more => rw [joinWith_cons_cons, joinWith_cons_cons, List.append_assoc,
              List.cons_append]

/-- `split` reads back non-empty lists of separator-free parts. -/
theorem split_joinWith {parts : List GoString} {sep : Char}
    (hparts : ∀ part ∈ parts, sep ∉ part) (hne : parts ≠ []) :
    split (joinWith sep parts) sep = parts :=
  List.splitOn_intercalate sep hparts hne

theorem isWord_of_mem_fields {s word : GoString} (hword : word ∈ fields s) :
    IsWord word := by
  obtain ⟨hmem, hne⟩ := List.mem_filter.mp hword
  exact ⟨by simpa using hne, eq_false_of_mem_splitOnP hmem⟩

theorem fields_cons_of_isSpace {c : Char} (s : GoString) (hc : isSpace c = true) :
    fields (c :: s) = fields s := by
  unfold fields
  rw [List.splitOnP_cons_eq_if_modifyHead, if_pos hc, List.filter_cons_of_neg (by simp)]

theorem fields_append_of_isSpace {c : Char} (s : GoString) (hc : isSpace c = true) :
    fields (s ++ [c]) = fields s := by
  unfold fields
  rw [List.splitOnP_append_cons s [] hc, List.splitOnP_nil, List.filter_append]
  simp

/-- White space around a string does not change its words. -/
@[simp] theorem fields_trimSpace (s : GoString) : fields (trimSpace s) = fields s := by
  have hright : ∀ t : GoString, fields (t.rdropWhile isSpace) = fields t := by
    intro t
    induction t using List.reverseRecOn with
    | nil => simp
    | append_singleton t c ih =>
        rw [List.rdropWhile_concat]
        split
        · rename_i hc
          rw [ih, fields_append_of_isSpace t hc]
        · rfl
  have hleft : fields (s.dropWhile isSpace) = fields s := by
    induction s with
    | nil => rfl
    | cons c s ih =>
        by_cases hc : isSpace c = true
        · rw [List.dropWhile_cons_of_pos hc, ih, fields_cons_of_isSpace s hc]
        · rw [List.dropWhile_cons_of_neg hc]
  unfold trimSpace
  rw [hright, hleft]

private theorem fields_word_append {word rest : GoString} (hword : IsWord word) :
    fields (word ++ ' ' :: rest) = word :: fields rest := by
  unfold fields
  rw [List.splitOnP_append_cons_of_forall_mem hword.2 ' ' (by decide),
    List.filter_cons_of_pos (by simpa using hword.1)]

theorem fields_word {word : GoString} (hword : IsWord word) : fields word = [word] := by
  unfold fields
  rw [List.splitOnP_eq_singleton hword.2, List.filter_cons_of_pos (by simpa using hword.1),
    List.filter_nil]

/-- `fields` reads back words joined by blanks. -/
theorem fields_joinWith {words : List GoString} (hwords : ∀ word ∈ words, IsWord word) :
    fields (joinWith ' ' words) = words := by
  induction words with
  | nil => rfl
  | cons word words ih =>
      have hword : IsWord word := hwords word List.mem_cons_self
      have hrest : ∀ w ∈ words, IsWord w := fun w hw => hwords w (List.mem_cons_of_mem _ hw)
      cases words with
      | nil =>
          rw [joinWith, List.intercalate_singleton]
          exact fields_word hword
      | cons next words =>
          have hjoin : joinWith ' ' (word :: next :: words) =
              word ++ ' ' :: joinWith ' ' (next :: words) := by
            simp [joinWith, List.intercalate_cons_cons]
          rw [hjoin, fields_word_append hword, ih hrest]

/-! ## The last occurrence -/

theorem lastIndex?_cons_eq_none {c : Char} {s : GoString} (hs : c ∉ s) (sub : GoString) :
    lastIndex? (c :: sub) s = none := by
  induction s with
  | nil => rfl
  | cons d s ih =>
      have hd : c ≠ d := fun heq => hs (heq ▸ List.mem_cons_self)
      simp [lastIndex?_cons, ih (fun hmem => hs (List.mem_cons_of_mem _ hmem)), hd]

theorem lastIndex?_eq_none {c : Char} {s : GoString} (hs : c ∉ s) :
    lastIndex? [c] s = none :=
  lastIndex?_cons_eq_none hs []

/-- The last separator of `s ++ c :: t` is the one in front of a `t` that has none. -/
theorem lastIndex?_append_cons {c : Char} (s : GoString) {t : GoString} (ht : c ∉ t) :
    lastIndex? [c] (s ++ c :: t) = some s.length := by
  induction s with
  | nil => simp [lastIndex?_cons, lastIndex?_eq_none ht]
  | cons d s ih => simp [lastIndex?_cons, ih]

/-- The last occurrence of a string whose first rune does not come again. -/
theorem lastIndex_append_cons {c : Char} (s : GoString) {sub t : GoString} (hsub : c ∉ sub)
    (ht : c ∉ t) : lastIndex (s ++ c :: sub ++ t) (c :: sub) = s.length := by
  have hrest : c ∉ sub ++ t := by
    rw [List.mem_append, not_or]
    exact ⟨hsub, ht⟩
  have hfound : lastIndex? (c :: sub) (s ++ c :: sub ++ t) = some s.length := by
    induction s with
    | nil => simp [lastIndex?_cons, lastIndex?_cons_eq_none hrest]
    | cons d s ih =>
        rw [List.cons_append, List.cons_append, lastIndex?_cons, ih]
        rfl
  rw [lastIndex, hfound]

/-- The last occurrence of a string comes no earlier than any other. -/
theorem le_lastIndex_append (s sub t : GoString) : s.length ≤ lastIndex (s ++ sub ++ t) sub := by
  have hfound : ∃ i, lastIndex? sub (s ++ sub ++ t) = some i ∧ s.length ≤ i := by
    induction s with
    | nil =>
        have hprefix : sub.isPrefixOf (sub ++ t) = true :=
          List.isPrefixOf_iff_prefix.mpr (List.prefix_append sub t)
        rw [List.nil_append]
        cases hrest : sub ++ t with
        | nil =>
            rw [hrest] at hprefix
            exact ⟨0, by rw [lastIndex?_nil, if_pos hprefix], le_refl 0⟩
        | cons c rest =>
            rw [hrest] at hprefix
            rw [lastIndex?_cons]
            cases lastIndex? sub rest with
            | none => exact ⟨0, by rw [if_pos hprefix], le_refl 0⟩
            | some i => exact ⟨i + 1, rfl, Nat.zero_le _⟩
    | cons c s ih =>
        obtain ⟨i, hi, hle⟩ := ih
        refine ⟨i + 1, ?_, Nat.succ_le_succ hle⟩
        rw [List.cons_append, List.cons_append, lastIndex?_cons, hi]
  obtain ⟨i, hi, hle⟩ := hfound
  rw [lastIndex, hi]
  exact Int.ofNat_le.mpr hle

end GoLib
