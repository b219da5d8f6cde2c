import McKube.GoLib.Strings
import Mathlib.Data.List.Chain

/-!
# Regular expressions

The part of the package `regexp` that this development uses: literals, classes
with a repetition count, groups, concatenation and alternation.  A search returns
the leftmost match, and at one position prefers the first alternative.

* `runs_eq_nil_of_leading`: no match without one of the leading literals.
* `findStringSubmatch_append`: a search goes over a text in which no match starts.
* `findStringSubmatch_eq_some_iff`: what a search finds is the leftmost match.
-/

namespace GoLib

/-- A regular expression. -/
inductive Regexp where
  | literal (text : GoString)
  | repeatClass (inClass : Char → Bool) (count : Nat)
  | capture (r : Regexp)
  | concat (first second : Regexp)
  | alternate (first second : Regexp)

namespace Regexp

/-- The matches at the start of the text, the preferred one first: the submatches,
and what follows the match. -/
def runs : Regexp → GoString → List (List GoString × GoString)
  | .literal text, s => if text.isPrefixOf s then [([], s.drop text.length)] else []
  | .repeatClass inClass count, s =>
      if count ≤ s.length ∧ (s.take count).all inClass then [([], s.drop count)] else []
  | .capture r, s =>
      (r.runs s).map fun m => (s.take (s.length - m.2.length) :: m.1, m.2)
  | .concat first second, s =>
      (first.runs s).flatMap fun m => (second.runs m.2).map fun m' => (m.1 ++ m'.1, m'.2)
  | .alternate first second, s => first.runs s ++ second.runs s

theorem runs_literal (text s : GoString) :
    (literal text).runs s = if text.isPrefixOf s then [([], s.drop text.length)] else [] := rfl

theorem runs_repeatClass (inClass : Char → Bool) (count : Nat) (s : GoString) :
    (repeatClass inClass count).runs s =
      if count ≤ s.length ∧ (s.take count).all inClass then [([], s.drop count)] else [] := rfl

theorem runs_capture (r : Regexp) (s : GoString) :
    (capture r).runs s = (r.runs s).map fun m => (s.take (s.length - m.2.length) :: m.1, m.2) := rfl

theorem runs_concat (first second : Regexp) (s : GoString) :
    (concat first second).runs s =
      (first.runs s).flatMap fun m => (second.runs m.2).map fun m' => (m.1 ++ m'.1, m'.2) := rfl

theorem runs_alternate (first second : Regexp) (s : GoString) :
    (alternate first second).runs s = first.runs s ++ second.runs s := rfl

/-- The preferred match at the start of the text, and its submatches. -/
def matchHere (r : Regexp) (s : GoString) : Option (List GoString) :=
  (r.runs s).head?.map fun m => s.take (s.length - m.2.length) :: m.1

theorem matchHere_eq (r : Regexp) (s : GoString) :
    r.matchHere s = (r.runs s).head?.map fun m => s.take (s.length - m.2.length) :: m.1 := rfl

/-- `FindStringSubmatch`. -/
def findStringSubmatch (r : Regexp) : GoString → Option (List GoString)
  | [] => r.matchHere []
  | c :: s => (r.matchHere (c :: s)).or (r.findStringSubmatch s)

theorem findStringSubmatch_cons (r : Regexp) (c : Char) (s : GoString) :
    r.findStringSubmatch (c :: s) = (r.matchHere (c :: s)).or (r.findStringSubmatch s) := rfl

/-- The literals with which a match can start. -/
def leading : Regexp → List GoString
  | .literal text => [text]
  | .repeatClass _ _ => [[]]
  | .capture r => r.leading
  | .concat first _ => first.leading
  | .alternate first second => first.leading ++ second.leading

/-! ## Matches at one position -/

theorem runs_literal_of_not_prefix {text s : GoString} (h : ¬ text <+: s) :
    (literal text).runs s = [] := by
  rw [runs_literal, if_neg fun hprefix => h (List.isPrefixOf_iff_prefix.mp hprefix)]

theorem runs_repeatClass_append {inClass : Char → Bool} {text : GoString}
    (hclass : ∀ c ∈ text, inClass c = true) (s : GoString) :
    (repeatClass inClass text.length).runs (text ++ s) = [([], s)] := by
  have hall : text.all inClass = true := List.all_eq_true.mpr hclass
  have hlength : text.length ≤ (text ++ s).length := by simp
  rw [runs_repeatClass, List.take_left, List.drop_left, if_pos ⟨hlength, hall⟩]

theorem runs_eq_nil_of_leading {r : Regexp} {s : GoString} (h : ∀ text ∈ r.leading, ¬ text <+: s) :
    r.runs s = [] := by
  induction r with
  | literal text => exact runs_literal_of_not_prefix (h text (List.mem_singleton_self text))
  | repeatClass inClass count =>
      -- a class stands for the empty literal, which starts every text
      exact absurd List.nil_prefix (h [] (List.mem_singleton_self []))
  | capture r ih => rw [runs_capture, ih h, List.map_nil]
  | concat first second ih => rw [runs_concat, ih h, List.flatMap_nil]
  | alternate first second ihfirst ihsecond =>
      rw [runs_alternate, ihfirst fun text htext => h text (List.mem_append_left _ htext),
        ihsecond fun text htext => h text (List.mem_append_right _ htext), List.append_nil]

theorem mem_runs_literal {text s : GoString} {m : List GoString × GoString} :
    m ∈ (literal text).runs s ↔ m.1 = [] ∧ s = text ++ m.2 := by
  obtain ⟨groups, rest⟩ := m
  rw [runs_literal]
  constructor
  · intro hmem
    split at hmem
    · next hprefix =>
        obtain ⟨t, rfl⟩ := List.isPrefixOf_iff_prefix.mp hprefix
        rw [List.drop_left, List.mem_singleton, Prod.mk.injEq] at hmem
        exact ⟨hmem.1, by rw [hmem.2]⟩
    · cases hmem
  · rintro ⟨rfl, rfl⟩
    rw [if_pos (List.isPrefixOf_iff_prefix.mpr ⟨rest, rfl⟩), List.drop_left]
    exact List.mem_singleton_self _

theorem mem_runs_repeatClass {inClass : Char → Bool} {count : Nat} {s : GoString}
    {m : List GoString × GoString} :
    m ∈ (repeatClass inClass count).runs s ↔
      m.1 = [] ∧ ∃ text : GoString,
        text.length = count ∧ (∀ c ∈ text, inClass c = true) ∧ s = text ++ m.2 := by
  obtain ⟨groups, rest⟩ := m
  constructor
  · intro hmem
    rw [runs_repeatClass] at hmem
    split at hmem
    · next hclass =>
        rw [List.mem_singleton, Prod.mk.injEq] at hmem
        obtain ⟨rfl, rfl⟩ := hmem
        refine ⟨rfl, s.take count, ?_, List.all_eq_true.mp hclass.2, ?_⟩
        · rw [List.length_take]
          omega
        · exact (List.take_append_drop count s).symm
    · cases hmem
  · rintro ⟨rfl, text, rfl, hclass, rfl⟩
    rw [runs_repeatClass_append hclass]
    exact List.mem_singleton_self _

theorem mem_runs_concat {first second : Regexp} {s : GoString} {m : List GoString × GoString} :
    m ∈ (concat first second).runs s ↔
      ∃ m₁ ∈ first.runs s, ∃ m₂ ∈ second.runs m₁.2, (m₁.1 ++ m₂.1, m₂.2) = m := by
  rw [runs_concat]
  simp only [List.mem_flatMap, List.mem_map]

theorem mem_runs_alternate {first second : Regexp} {s : GoString}
    {m : List GoString × GoString} :
    m ∈ (alternate first second).runs s ↔ m ∈ first.runs s ∨ m ∈ second.runs s := by
  rw [runs_alternate, List.mem_append]

theorem mem_runs_capture {r : Regexp} {s : GoString} {m : List GoString × GoString} :
    m ∈ (capture r).runs s ↔
      ∃ m' ∈ r.runs s, (s.take (s.length - m'.2.length) :: m'.1, m'.2) = m := by
  rw [runs_capture, List.mem_map]

/-! ## Searches -/

theorem matchHere_of_runs_nil {r : Regexp} {s : GoString} (h : r.runs s = []) :
    r.matchHere s = none := by
  rw [matchHere_eq, h]
  rfl

theorem matchHere_eq_none_iff {r : Regexp} {s : GoString} :
    r.matchHere s = none ↔ r.runs s = [] := by
  rw [matchHere_eq, Option.map_eq_none_iff, List.head?_eq_none_iff]

theorem findStringSubmatch_of_runs {r : Regexp} {s rest : GoString} {groups : List GoString}
    (h : r.runs s = [(groups, rest)]) :
    r.findStringSubmatch s = some (s.take (s.length - rest.length) :: groups) := by
  have hhere : r.matchHere s = some (s.take (s.length - rest.length) :: groups) := by
    rw [matchHere_eq, h]
    rfl
  cases s with
  | nil => exact hhere
  | cons c s => rw [findStringSubmatch_cons, hhere, Option.some_or]

/-- Nothing is found before the place where the first match can start. -/
theorem findStringSubmatch_append {r : Regexp} {before s : GoString}
    (h : ∀ a b, before = a ++ b → b ≠ [] → r.runs (b ++ s) = []) :
    r.findStringSubmatch (before ++ s) = r.findStringSubmatch s := by
  induction before with
  | nil => rfl
  | cons c before ih =>
      have hhere : r.matchHere (c :: before ++ s) = none :=
        matchHere_of_runs_nil (h [] (c :: before) rfl (List.cons_ne_nil c before))
      rw [List.cons_append] at hhere ⊢
      rw [findStringSubmatch_cons, hhere, Option.none_or]
      exact ih fun a b hsplit => h (c :: a) b (by rw [hsplit, List.cons_append])

/-- A search finds the match at the first place where there is one. -/
theorem findStringSubmatch_eq_some_iff {r : Regexp} {s : GoString} {m : List GoString} :
    r.findStringSubmatch s = some m ↔
      ∃ before rest, s = before ++ rest ∧ r.matchHere rest = some m ∧
        ∀ a b, before = a ++ b → b ≠ [] → r.matchHere (b ++ rest) = none := by
  constructor
  · intro hfound
    have hnothing : ∀ rest a b : GoString, [] = a ++ b → b ≠ [] → r.matchHere (b ++ rest) = none :=
      fun rest a b hsplit hne => absurd (List.append_eq_nil_iff.mp hsplit.symm).2 hne
    induction s with
    | nil => exact ⟨[], [], rfl, hfound, hnothing []⟩
    | cons c s ih =>
        rw [findStringSubmatch_cons, Option.or_eq_some_iff] at hfound
        rcases hfound with hhere | ⟨hnone, hlater⟩
        · exact ⟨[], c :: s, rfl, hhere, hnothing (c :: s)⟩
        · obtain ⟨before, rest, rfl, hmatch, hfirst⟩ := ih hlater
          refine ⟨c :: before, rest, rfl, hmatch, ?_⟩
          intro a b hsplit hne
          cases a with
          | nil =>
              rw [List.nil_append] at hsplit
              rw [← hsplit]
              exact hnone
          | cons c' a =>
              rw [List.cons_append, List.cons.injEq] at hsplit
              exact hfirst a b hsplit.2 hne
  · rintro ⟨before, rest, rfl, hmatch, hfirst⟩
    induction before with
    | nil =>
        cases rest with
        | nil => exact hmatch
        | cons c rest => rw [List.nil_append, findStringSubmatch_cons, hmatch, Option.some_or]
    | cons c before ih =>
        have hhere : r.matchHere (c :: before ++ rest) = none :=
          hfirst [] (c :: before) rfl (List.cons_ne_nil c before)
        rw [List.cons_append] at hhere ⊢
        rw [findStringSubmatch_cons, hhere, Option.none_or]
        exact ih fun a b hsplit => hfirst (c :: a) b (by rw [hsplit, List.cons_append])

theorem findStringSubmatch_eq_none {r : Regexp} {s : GoString}
    (h : ∀ a b, s = a ++ b → r.runs b = []) : r.findStringSubmatch s = none := by
  induction s with
  | nil => exact matchHere_of_runs_nil (h [] [] rfl)
  | cons c s ih =>
      rw [findStringSubmatch_cons, matchHere_of_runs_nil (h [] (c :: s) rfl), Option.none_or]
      exact ih fun a b hsplit => h (c :: a) b (by rw [hsplit, List.cons_append])

end Regexp

end GoLib
