import Mathlib.Data.List.Infix
import Mathlib.Tactic.Common

/-!
# Cutting a text at separators

A separator may have any length: `width` says how long the separator is that a text
starts with, and is zero if it starts with none.  The leftmost separator cuts, and the
search goes on behind it.

* `pieces_append_sep`: what stands in front of the first separator is a piece.
* `pieces_append_local`: a place that no separator reaches across cuts the text into two
  texts of their own.
* `clean_of_mem_pieces`: no piece has a separator in it.
-/

namespace Text

variable {α : Type} (width : List α → Nat)

/-- `skip` elements of a separator are left out, and `piece` is the piece so far. -/
def piecesFrom : (skip : Nat) → (piece : List α) → List α → List (List α)
  | _, piece, [] => [piece]
  | skip + 1, piece, _ :: s => piecesFrom skip piece s
  | 0, piece, c :: s =>
      match width (c :: s) with
      | 0 => piecesFrom 0 (piece ++ [c]) s
      | n + 1 => piece :: piecesFrom n [] s

def pieces (s : List α) : List (List α) := piecesFrom width 0 [] s

/-- No separator starts in `s`, when `rest` follows it. -/
def CleanBefore (s rest : List α) : Prop := ∀ t, t ≠ [] → t <:+ s → width (t ++ rest) = 0

/-- No separator starts in `s`. -/
def Clean (s : List α) : Prop := CleanBefore width s []

variable {width} {s rest piece : List α}

@[simp] theorem piecesFrom_nil (skip : Nat) (piece : List α) :
    piecesFrom width skip piece [] = [piece] := by
  cases skip <;> rfl

theorem piecesFrom_of_width_zero {c : α} (h : width (c :: s) = 0) (piece : List α) :
    piecesFrom width 0 piece (c :: s) = piecesFrom width 0 (piece ++ [c]) s := by
  rw [piecesFrom, h]

theorem piecesFrom_of_width_succ {c : α} {n : Nat} (h : width (c :: s) = n + 1)
    (piece : List α) :
    piecesFrom width 0 piece (c :: s) = piece :: piecesFrom width n [] s := by
  rw [piecesFrom, h]

theorem piecesFrom_skip (sep : List α) (piece rest : List α) :
    piecesFrom width sep.length piece (sep ++ rest) = piecesFrom width 0 piece rest := by
  induction sep with
  | nil => rfl
  | cons c sep ih => exact ih

theorem cleanBefore_nil : CleanBefore width [] rest := by
  intro t hne ht
  exact absurd (List.suffix_nil.mp ht) hne

theorem cleanBefore_cons_iff {c : α} :
    CleanBefore width (c :: s) rest ↔ width (c :: s ++ rest) = 0 ∧ CleanBefore width s rest := by
  constructor
  · intro h
    exact ⟨h _ (List.cons_ne_nil c s) (List.suffix_refl _),
      fun t hne ht => h t hne (ht.trans (List.suffix_cons c s))⟩
  · rintro ⟨hhead, htail⟩ t hne ht
    rcases List.suffix_cons_iff.mp ht with rfl | ht
    · exact hhead
    · exact htail t hne ht

theorem cleanBefore_append_iff {t : List α} :
    CleanBefore width (s ++ t) rest ↔
      CleanBefore width s (t ++ rest) ∧ CleanBefore width t rest := by
  induction s with
  | nil => exact (and_iff_right cleanBefore_nil).symm
  | cons c s ih =>
      rw [List.cons_append, cleanBefore_cons_iff, cleanBefore_cons_iff, ih, and_assoc,
        List.cons_append, List.cons_append, List.append_assoc]

theorem clean_nil : Clean width [] := cleanBefore_nil

theorem clean_cons_iff {c : α} : Clean width (c :: s) ↔ width (c :: s) = 0 ∧ Clean width s := by
  unfold Clean
  rw [cleanBefore_cons_iff, List.append_nil]

/-! ## The first separator -/

/-- A clean part joins the piece. -/
theorem piecesFrom_append (h : CleanBefore width s rest) (piece : List α) :
    piecesFrom width 0 piece (s ++ rest) = piecesFrom width 0 (piece ++ s) rest := by
  induction s generalizing piece with
  | nil => rw [List.nil_append, List.append_nil]
  | cons c s ih =>
      obtain ⟨hhead, htail⟩ := cleanBefore_cons_iff.mp h
      rw [List.cons_append] at hhead
      rw [List.cons_append, piecesFrom_of_width_zero hhead, ih htail, List.append_assoc,
        List.singleton_append]

theorem pieces_of_clean (h : Clean width s) : pieces width s = [s] := by
  have hpieces := piecesFrom_append h []
  rwa [List.append_nil, piecesFrom_nil] at hpieces

theorem piecesFrom_sep {sep : List α} (hne : sep ≠ []) (hsep : width (sep ++ rest) = sep.length)
    (piece : List α) :
    piecesFrom width 0 piece (sep ++ rest) = piece :: pieces width rest := by
  cases sep with
  | nil => exact absurd rfl hne
  | cons c sep =>
      rw [List.cons_append, List.length_cons] at hsep
      rw [List.cons_append, piecesFrom_of_width_succ hsep, piecesFrom_skip]
      rfl

/-- What stands in front of the first separator is a piece. -/
theorem pieces_append_sep {sep : List α} (hne : sep ≠ []) (hsep : width (sep ++ rest) = sep.length)
    (h : CleanBefore width s (sep ++ rest)) :
    pieces width (s ++ (sep ++ rest)) = s :: pieces width rest := by
  rw [pieces, piecesFrom_append h, piecesFrom_sep hne hsep, List.nil_append]

/-! ## Places that no separator reaches across -/

/-- Each separator that starts in `s` lies in `s`, whether `rest` follows or not. -/
def Local (width : List α → Nat) (s rest : List α) : Prop :=
  ∀ t, t ≠ [] → t <:+ s → width (t ++ rest) = width t ∧ width t ≤ t.length

theorem piecesFrom_append_local {c : α} (hlocal : Local width s (c :: rest))
    (hsep : width (c :: rest) = 1) {skip : Nat} (hskip : skip ≤ s.length) (piece : List α) :
    piecesFrom width skip piece (s ++ c :: rest) =
      piecesFrom width skip piece s ++ pieces width rest := by
  induction s generalizing skip piece with
  | nil =>
      obtain rfl : skip = 0 := Nat.le_zero.mp hskip
      rw [List.nil_append, piecesFrom_of_width_succ hsep, piecesFrom_nil]
      rfl
  | cons d s ih =>
      have htail : Local width s (c :: rest) :=
        fun t hne ht => hlocal t hne (ht.trans (List.suffix_cons d s))
      obtain ⟨hwidth, hle⟩ := hlocal _ (List.cons_ne_nil d s) (List.suffix_refl _)
      rw [List.length_cons] at hle
      rw [List.cons_append] at hwidth
      cases skip with
      | succ skip => exact ih htail (Nat.le_of_succ_le_succ hskip) piece
      | zero =>
          cases hcase : width (d :: s) with
          | zero =>
              rw [List.cons_append, piecesFrom_of_width_zero (hwidth.trans hcase),
                piecesFrom_of_width_zero hcase, ih htail (Nat.zero_le _)]
          | succ n =>
              rw [List.cons_append, piecesFrom_of_width_succ (hwidth.trans hcase),
                piecesFrom_of_width_succ hcase, ih htail (by omega), List.cons_append]

/-- A separator of one element, at which the search certainly arrives, cuts the text. -/
theorem pieces_append_local {c : α} (hlocal : Local width s (c :: rest))
    (hsep : width (c :: rest) = 1) :
    pieces width (s ++ c :: rest) = pieces width s ++ pieces width rest :=
  piecesFrom_append_local hlocal hsep (Nat.zero_le _) []

/-! ## What the pieces look like -/

/-- The piece so far is the start of the first piece. -/
theorem exists_piecesFrom_eq_cons (width : List α → Nat) (skip : Nat) (piece s : List α) :
    ∃ first others, piecesFrom width skip piece s = first :: others ∧ piece <+: first := by
  induction s generalizing skip piece with
  | nil => exact ⟨piece, [], piecesFrom_nil skip piece, List.prefix_refl piece⟩
  | cons c s ih =>
      cases skip with
      | succ skip => exact ih skip piece
      | zero =>
          cases hcase : width (c :: s) with
          | zero =>
              obtain ⟨first, others, hpieces, hstart⟩ := ih 0 (piece ++ [c])
              refine ⟨first, others, ?_, (List.prefix_append piece [c]).trans hstart⟩
              rw [piecesFrom_of_width_zero hcase, hpieces]
          | succ n =>
              exact ⟨piece, _, piecesFrom_of_width_succ hcase piece, List.prefix_refl piece⟩

/-- A separator stays one if more text follows. -/
def Stable (width : List α → Nat) : Prop := ∀ s rest, width (s ++ rest) = 0 → width s = 0

theorem cleanBefore_concat {c : α} (h : CleanBefore width piece (c :: s))
    (hwidth : width (c :: s) = 0) : CleanBefore width (piece ++ [c]) s := by
  intro t hne ht
  rcases List.eq_nil_or_concat t with rfl | ⟨t', d, rfl⟩
  · exact absurd rfl hne
  · rw [List.concat_eq_append] at ht ⊢
    obtain ⟨front, hfront⟩ := ht
    rw [← List.append_assoc] at hfront
    obtain ⟨hinit, hlast⟩ := List.append_inj' hfront rfl
    rw [List.singleton_inj.mp hlast, List.append_assoc, List.singleton_append]
    cases t' with
    | nil => exact hwidth
    | cons e t' => exact h (e :: t') (List.cons_ne_nil e t') ⟨front, hinit⟩

/-- No piece has a separator in it. -/
theorem clean_of_mem_pieces (hstable : Stable width) {p : List α} (hp : p ∈ pieces width s) :
    Clean width p := by
  have hclean : ∀ {piece s : List α}, CleanBefore width piece s → Clean width piece := by
    intro piece s h t hne ht
    rw [List.append_nil]
    exact hstable t s (h t hne ht)
  -- while a separator is skipped the piece is empty, else no separator starts in it
  have hfrom : ∀ (s : List α) (skip : Nat) (piece : List α),
      (skip = 0 ∧ CleanBefore width piece s ∨ piece = []) →
        ∀ p ∈ piecesFrom width skip piece s, Clean width p := by
    intro s
    induction s with
    | nil =>
        intro skip piece hpiece p hp
        rw [piecesFrom_nil, List.mem_singleton] at hp
        subst hp
        rcases hpiece with ⟨-, h⟩ | rfl
        · exact hclean h
        · exact clean_nil
    | cons c s ih =>
        intro skip piece hpiece p hp
        cases skip with
        | succ skip =>
            rcases hpiece with ⟨hskip, -⟩ | rfl
            · cases hskip
            · exact ih skip [] (Or.inr rfl) p hp
        | zero =>
            have h : CleanBefore width piece (c :: s) := by
              rcases hpiece with ⟨-, h⟩ | rfl
              · exact h
              · exact cleanBefore_nil
            cases hcase : width (c :: s) with
            | zero =>
                rw [piecesFrom_of_width_zero hcase] at hp
                exact ih 0 _ (Or.inl ⟨rfl, cleanBefore_concat h hcase⟩) p hp
            | succ n =>
                rw [piecesFrom_of_width_succ hcase, List.mem_cons] at hp
                rcases hp with rfl | hp
                · exact hclean h
                · exact ih n [] (Or.inr rfl) p hp
  exact hfrom s 0 [] (Or.inr rfl) p hp

end Text
