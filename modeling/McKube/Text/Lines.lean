import Mathlib.Data.List.Basic
import Mathlib.Tactic.Common

/-!
# Lines of a text

A text over any alphabet is cut into lines at each newline.  What follows the last
newline is a line as well, unless it is empty.

* `line_induction`: a text is empty, one line without a newline, or a line in front
  of a shorter text.
* `lines_unlines`, `unlines_lines`: lines and texts that end in a newline are the
  same thing.
-/

namespace Text

variable {α : Type} {newline : α}

section Unlines

/-- The text in which every line ends in a newline. -/
def unlines (newline : α) (ls : List (List α)) : List α := ls.flatMap fun line => line ++ [newline]

@[simp] theorem unlines_nil : unlines newline [] = [] := rfl

@[simp] theorem unlines_cons (line : List α) (ls : List (List α)) :
    unlines newline (line :: ls) = line ++ newline :: unlines newline ls := by
  simp [unlines]

end Unlines

variable [DecidableEq α]

def lines (newline : α) (text : List α) : List (List α) :=
  let pieces := text.splitOn newline
  if pieces.getLast? = some [] then pieces.dropLast else pieces

/-- Nothing stands behind the last newline of the text. -/
def Ended (newline : α) (text : List α) : Prop := text = [] ∨ text.getLast? = some newline

instance (newline : α) (text : List α) : Decidable (Ended newline text) :=
  inferInstanceAs (Decidable (_ ∨ _))

@[simp] theorem lines_nil : lines newline [] = [] := by
  simp [lines]

theorem lines_append_cons {line : List α} (hline : newline ∉ line) (rest : List α) :
    lines newline (line ++ newline :: rest) = line :: lines newline rest := by
  have hne : rest.splitOn newline ≠ [] := List.splitOn_ne_nil newline rest
  unfold lines
  dsimp only
  rw [List.splitOn_append_cons_self_of_not_mem hline, List.getLast?_cons_of_ne_nil hne,
    List.dropLast_cons_of_ne_nil hne]
  split
  · rfl
  · rfl

theorem lines_of_not_mem {line : List α} (hne : line ≠ []) (hline : newline ∉ line) :
    lines newline line = [line] := by
  unfold lines
  rw [List.splitOn_eq_singleton hline]
  simp [hne]

/-- The first newline of a text that has one. -/
theorem exists_line_of_mem {text : List α} (h : newline ∈ text) :
    ∃ line rest, newline ∉ line ∧ text = line ++ newline :: rest := by
  induction text with
  | nil => cases h
  | cons c text ih =>
      by_cases hc : c = newline
      · exact ⟨[], text, List.not_mem_nil, by rw [hc, List.nil_append]⟩
      · have hmem : newline ∈ text := by
          rcases List.mem_cons.mp h with heq | hmem
          · exact absurd heq.symm hc
          · exact hmem
        obtain ⟨line, rest, hline, rfl⟩ := ih hmem
        refine ⟨c :: line, rest, ?_, rfl⟩
        rw [List.mem_cons, not_or]
        exact ⟨Ne.symm hc, hline⟩

/-- Induction on the lines of a text. -/
theorem line_induction (newline : α) {motive : List α → Prop} (nil : motive [])
    (last : ∀ line, line ≠ [] → newline ∉ line → motive line)
    (line : ∀ line rest, newline ∉ line → motive rest → motive (line ++ newline :: rest))
    (text : List α) : motive text := by
  induction hlength : text.length using Nat.strongRecOn generalizing text with
  | _ n ih =>
      by_cases hmem : newline ∈ text
      · obtain ⟨first, rest, hfirst, rfl⟩ := exists_line_of_mem hmem
        refine line first rest hfirst (ih rest.length ?_ rest rfl)
        rw [← hlength, List.length_append, List.length_cons]
        omega
      · by_cases hne : text = []
        · rw [hne]
          exact nil
        · exact last text hne hmem

theorem not_mem_of_mem_lines {text line : List α} (hline : line ∈ lines newline text) :
    newline ∉ line := by
  induction text using line_induction newline with
  | nil => simp at hline
  | last text hne htext =>
      rw [lines_of_not_mem hne htext, List.mem_singleton] at hline
      rwa [hline]
  | line first rest hfirst ih =>
      rw [lines_append_cons hfirst] at hline
      rcases List.mem_cons.mp hline with rfl | hrest
      · exact hfirst
      · exact ih hrest

/-- Lines that are written with a newline each are read back. -/
theorem lines_unlines {ls : List (List α)} (hls : ∀ line ∈ ls, newline ∉ line) :
    lines newline (unlines newline ls) = ls := by
  induction ls with
  | nil => simp
  | cons line ls ih =>
      rw [unlines_cons, lines_append_cons (hls line List.mem_cons_self),
        ih fun other hother => hls other (List.mem_cons_of_mem line hother)]

/-- The lines are the whole text, with a newline after the last one of them. -/
theorem unlines_lines (text : List α) :
    unlines newline (lines newline text) =
      if Ended newline text then text else text ++ [newline] := by
  induction text using line_induction newline with
  | nil => simp [Ended]
  | last text hne htext =>
      have hended : ¬ Ended newline text := by
        rintro (rfl | hlast)
        · exact hne rfl
        · exact htext (List.mem_of_getLast? hlast)
      rw [lines_of_not_mem hne htext, if_neg hended]
      simp
  | line first rest hfirst ih =>
      have hended : Ended newline (first ++ newline :: rest) ↔ Ended newline rest := by
        unfold Ended
        cases rest with
        | nil => simp
        | cons c rest => simp [List.getLast?_append, List.getLast?_cons_cons]
      rw [lines_append_cons hfirst, unlines_cons, ih]
      by_cases hrest : Ended newline rest
      · rw [if_pos hrest, if_pos (hended.mpr hrest)]
      · rw [if_neg hrest, if_neg (fun h => hrest (hended.mp h)), List.append_assoc, List.cons_append]

end Text
