import McKube.GoLib.Strings
import McKube.Text.Lines
import Mathlib.Logic.Function.Iterate

/-!
# Text in shell scripts

What `head`, `tail`, a command substitution and the builtin `read` of bash make of a
text.  `IFS` is a single character here; a blank and any other character behave
differently in it.

* `capture_head1_unlines`: the first line of an output.
* `tailFrom_unlines`, `readLines_unlines`: the lines that a loop reads from a file.
* `nextWord_append_cons`, `lastWord_of_not_mem`: the words of a line.
-/

namespace Shell

open GoLib

/-! ## Lines -/

/-- `head -1`. -/
def head1 (text : GoString) : GoString :=
  text.takeWhile (· ≠ '\n') ++ (text.dropWhile (· ≠ '\n')).take 1

/-- `$(…)`, which drops the newlines at the end of the output. -/
def capture (output : GoString) : GoString := output.rdropWhile (· = '\n')

def dropLine (text : GoString) : GoString := (text.dropWhile (· ≠ '\n')).tail

/-- `tail -n +k`, which starts with line `k`. -/
def tailFrom (k : Nat) (text : GoString) : GoString := dropLine^[k - 1] text

/-- The lines for which `while read` runs its body.  `read` fails on a last line that has
no newline. -/
def readLines (text : GoString) : List GoString := (text.splitOn '\n').dropLast

section Separator

variable {sep : Char} {s : GoString}

theorem forall_ne_of_not_mem (hs : sep ∉ s) : ∀ c ∈ s, decide (c ≠ sep) = true := by
  intro c hc
  exact decide_eq_true (ne_of_mem_of_not_mem hc hs)

theorem takeWhile_append_cons (hs : sep ∉ s) (rest : GoString) :
    (s ++ sep :: rest).takeWhile (· ≠ sep) = s := by
  rw [List.takeWhile_append_of_pos (forall_ne_of_not_mem hs)]
  simp

theorem dropWhile_append_cons (hs : sep ∉ s) (rest : GoString) :
    (s ++ sep :: rest).dropWhile (· ≠ sep) = sep :: rest := by
  rw [List.dropWhile_append_of_pos (forall_ne_of_not_mem hs)]
  simp

end Separator

theorem capture_line {line : GoString} (hline : '\n' ∉ line) : capture (line ++ ['\n']) = line := by
  have hkeep : line.rdropWhile (· = '\n') = line := by
    rw [List.rdropWhile_eq_self_iff]
    intro hne hlast
    exact hline (of_decide_eq_true hlast ▸ List.getLast_mem hne)
  rw [capture, List.rdropWhile_concat_pos _ _ _ (by decide), hkeep]

/-- What `$(… | head -1)` is for an output of lines. -/
theorem capture_head1_unlines {ls : List GoString} (hls : ∀ line ∈ ls, '\n' ∉ line) :
    capture (head1 (Text.unlines '\n' ls)) = ls.head?.getD [] := by
  cases ls with
  | nil => rfl
  | cons line ls =>
      have hline : '\n' ∉ line := hls line List.mem_cons_self
      rw [Text.unlines_cons, head1, takeWhile_append_cons hline, dropWhile_append_cons hline]
      exact capture_line hline

theorem tailFrom_unlines {header : List GoString} (hheader : ∀ line ∈ header, '\n' ∉ line)
    (ls : List GoString) :
    tailFrom (header.length + 1) (Text.unlines '\n' (header ++ ls)) = Text.unlines '\n' ls := by
  show dropLine^[header.length] _ = _
  induction header with
  | nil => rfl
  | cons line header ih =>
      have hline : '\n' ∉ line := hheader line List.mem_cons_self
      rw [List.cons_append, Text.unlines_cons, List.length_cons, Function.iterate_succ_apply,
        dropLine, dropWhile_append_cons hline, List.tail_cons]
      exact ih fun other hother => hheader other (List.mem_cons_of_mem line hother)

theorem readLines_unlines {ls : List GoString} (hls : ∀ line ∈ ls, '\n' ∉ line) :
    readLines (Text.unlines '\n' ls) = ls := by
  induction ls with
  | nil => simp [readLines]
  | cons line ls ih =>
      have hne : (Text.unlines '\n' ls).splitOn '\n' ≠ [] := List.splitOn_ne_nil _ _
      have hrest := ih fun other hother => hls other (List.mem_cons_of_mem line hother)
      rw [Text.unlines_cons, readLines,
        List.splitOn_append_cons_self_of_not_mem (hls line List.mem_cons_self),
        List.dropLast_cons_of_ne_nil hne]
      rw [readLines] at hrest
      rw [hrest]

/-! ## Words -/

/-- The characters that are white space in `IFS`. -/
def isBlank (c : Char) : Bool := c = ' ' || c = '\t' || c = '\n'

/-- Separators at the start of a text are skipped if they are white space. -/
def skip (ifs : Char) (s : GoString) : GoString :=
  if isBlank ifs then s.dropWhile (· = ifs) else s

/-- The first word, and what is left behind the separator. -/
def nextWord (ifs : Char) (s : GoString) : GoString × GoString :=
  let s := skip ifs s
  (s.takeWhile (· ≠ ifs), skip ifs (s.dropWhile (· ≠ ifs)).tail)

/-- What the last variable of `read` gets: the word, if it is the last one, and otherwise
all that is left. -/
def lastWord (ifs : Char) (s : GoString) : GoString :=
  let s := skip ifs s
  let next := nextWord ifs s
  if next.2 = [] then next.1 else if isBlank ifs then s.rdropWhile (· = ifs) else s

/-- `IFS=… read -r` with three variables. -/
def read3 (ifs : Char) (line : GoString) : GoString × GoString × GoString :=
  let first := nextWord ifs line
  let second := nextWord ifs first.2
  (first.1, second.1, lastWord ifs second.2)

variable {ifs : Char}

/-- Nothing is skipped at the start of the text. -/
def Flush (ifs : Char) (s : GoString) : Prop := isBlank ifs = false ∨ s.head? ≠ some ifs

theorem flush_of_not_mem {s : GoString} (hs : ifs ∉ s) : Flush ifs s := by
  refine Or.inr fun hhead => ?_
  exact hs (List.mem_of_head? hhead)

theorem skip_of_flush {s : GoString} (h : Flush ifs s) : skip ifs s = s := by
  rcases h with hblank | hhead
  · simp [skip, hblank]
  · cases s with
    | nil => simp [skip]
    | cons c s =>
        have hc : c ≠ ifs := fun heq => hhead (by rw [heq, List.head?_cons])
        simp [skip, hc]

theorem nextWord_append_cons {s t : GoString} (hs : ifs ∉ s) (hstart : Flush ifs (s ++ ifs :: t))
    (ht : Flush ifs t) : nextWord ifs (s ++ ifs :: t) = (s, t) := by
  rw [nextWord, skip_of_flush hstart, takeWhile_append_cons hs, dropWhile_append_cons hs,
    List.tail_cons, skip_of_flush ht]

theorem nextWord_of_not_mem {s : GoString} (hs : ifs ∉ s) : nextWord ifs s = (s, []) := by
  have hall := forall_ne_of_not_mem hs
  rw [nextWord, skip_of_flush (flush_of_not_mem hs), List.takeWhile_eq_self_iff.mpr hall,
    List.dropWhile_eq_nil_iff.mpr hall]
  simp [skip]

theorem lastWord_of_not_mem {s : GoString} (hs : ifs ∉ s) : lastWord ifs s = s := by
  rw [lastWord, skip_of_flush (flush_of_not_mem hs), nextWord_of_not_mem hs]
  rfl

end Shell
