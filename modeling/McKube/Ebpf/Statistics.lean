import McKube.GoLib.Strconv
import McKube.GoLib.Tally
import McKube.Text.Lines

/-!
# The statistics file

When the agent is interrupted it writes its counters to a file: six lines of header, a
rule, and a line for each container, the largest counter first.

* `lines_saveStats`: the lines of the file.
-/

namespace McKube.Ebpf.Monitor

open GoLib

/-! ## Time stamps -/

structure DateTime where
  year : Nat
  month : Nat
  day : Nat
  hour : Nat
  minute : Nat
  second : Nat

/-- A number with zeros in front. -/
def padded (width n : Nat) : GoString := (Nat.toDigits 10 n).leftpad width '0'

/-- The layout `2006-01-02 15:04:05`. -/
def DateTime.text (t : DateTime) : GoString :=
  padded 4 t.year ++ '-' :: (padded 2 t.month ++ '-' :: (padded 2 t.day ++ ' ' ::
    (padded 2 t.hour ++ ':' :: (padded 2 t.minute ++ ':' :: padded 2 t.second))))

theorem isDigit_of_mem_padded {width n : Nat} {c : Char} (hc : c ∈ padded width n) :
    c.isDigit = true := by
  rcases List.mem_append.mp hc with hzero | hdigit
  · rw [List.eq_of_mem_replicate hzero]
    decide
  · exact Nat.isDigit_of_mem_toDigits (by decide) (by decide) hdigit

theorem not_mem_padded {width n : Nat} {c : Char} (hc : c.isDigit = false) :
    c ∉ padded width n := by
  intro hmem
  rw [isDigit_of_mem_padded hmem] at hc
  cases hc

theorem DateTime.newline_not_mem_text (t : DateTime) : '\n' ∉ t.text := by
  have hpadded : ∀ width n, '\n' ∉ padded width n := fun _ _ => not_mem_padded (by decide)
  simp [text, hpadded]

/-! ## The file -/

structure ContainerStat where
  cid : GoString
  count : Int64
  deriving DecidableEq

/-- The slice `stats` after `sort.Slice`: the entries of the map in any order in which
the counters do not grow. -/
structure SortedStats (overrunCount : Tally GoString) (stats : List ContainerStat) : Prop where
  perm : stats.Perm (overrunCount.keys.map fun cid => ⟨cid, overrunCount.get cid⟩)
  sorted : stats.Pairwise fun stat next => next.count ≤ stat.count

def rule : GoString := "============================================================"

def ContainerStat.line (stat : ContainerStat) : GoString :=
  stat.cid ++ '\t' :: itoa stat.count.toInt

/-- The line with the total. -/
def totalOverruns (totalCnt : Int64) : GoString :=
  ("Total Overruns: " : GoString) ++ itoa totalCnt.toInt

/-- The text that `saveStats` writes: `size` is `len(overrunCount)`, and `stats` is the
sorted slice. -/
def saveStats (now : DateTime) (totalCnt size : Int64) (stats : List ContainerStat) : GoString :=
  ("=== HCBS Overrun Statistics ===" : GoString) ++ ['\n'] ++
    (("Timestamp: " : GoString) ++ now.text ++ ['\n']) ++
    (totalOverruns totalCnt ++ ['\n']) ++
    (("Unique Containers: " : GoString) ++ itoa size.toInt ++ ['\n', '\n']) ++
    (("Container ID\t\t\t\t\t\tOverrun Count" : GoString) ++ ['\n']) ++
    (rule ++ ['\n']) ++
    stats.flatMap fun stat => stat.line ++ ['\n']

/-- The lines above the rule. -/
def statsHeader (now : DateTime) (totalCnt size : Int64) : List GoString :=
  ["=== HCBS Overrun Statistics ===",
    ("Timestamp: " : GoString) ++ now.text,
    totalOverruns totalCnt,
    ("Unique Containers: " : GoString) ++ itoa size.toInt,
    [],
    "Container ID\t\t\t\t\t\tOverrun Count"]

theorem saveStats_eq (now : DateTime) (totalCnt size : Int64) (stats : List ContainerStat) :
    saveStats now totalCnt size stats =
      Text.unlines '\n'
        (statsHeader now totalCnt size ++ (rule :: stats.map ContainerStat.line)) := by
  have hstats : Text.unlines '\n' (stats.map ContainerStat.line) =
      stats.flatMap fun stat => stat.line ++ ['\n'] := by
    rw [Text.unlines, List.flatMap_map]
  unfold saveStats statsHeader
  rw [← hstats]
  simp only [Text.unlines_cons, List.append_assoc, List.cons_append, List.nil_append]

theorem isDigit_or_sign_of_mem_itoa {n : Int} {c : Char} (hc : c ∈ itoa n) : c.isDigit = true ∨ c = '-' := by
  cases n with
  | ofNat n => exact Or.inl (Nat.isDigit_of_mem_toDigits (by decide) (by decide) hc)
  | negSucc n =>
      rcases List.mem_cons.mp hc with rfl | hdigit
      · exact Or.inr rfl
      · exact Or.inl (Nat.isDigit_of_mem_toDigits (by decide) (by decide) hdigit)

theorem not_mem_itoa_int {n : Int} {c : Char} (hdigit : c.isDigit = false) (hc : c ≠ '-') :
    c ∉ itoa n := by
  intro hmem
  rcases isDigit_or_sign_of_mem_itoa hmem with htrue | hsign
  · rw [htrue] at hdigit
    cases hdigit
  · exact hc hsign

theorem newline_not_mem_statsHeader (now : DateTime) (totalCnt size : Int64) :
    ∀ line ∈ statsHeader now totalCnt size, '\n' ∉ line := by
  have hnumber : ∀ n : Int, '\n' ∉ itoa n := fun n => not_mem_itoa_int (by decide) (by decide)
  have hnow := now.newline_not_mem_text
  have happend : ∀ s t : GoString, '\n' ∉ s → '\n' ∉ t → '\n' ∉ s ++ t := by
    intro s t hs ht hmem
    exact (List.mem_append.mp hmem).elim hs ht
  unfold statsHeader totalOverruns
  simp only [List.forall_mem_cons]
  refine ⟨by decide, ?_, ?_, ?_, List.not_mem_nil, by decide, List.forall_mem_nil _⟩
  · exact happend _ _ (by decide) hnow
  · exact happend _ _ (by decide) (hnumber _)
  · exact happend _ _ (by decide) (hnumber _)

theorem ContainerStat.newline_not_mem_line {stat : ContainerStat} (hcid : '\n' ∉ stat.cid) :
    '\n' ∉ stat.line := by
  rw [line, List.mem_append, List.mem_cons, not_or, not_or]
  exact ⟨hcid, by decide, not_mem_itoa_int (by decide) (by decide)⟩

theorem newline_not_mem_statsLines {stats : List ContainerStat}
    (hcids : ∀ stat ∈ stats, '\n' ∉ stat.cid) :
    ∀ line ∈ rule :: stats.map ContainerStat.line, '\n' ∉ line := by
  intro line hline
  rcases List.mem_cons.mp hline with rfl | hmem
  · decide
  · obtain ⟨stat, hstat, rfl⟩ := List.mem_map.mp hmem
    exact ContainerStat.newline_not_mem_line (hcids stat hstat)

theorem lines_saveStats (now : DateTime) (totalCnt size : Int64) {stats : List ContainerStat}
    (hcids : ∀ stat ∈ stats, '\n' ∉ stat.cid) :
    Text.lines '\n' (saveStats now totalCnt size stats) =
      statsHeader now totalCnt size ++ (rule :: stats.map ContainerStat.line) := by
  rw [saveStats_eq]
  apply Text.lines_unlines
  intro line hline
  rcases List.mem_append.mp hline with hheader | hstats
  · exact newline_not_mem_statsHeader now totalCnt size line hheader
  · exact newline_not_mem_statsLines hcids line hstats

end McKube.Ebpf.Monitor
