import McKube.GoLib.File
import McKube.Text.Lines

/-!
# The line scanner

The monitor reads `/proc/self/mountinfo` with a scanner of its own.  `Scan` reads
4096 bytes at a time and seeks back to the end of the first line among them.  Its
loop has no bound; `fuel` bounds its rounds here, and the results say how much of it
is enough.

* `scan_line`, `scan_last`, `scan_end`: what one call of `Scan` does, by what is left
  of the file.
* `forScan_eq`: a loop over the scanner is a loop over the lines of the file.
* `scanTexts_eq_lines`: the texts are the lines, however the system splits reads.
-/

namespace McKube.Ebpf.Monitor

open GoLib GoLib.os

/-! ## The scanner -/

def newline : UInt8 := 10

/-- `Scanner`; `r` is the state of the open file. -/
structure Scanner (σ : Type) where
  r : σ
  buf : Bytes
  err : Option FileError
  deriving DecidableEq

/-- The length of `tmp`. -/
def tmpSize : Nat := 4096

namespace Scanner

variable {σ : Type}

/-- `NewScanner`. -/
def new (r : σ) : Scanner σ := { r := r, buf := [], err := none }

/-- `Text`. -/
def text (s : Scanner σ) : Bytes := s.buf

variable (file : File σ)

/-- The loop of `Scan`, for at most `fuel` rounds. -/
def scanLoop : (fuel : Nat) → Scanner σ → Option (Bool × Scanner σ)
  | 0, _ => none
  | fuel + 1, s =>
      match file.read tmpSize s.r with
      | ((tmp, err), r) =>
          -- an error that comes with bytes is not looked at
          if tmp ≠ [] then
            match bytes.indexByte tmp newline with
            | some idx =>
                match file.seek ((idx : Int) - tmp.length + 1) r with
                | (e, r) =>
                    some (true, { r := r, buf := s.buf ++ tmp.take idx, err := e.or s.err })
            | none => scanLoop fuel { s with r := r, buf := s.buf ++ tmp }
          else
            match err with
            | none => scanLoop fuel { s with r := r }
            | some .closed => some (false, { s with r := r })
            | some e =>
                if s.buf ≠ [] then some (true, { s with r := r })
                else some (false, { s with r := r, err := some e })

/-- `Scan`. -/
def scan (fuel : Nat) (s : Scanner σ) : Option (Bool × Scanner σ) :=
  scanLoop file fuel { s with buf := [] }

/-- `for sc.Scan() { ... }`, where the body works on a variable and may leave the loop. -/
def forScan {β : Type} (body : Bytes → β → ForInStep β) :
    (fuel : Nat) → β → Scanner σ → Option (β × Scanner σ)
  | 0, _, _ => none
  | fuel + 1, x, s =>
      match scan file fuel s with
      | none => none
      | some (false, s) => some (x, s)
      | some (true, s) =>
          match body s.text x with
          | .done x => some (x, s)
          | .yield x => forScan body fuel x s

/-- The texts of the scanner, until `Scan` returns false. -/
def scanTexts (fuel : Nat) (s : Scanner σ) : Option (List Bytes × Scanner σ) :=
  forScan file (fun text texts => .yield (texts ++ [text])) fuel [] s

end Scanner

/-! ## One round of the loop -/

namespace Scanner

section Rounds

variable {σ : Type} {file : File σ} {s : Scanner σ} {tmp : Bytes} {err : Option FileError} {r : σ}

/-- A newline is found, and the file goes back to the byte behind it. -/
theorem scanLoop_found {r' : σ} {idx : Nat} (fuel : Nat)
    (hread : file.read tmpSize s.r = ((tmp, err), r))
    (hidx : bytes.indexByte tmp newline = some idx)
    (hseek : file.seek ((idx : Int) - tmp.length + 1) r = (none, r')) :
    scanLoop file (fuel + 1) s = some (true, { s with r := r', buf := s.buf ++ tmp.take idx }) := by
  have htmp : tmp ≠ [] := by
    rintro rfl
    cases hidx
  simp [scanLoop, hread, htmp, hidx, hseek]

theorem scanLoop_missing (fuel : Nat) (hread : file.read tmpSize s.r = ((tmp, err), r))
    (htmp : tmp ≠ []) (hidx : bytes.indexByte tmp newline = none) :
    scanLoop file (fuel + 1) s = scanLoop file fuel { s with r := r, buf := s.buf ++ tmp } := by
  simp [scanLoop, hread, htmp, hidx]

theorem scanLoop_eof (fuel : Nat) (hread : file.read tmpSize s.r = (([], some .eof), r)) :
    scanLoop file (fuel + 1) s =
      if s.buf ≠ [] then some (true, { s with r := r })
      else some (false, { s with r := r, err := some .eof }) := by
  simp [scanLoop, hread]

end Rounds

/-! ## One call -/

variable {content : Bytes} (splitting : Splitting content) {s : Scanner Position} {fuel : Nat}

/-- The loop in front of a line: it ends behind the newline. -/
theorem scanLoop_line {line rest : Bytes} (hline : newline ∉ line)
    (hat : At content s.r (line ++ newline :: rest)) (hfuel : line.length < fuel) :
    ∃ r, At content r rest ∧ scanLoop (regular splitting) fuel s =
      some (true, { s with r := r, buf := s.buf ++ line }) := by
  induction fuel generalizing s line with
  | zero => omega
  | succ fuel ih =>
      obtain ⟨n, r, hpos, hle, hoffset, hat', hread⟩ :=
        regular_read splitting hat (show 0 < tmpSize by decide) (by simp)
      have hlength : (line ++ newline :: rest).length = line.length + (rest.length + 1) := by
        rw [List.length_append, List.length_cons]
      rcases Nat.lt_or_ge line.length n with hfound | hmissing
      · -- the newline is among the bytes of this read
        obtain ⟨m, rfl⟩ : ∃ m, n = line.length + (m + 1) := ⟨n - line.length - 1, by omega⟩
        have htmp : (line ++ newline :: rest).take (line.length + (m + 1)) =
            line ++ newline :: rest.take m := by
          rw [List.take_append, List.take_of_length_le (by omega), Nat.add_sub_cancel_left,
            List.take_succ_cons]
        have hback : (line.length : Int) - ((line ++ newline :: rest).take
              (line.length + (m + 1))).length + 1 =
            ((line.length + 1 : Nat) : Int) - ((line.length + (m + 1) : Nat) : Int) := by
          rw [List.length_take, Nat.min_eq_left hle]
          omega
        obtain ⟨r', hat'', hseek⟩ := regular_seek_back splitting (k := line.length + 1) hat hoffset
          (by omega) hle
        have hrest : (line ++ newline :: rest).drop (line.length + 1) = rest := by simp
        rw [hrest] at hat''
        rw [← hback, htmp] at hseek
        rw [htmp] at hread
        refine ⟨r', hat'', ?_⟩
        rw [scanLoop_found fuel hread (bytes.indexByte_append_cons hline _) hseek, List.take_left]
      · -- the line goes on behind this read
        have htake : (line ++ newline :: rest).take n = line.take n :=
          List.take_append_of_le_length hmissing
        have hdrop : (line ++ newline :: rest).drop n = line.drop n ++ newline :: rest :=
          List.drop_append_of_le_length hmissing
        have hne : line.take n ≠ [] := by
          rw [← List.length_pos_iff, List.length_take]
          omega
        have hnone : bytes.indexByte (line.take n) newline = none :=
          bytes.indexByte_of_not_mem fun hmem => hline (List.mem_of_mem_take hmem)
        rw [hdrop] at hat'
        rw [htake] at hread
        obtain ⟨r', hat'', hloop⟩ := ih (s := { s with r := r, buf := s.buf ++ line.take n })
          (fun hmem => hline (List.mem_of_mem_drop hmem)) hat' (by rw [List.length_drop]; omega)
        refine ⟨r', hat'', ?_⟩
        rw [scanLoop_missing fuel hread hne hnone, hloop, List.append_assoc, List.take_append_drop]

/-- The loop where no newline is left: it ends at the end of the file. -/
theorem scanLoop_end {rest : Bytes} (hrest : newline ∉ rest) (hat : At content s.r rest)
    (hfuel : rest.length < fuel) :
    ∃ r, At content r [] ∧ scanLoop (regular splitting) fuel s =
      if s.buf ++ rest ≠ [] then some (true, { s with r := r, buf := s.buf ++ rest })
      else some (false, { r := r, buf := [], err := some .eof }) := by
  induction fuel generalizing s rest with
  | zero => omega
  | succ fuel ih =>
      by_cases hne : rest = []
      · subst hne
        obtain ⟨r, hat', hread⟩ :=
          regular_read_end splitting hat (show 0 < tmpSize by decide)
        refine ⟨r, hat', ?_⟩
        rw [scanLoop_eof fuel hread, List.append_nil]
        by_cases hbuf : s.buf = []
        · rw [if_neg (not_not.mpr hbuf), if_neg (not_not.mpr hbuf), hbuf]
        · rw [if_pos hbuf, if_pos hbuf]
      · obtain ⟨n, r, hpos, hle, -, hat', hread⟩ :=
          regular_read splitting hat (show 0 < tmpSize by decide) hne
        have htmp : rest.take n ≠ [] := by
          rw [← List.length_pos_iff, List.length_take]
          omega
        have hnone : bytes.indexByte (rest.take n) newline = none :=
          bytes.indexByte_of_not_mem fun hmem => hrest (List.mem_of_mem_take hmem)
        obtain ⟨r', hat'', hloop⟩ := ih (s := { s with r := r, buf := s.buf ++ rest.take n })
          (fun hmem => hrest (List.mem_of_mem_drop hmem)) hat' (by rw [List.length_drop]; omega)
        refine ⟨r', hat'', ?_⟩
        rw [scanLoop_missing fuel hread htmp hnone, hloop, List.append_assoc,
          List.take_append_drop]

theorem scan_line {line rest : Bytes} (hline : newline ∉ line)
    (hat : At content s.r (line ++ newline :: rest)) (hfuel : line.length < fuel) :
    ∃ r, At content r rest ∧
      scan (regular splitting) fuel s = some (true, { s with r := r, buf := line }) :=
  scanLoop_line splitting (s := { s with buf := [] }) hline hat hfuel

theorem scan_last {line : Bytes} (hne : line ≠ []) (hline : newline ∉ line)
    (hat : At content s.r line) (hfuel : line.length < fuel) :
    ∃ r, At content r [] ∧
      scan (regular splitting) fuel s = some (true, { s with r := r, buf := line }) := by
  obtain ⟨r, hat', hloop⟩ := scanLoop_end splitting (s := { s with buf := [] }) hline hat hfuel
  refine ⟨r, hat', ?_⟩
  rw [scan, hloop, List.nil_append, if_pos hne]

theorem scan_end (hat : At content s.r []) (hfuel : 0 < fuel) :
    ∃ r, At content r [] ∧
      scan (regular splitting) fuel s = some (false, { r := r, buf := [], err := some .eof }) := by
  obtain ⟨r, hat', hloop⟩ :=
    scanLoop_end splitting (s := { s with buf := [] }) List.not_mem_nil hat hfuel
  refine ⟨r, hat', ?_⟩
  rw [scan, hloop, List.append_nil, if_neg (not_not.mpr rfl)]

/-! ## Loops over the scanner -/

variable {β : Type} (body : Bytes → β → ForInStep β)

/-- The body of a loop on the lines of a file, until it leaves the loop. -/
def visitLines : List Bytes → β → ForInStep β
  | [], x => .yield x
  | line :: ls, x =>
      match body line x with
      | .done x => .done x
      | .yield x => visitLines ls x

/-- A loop over the scanner visits the lines of what is left of the file.  If its body
does not leave it, it ends at the end of the file. -/
theorem forScan_eq {rest : Bytes} (hat : At content s.r rest) (hfuel : rest.length + 1 < fuel)
    (x : β) :
    ∃ s', forScan (regular splitting) body fuel x s =
        some ((visitLines body (Text.lines newline rest) x).value, s') ∧
      ∀ y, visitLines body (Text.lines newline rest) x = .yield y → s'.err = some .eof := by
  induction rest using Text.line_induction newline generalizing s fuel x with
  | nil =>
      obtain ⟨fuel, rfl⟩ : ∃ n, fuel = n + 1 := ⟨fuel - 1, by omega⟩
      obtain ⟨r, -, hscan⟩ := scan_end splitting hat (show 0 < fuel by omega)
      refine ⟨{ r := r, buf := [], err := some .eof }, ?_, fun _ _ => rfl⟩
      rw [forScan, hscan, Text.lines_nil]
      rfl
  | last line hne hline =>
      obtain ⟨fuel, rfl⟩ : ∃ n, fuel = n + 2 := ⟨fuel - 2, by omega⟩
      obtain ⟨r, hat', hscan⟩ :=
        scan_last splitting hne hline hat (show line.length < fuel + 1 by omega)
      rw [forScan, hscan, Text.lines_of_not_mem hne hline]
      dsimp only [text, visitLines]
      cases body line x with
      | done y => exact ⟨_, rfl, fun y hy => by cases hy⟩
      | yield y =>
          have hpos : 0 < line.length := List.length_pos_of_ne_nil hne
          obtain ⟨r', -, hscan'⟩ := scan_end splitting (s := { s with r := r, buf := line }) hat'
            (show 0 < fuel by omega)
          refine ⟨{ r := r', buf := [], err := some .eof }, ?_, fun _ _ => rfl⟩
          dsimp only
          rw [forScan, hscan']
          rfl
  | line line rest hline ih =>
      obtain ⟨fuel, rfl⟩ : ∃ n, fuel = n + 1 := ⟨fuel - 1, by omega⟩
      rw [List.length_append, List.length_cons] at hfuel
      obtain ⟨r, hat', hscan⟩ :=
        scan_line splitting hline hat (show line.length < fuel by omega)
      rw [forScan, hscan, Text.lines_append_cons hline]
      dsimp only [text, visitLines]
      cases body line x with
      | done y => exact ⟨_, rfl, fun y hy => by cases hy⟩
      | yield y => exact ih (s := { s with r := r, buf := line }) hat' (by omega) y

theorem visitLines_collect (ls texts : List Bytes) :
    visitLines (fun text texts => .yield (texts ++ [text])) ls texts = .yield (texts ++ ls) := by
  induction ls generalizing texts with
  | nil => simp [visitLines]
  | cons line ls ih => simp [visitLines, ih]

/-- The texts are the lines of the file, in whatever pieces the system returns it. -/
theorem scanTexts_eq_lines (content : Bytes) (splitting : Splitting content) (fuel : Nat)
    (hfuel : content.length + 1 < fuel) :
    ∃ s, scanTexts (regular splitting) fuel (new ⟨0, 0⟩) = some (Text.lines newline content, s) ∧
      s.err = some .eof := by
  obtain ⟨s, hloop, hend⟩ := forScan_eq splitting
    (fun text texts => .yield (texts ++ [text])) (s := new ⟨0, 0⟩) At.start hfuel []
  rw [visitLines_collect] at hloop hend
  exact ⟨s, hloop, hend _ rfl⟩

/-- No byte of the file is lost, and none is read twice: the texts, with a newline behind each
of them, are the file, in which the last newline may be missing. -/
theorem unlines_scanTexts (content : Bytes) (splitting : Splitting content) (fuel : Nat)
    (hfuel : content.length + 1 < fuel) :
    ∃ texts s, scanTexts (regular splitting) fuel (new ⟨0, 0⟩) = some (texts, s) ∧
      (∀ text ∈ texts, newline ∉ text) ∧
      Text.unlines newline texts =
        if Text.Ended newline content then content else content ++ [newline] := by
  obtain ⟨s, hloop, -⟩ := forScan_eq splitting
    (fun text texts => .yield (texts ++ [text])) (s := new ⟨0, 0⟩) At.start hfuel []
  rw [visitLines_collect] at hloop
  exact ⟨_, s, hloop, fun _ => Text.not_mem_of_mem_lines, Text.unlines_lines content⟩

/-- Reads of one byte. -/
def byteByByte (content : Bytes) : Splitting content where
  size space offset _ := min 1 (min space (content.length - offset))
  le_space := by omega
  le_rest := by omega
  pos := by omega

/-- `a`, an empty line, and `b` without a newline. -/
theorem scanTexts_eq_lines_sample :
    ∃ s, scanTexts (regular (byteByByte [97, 10, 10, 98])) 6 (new ⟨0, 0⟩) =
        some ([[97], [], [98]], s) ∧ s.err = some .eof :=
  scanTexts_eq_lines [97, 10, 10, 98] (byteByByte _) 6 (by decide)

end Scanner

end McKube.Ebpf.Monitor
