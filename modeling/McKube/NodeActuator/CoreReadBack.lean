import McKube.NodeActuator.FileTargets
import McKube.NodeActuator.Preflight

/-!
# Reading back the runtime of a core list

`writeRuntimeFile` passes the core list through to the kernel, which takes it as
a list of CPUs.  `getCurrentMultiRuntime` takes it as the index of one CPU, and
answers `0` for everything else.

* `multiRuntimeOf_setSlots`: what the reader makes of the slots of the writer.
* `readBack_iff`: for which core lists the reader finds what was written.
-/

namespace McKube
namespace NodeActuator

open AtomicProgram GoLib
open GoLib.filepath (join components rootPath Plain)

/-! ## Core lists -/

/-- A core list with a sign in front of its first number is malformed. -/
theorem parseIndex_ne_none_of_atoi {core : GoString} {named : List Nat} {n : Int}
    (hcore : cpuList core = some named) (hn : atoi core = some n) : parseIndex core ≠ none := by
  intro hindex
  obtain ⟨sign, digits, hsign, rfl, hdigits⟩ := exists_sign_of_atoi hn hindex
  have hnot : ∀ c : Char, c.isDigit = false → c ∉ digits := by
    intro c hc hmem
    rw [List.all_eq_true.mp hdigits c hmem] at hc
    cases hc
  have hcomma : ',' ∉ sign :: digits := by
    rw [List.mem_cons, not_or]
    refine ⟨?_, hnot ',' (by decide)⟩
    rcases hsign with rfl | rfl <;> decide
  have hrange : cpuRange (sign :: digits) = none := by
    unfold cpuRange
    rcases hsign with rfl | rfl
    · -- the sign is taken for the dash of a range without a start
      have hsplit : split ('-' :: digits) '-' = [[], digits] := by
        have happend := split_append_cons [] digits '-'
        rw [split_eq_singleton (hnot '-' (by decide))] at happend
        exact happend
      rw [hsplit]
      rfl
    · have hdash : '-' ∉ '+' :: digits := by
        rw [List.mem_cons, not_or]
        exact ⟨by decide, hnot '-' (by decide)⟩
      rw [split_eq_singleton hdash]
      simp only [hindex, Option.map_none]
  rw [cpuList, split_eq_singleton hcomma] at hcore
  simp [hrange] at hcore

/-- A single index names that CPU. -/
theorem cpuList_of_parseIndex {core : GoString} {i : Nat} (h : parseIndex core = some i) :
    cpuList core = some [i] := by
  have hdigits : core.all Char.isDigit = true := by
    unfold parseIndex at h
    split at h
    · rename_i hs
      exact hs.2
    · cases h
  have hnot : ∀ c : Char, c.isDigit = false → c ∉ core := by
    intro c hc hmem
    rw [List.all_eq_true.mp hdigits c hmem] at hc
    cases hc
  have hrange : cpuRange core = some [i] := by
    unfold cpuRange
    rw [split_eq_singleton (hnot '-' (by decide))]
    simp only [h, Option.map_some]
  rw [cpuList, split_eq_singleton (hnot ',' (by decide))]
  simp [hrange]

/-! ## The reader -/

/-- The core list is the index of one CPU, as far as Go's `int` reaches. -/
def IsIndex (core : GoString) : Prop := ∃ i, parseIndex core = some i ∧ InInt i

/-- The reader finds the runtime of an index, and `0` for every other list. -/
theorem multiRuntimeOf_setSlots {core content : GoString} {named : List Nat}
    {slots : List GoString} {r : Int} (hr : InInt r) (hcore : cpuList core = some named)
    (hnamed : ∀ i ∈ named, i < slots.length)
    (hcontent : fields content = setSlots named (itoa r) slots) :
    multiRuntimeOf content core = r ↔ r = 0 ∨ IsIndex core := by
  unfold multiRuntimeOf
  rw [fields_trimSpace, hcontent]
  dsimp only
  cases hindex : parseIndex core with
  | none =>
      have hatoi : atoi core = none := by
        cases hn : atoi core with
        | none => rfl
        | some n => exact absurd hindex (parseIndex_ne_none_of_atoi hcore hn)
      have hnot : ¬ IsIndex core := by
        rintro ⟨i, hi, -⟩
        rw [hindex] at hi
        cases hi
      rw [hatoi, or_iff_left hnot]
      exact eq_comm
  | some i =>
      obtain rfl : named = [i] := by
        rw [cpuList_of_parseIndex hindex, Option.some.injEq] at hcore
        exact hcore.symm
      have hlt : i < slots.length := hnamed i (List.mem_singleton_self i)
      by_cases hint : InInt i
      · have hatoi : atoi core = some (i : Int) := by rw [atoi_of_parseIndex hindex, if_pos hint]
        have hslot : (setSlots [i] (itoa r) slots)[i]? = some (itoa r) := by
          rw [getElem?_setSlots, List.getElem?_eq_getElem hlt, Option.map_some,
            if_pos (List.mem_singleton_self i)]
        have hbound : ¬ ((i : Int) < 0 ∨ (i : Int) ≥ (setSlots [i] (itoa r) slots).length) := by
          rw [length_setSlots]
          omega
        simp only [hatoi, if_neg hbound, Int.toNat_natCast, hslot, Option.bind_some, atoi_itoa hr,
          true_iff]
        exact Or.inr ⟨i, hindex, hint⟩
      · -- an index beyond `int` is no index for the reader
        have hatoi : atoi core = none := by rw [atoi_of_parseIndex hindex, if_neg hint]
        have hnot : ¬ IsIndex core := by
          rintro ⟨i', hi', hint'⟩
          rw [hindex, Option.some.injEq] at hi'
          exact hint (hi' ▸ hint')
        rw [hatoi, or_iff_left hnot]
        exact eq_comm

section Runs

variable {k : Kernel} {files files' : Files} {cgPath core : GoString}

theorem run_getCurrentMultiRuntime :
    Program.run k.exec (getCurrentMultiRuntime cgPath core).run files =
      (.ok (multiRuntimeAt files cgPath (some core)), files) :=
  run_readMultiRuntime (some core)

/-- A call of `writeCgroupFile` that returns no error is an accepted write. -/
theorem write_of_run_writeCgroupFile {path value : GoString}
    (h : Program.run k.exec (writeCgroupFile path value).run files = (.ok (), files')) :
    k.write files path value = .ok files' := by
  unfold writeCgroupFile at h
  rw [ExceptT.run_mk, Program.run_act] at h
  cases hwrite : k.write files path value with
  | error failure =>
      simp only [Kernel.exec, hwrite] at h
      cases failure <;> cases congrArg Prod.fst h
  | ok files'' =>
      simp only [Kernel.exec, hwrite] at h
      exact congrArg Except.ok (congrArg Prod.snd h)

/-- After a successful write of the runtime `r` for a core list, the reader
returns `r` for the same list iff the list is one index, or `r` is zero. -/
theorem readBack_iff {named : List Nat} {r : Int} (hrooted : Rooted cgPath) (hr : InInt r)
    (hcore : cpuList core = some named) (hkernel : k.cpulist core = cpuList core)
    (hwrite : Program.run k.exec (writeRuntimeFile cgPath r (some core)).run files =
      (.ok (), files')) :
    Program.run k.exec (getCurrentMultiRuntime cgPath core).run files' = (.ok r, files') ↔
      r = 0 ∨ IsIndex core := by
  obtain ⟨old, new, -, hstored, rfl⟩ := k.write_eq_ok (write_of_run_writeCgroupFile hwrite)
  rw [k.stored_multiRuntime hrooted] at hstored
  obtain ⟨named', hnamed', hbound, hfields⟩ := k.multiRuntime_eq_some hstored
  obtain rfl : named = named' := by
    rw [hkernel, hcore, Option.some.injEq] at hnamed'
    exact hnamed'
  have hread : multiRuntimeAt (Function.update files (join [cgPath, cgroupRTMultiRuntime]) (some new))
      cgPath (some core) = multiRuntimeOf new core := by
    simp only [multiRuntimeAt, Function.update_self]
  rw [run_getCurrentMultiRuntime, hread, Prod.mk.injEq, Except.ok.injEq, and_iff_left rfl]
  exact multiRuntimeOf_setSlots hr hcore hbound hfields

end Runs

/-! ## The sample pod -/

/-- The sample pod after a write of 0.2 s for the core list. -/
def coreFiles (core : GoString) : Files :=
  (Program.run Kernel.permissive.exec (writeRuntimeFile samplePodPath 200000 (some core)).run
    (sampleFiles 1000000 500000 "0 0")).2

theorem run_writeRuntimeFile_zero :
    Program.run Kernel.permissive.exec (writeRuntimeFile samplePodPath 200000 (some "0")).run
      (sampleFiles 1000000 500000 "0 0") = (.ok (), coreFiles "0") :=
  Prod.ext (by decide +kernel) rfl

theorem readBack_iff_sample :
    Program.run Kernel.permissive.exec (getCurrentMultiRuntime samplePodPath "0").run
        (coreFiles "0") = (.ok 200000, coreFiles "0") ↔
      (200000 : Int) = 0 ∨ IsIndex "0" := by
  have hcore : cpuList "0" = some [0] := by decide
  exact readBack_iff (by decide) (by decide) hcore rfl run_writeRuntimeFile_zero

/-- The runtime that was written for the range `0-1` is read as zero. -/
theorem readBack_fails :
    cpuList "0-1" = some [0, 1] ∧
    (Program.run Kernel.permissive.exec (writeRuntimeFile samplePodPath 200000 (some "0-1")).run
      (sampleFiles 1000000 500000 "0 0")).1 = .ok () ∧
    coreFiles "0-1" (join [samplePodPath, cgroupRTMultiRuntime]) =
      some ("200000 200000" : GoString) ∧
    (Program.run Kernel.permissive.exec (getCurrentMultiRuntime samplePodPath "0-1").run
      (coreFiles "0-1")).1 = .ok 0 := by
  refine ⟨by decide, by decide +kernel, by decide +kernel, by decide +kernel⟩

end NodeActuator
end McKube
