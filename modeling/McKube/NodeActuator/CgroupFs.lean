import McKube.Atomic.Interleaving
import McKube.GoLib.Filepath
import McKube.GoLib.Strconv

/-!
# The files that the node actuator reads and writes

The actuator sees the kernel through files: `/proc` and the control files of
cgroup v2.  A state is a partial map from absolute paths to contents.  The
actions are `os.Stat`, `os.ReadFile` and one write of `writeCgroupFile`; each
is taken as atomic.

The kernel behind the files is a parameter.  Of an accepted write it is
assumed that a file of one value shows the value written, and that
`cpu.rt_multi_runtime_us` shows one runtime for each CPU, of which a write
`<cores> <runtime>` sets exactly the named ones.  Which further writes the
kernel rejects is left open (`Kernel.reject`).
-/

namespace McKube
namespace NodeActuator

open AtomicProgram GoLib
open GoLib.filepath (join components rootPath Plain)

/-! ## Cgroup file paths and constants -/

def cgroupV2Root : GoString := "/sys/fs/cgroup"
def cgroupControllersFile : GoString := cgroupV2Root ++ ("/cgroup.controllers" : GoString)
def cgroupKubepodsSlice : GoString := cgroupV2Root ++ ("/kubepods.slice" : GoString)

/-- RT scheduling sysctl paths. -/
def procSchedRTPeriod : GoString := "/proc/sys/kernel/sched_rt_period_us"
def procSchedRTRuntime : GoString := "/proc/sys/kernel/sched_rt_runtime_us"

/-- Cgroup control file names (relative to the cgroup path). -/
def cgroupRTPeriod : GoString := "cpu.rt_period_us"
def cgroupRTRuntime : GoString := "cpu.rt_runtime_us"
def cgroupRTMultiRuntime : GoString := "cpu.rt_multi_runtime_us"
def cgroupCPUSet : GoString := "cpuset.cpus"

/-- The control files of one cgroup that the actuator handles. -/
def controlFiles : List GoString :=
  [cgroupRTPeriod, cgroupRTRuntime, cgroupRTMultiRuntime, cgroupCPUSet]

theorem plain_of_mem_controlFiles {name : GoString} (hname : name ∈ controlFiles) :
    Plain name := by
  revert name
  decide

/-! ## Errors -/

/-- The errors of the actuator: its own messages, messages that wrap an
error with `%w`, and the errors of the calls into the standard library. -/
inductive GoError where
  | text (message : GoString)
  | wrap (message : GoString) (cause : GoError)
  | path (call file errno : GoString)
  | scan (input : GoString)
  | exec (command : GoString)
  deriving DecidableEq, Repr

/-- `writeCgroupFile` tells a failed `open` from a failed `write`. -/
inductive WriteFailure where
  | opening (cause : GoError)
  | writing (cause : GoError)
  deriving DecidableEq, Repr

/-! ## The files and the kernel -/

/-- The visible files: contents by absolute path. -/
abbrev Files := GoString → Option GoString

/-- The atomic actions of the actuator on files. -/
inductive FileOp where
  | stat (path : GoString)
  | readFile (path : GoString)
  | writeFile (path value : GoString)
  deriving DecidableEq, Repr

/-- The actions that can change a file. -/
def FileOp.IsWrite : FileOp → Prop
  | .writeFile _ _ => True
  | .stat _ => False
  | .readFile _ => False

instance : (op : FileOp) → Decidable op.IsWrite
  | .writeFile _ _ => instDecidableTrue
  | .stat _ => instDecidableFalse
  | .readFile _ => instDecidableFalse

/-- What the actuator learns from an action. -/
abbrev FileOp.Answer : FileOp → Type
  | .stat _ => Except GoError Unit
  | .readFile _ => Except GoError GoString
  | .writeFile _ _ => Except WriteFailure Unit

/-- The kernel behind the files. -/
structure Kernel where
  /-- The error of a write that the kernel refuses for reasons of its own. -/
  reject : Files → GoString → GoString → Option GoString
  /-- The CPUs that a core list names; `none` for a malformed list. -/
  cpulist : GoString → Option (List Nat)
  /-- A single index names that CPU. -/
  cpulist_itoa : ∀ i : Nat, cpulist (itoa i) = some [i]

/-- Put `value` into the slots named by `named`. -/
def setSlots (named : List Nat) (value : GoString) (slots : List GoString) : List GoString :=
  slots.mapIdx fun i old => if i ∈ named then value else old

namespace Kernel

variable (k : Kernel)

/-- The new content of `cpu.rt_multi_runtime_us` after a write
`<cores> <runtime>`; `none` if a core is unknown or the list is malformed. -/
def multiRuntime (old value : GoString) : Option GoString :=
  match lastIndex? [' '] value with
  | none => none
  | some i =>
      match k.cpulist (value.take i) with
      | none => none
      | some named =>
          if named.all fun core => decide (core < (fields old).length) then
            some (joinWith ' ' (setSlots named (value.drop (i + 1)) (fields old)))
          else
            none

/-- The new content of a file after a write, by the kind of the file. -/
def stored (path old value : GoString) : Option GoString :=
  if (components path).getLast? = some cgroupRTMultiRuntime then
    k.multiRuntime old value
  else
    some value

/-- The outcome of one write: the error, or the new files. -/
def write (files : Files) (path value : GoString) : Except WriteFailure Files :=
  match files path with
  | none => .error (.opening (.path "open" path "no such file or directory"))
  | some old =>
      match k.reject files path value with
      | some errno => .error (.writing (.path "write" path errno))
      | none =>
          match k.stored path old value with
          | none => .error (.writing (.path "write" path "invalid argument"))
          | some new => .ok (Function.update files path (some new))

/-- The atomic actions on the files. -/
def exec : (op : FileOp) → Files → op.Answer × Files
  | .stat path, files =>
      match files path with
      | some _ => (.ok (), files)
      | none => (.error (.path "stat" path "no such file or directory"), files)
  | .readFile path, files =>
      match files path with
      | some content => (.ok content, files)
      | none => (.error (.path "open" path "no such file or directory"), files)
  | .writeFile path value, files =>
      match k.write files path value with
      | .ok files' => (.ok (), files')
      | .error failure => (.error failure, files)

@[simp] theorem exec_stat_state (path : GoString) (files : Files) :
    (k.exec (.stat path) files).2 = files := by
  simp only [exec]
  split <;> rfl

@[simp] theorem exec_readFile_state (path : GoString) (files : Files) :
    (k.exec (.readFile path) files).2 = files := by
  simp only [exec]
  split <;> rfl

theorem exec_state_of_not_write {op : FileOp} (hop : ¬ op.IsWrite) (files : Files) :
    (k.exec op files).2 = files := by
  cases op with
  | stat path => exact k.exec_stat_state path files
  | readFile path => exact k.exec_readFile_state path files
  | writeFile path value => exact absurd trivial hop

/-- A successful write changes the written file only, to what `stored` says. -/
theorem write_eq_ok {files files' : Files} {path value : GoString}
    (h : k.write files path value = .ok files') :
    ∃ old new, files path = some old ∧ k.stored path old value = some new ∧
      files' = Function.update files path (some new) := by
  unfold write at h
  cases hold : files path with
  | none => simp [hold] at h
  | some old =>
      cases hreject : k.reject files path value with
      | some errno => simp [hold, hreject] at h
      | none =>
          cases hnew : k.stored path old value with
          | none => simp [hold, hreject, hnew] at h
          | some new =>
              simp only [hold, hreject, hnew, Except.ok.injEq] at h
              exact ⟨old, new, rfl, hnew, h.symm⟩

/-- A write leaves every other file alone, whether it succeeds or not. -/
theorem exec_writeFile_other {files : Files} {path value other : GoString}
    (hother : other ≠ path) : (k.exec (.writeFile path value) files).2 other = files other := by
  simp only [exec]
  cases hwrite : k.write files path value with
  | error failure => rfl
  | ok files' =>
      obtain ⟨old, new, -, -, rfl⟩ := k.write_eq_ok hwrite
      exact Function.update_of_ne hother _ _

end Kernel

/-! ## A kernel that accepts every well-formed write -/

/-- The CPUs of one element `a` or `a-b` of a core list. -/
def cpuRange (s : GoString) : Option (List Nat) :=
  match split s '-' with
  | [core] => (parseIndex core).map fun i => [i]
  | [first, last] => do
      let low ← parseIndex first
      let high ← parseIndex last
      if low ≤ high then some (List.range' low (high - low + 1)) else none
  | _ => none

/-- The CPUs of a core list such as `0-2,5`. -/
def cpuList (s : GoString) : Option (List Nat) :=
  ((split s ',').mapM cpuRange).map List.flatten

theorem cpuList_itoa (i : Nat) : cpuList (itoa i) = some [i] := by
  have hrange : cpuRange (itoa i) = some [i] := by
    unfold cpuRange
    rw [split_eq_singleton (not_mem_itoa (by decide) i)]
    simp only [parseIndex_itoa, Option.map_some]
  unfold cpuList
  rw [split_eq_singleton (not_mem_itoa (by decide) i)]
  simp [hrange]

/-- The kernel that refuses no write of its own. -/
def Kernel.permissive : Kernel where
  reject := fun _ _ _ => none
  cpulist := cpuList
  cpulist_itoa := cpuList_itoa

/-! ## Reading values from the files -/

/-- The integer shown by a file of one value. -/
def intAt (files : Files) (path : GoString) : Option Int :=
  (files path).bind fun content => sscanfInt (trimSpace content)

/-- The word in slot `i` of a file. -/
def slotAt (files : Files) (path : GoString) (i : Nat) : Option GoString :=
  (files path).bind fun content => (fields content)[i]?

/-- The integers shown by a file of one runtime for each CPU. -/
def intsAt (files : Files) (path : GoString) : Option (List Int) :=
  (files path).bind fun content => (fields content).mapM atoi

end NodeActuator
end McKube
