import McKube.GoLib.Strings
import Mathlib.Data.List.Infix

/-!
# The directories of a slice

The name of a slice spells out where its cgroup lies: `a-b-c.slice` is inside
`a-b.slice`, which is inside `a.slice`.
-/

namespace Systemd

open GoLib

/-- The slice with the given parts. -/
def sliceName (parts : List GoString) : GoString := joinWith '-' parts ++ (".slice" : GoString)

/-- The directories of `<stem>.slice`, from the outside to the inside. -/
def sliceDirectories (stem : GoString) : List GoString :=
  (split stem '-').inits.tail.map sliceName

/-- One more part is one more directory. -/
theorem sliceDirectories_append (s : GoString) {part : GoString} (hpart : '-' ∉ part) :
    sliceDirectories (s ++ '-' :: part) =
      sliceDirectories s ++ [s ++ '-' :: part ++ (".slice" : GoString)] := by
  have hne : split s '-' ≠ [] := List.splitOn_ne_nil '-' s
  have hjoin : joinWith '-' (split s '-') = s := List.intercalate_splitOn '-'
  have hlast : joinWith '-' (split s '-' ++ [part]) = s ++ '-' :: part := by
    rw [← joinWith_joinWith_cons hne, hjoin, joinWith_cons_cons, joinWith_singleton]
  have hinits : (split s '-' ++ [part]).inits.tail =
      (split s '-').inits.tail ++ [split s '-' ++ [part]] := by
    rw [List.inits_append]
    cases split s '-' <;> simp
  unfold sliceDirectories
  rw [split_append_cons, split_eq_singleton hpart, hinits, List.map_append, List.map_singleton,
    sliceName, hlast]

end Systemd
