import McKube.CpuUtil.AnnotationLoop

/-!
# The command line of `kubectl`

`updateNodeAnnotations` puts every annotation into one argument, with `=` between
the key and the value and nothing escaped.  `kubectl` takes an argument that starts
with `-` for an option, and splits any other at its first `=`.

* `survives_iff`: which annotations `kubectl` reads as they were meant.
* `survives_annotateViaHTTP`: those that the agent itself publishes are.
-/

namespace McKube.CpuUtil

open GoLib

/-- The arguments for the annotations, in the order in which `range` goes through the
map. -/
def annotationArgs (annotations : List (GoString × GoString)) : List GoString :=
  annotations.map fun entry => entry.1 ++ '=' :: entry.2

/-- The arguments that `updateNodeAnnotations` builds. -/
def kubectlArgs (nodeName : GoString) (annotations : List (GoString × GoString)) :
    List GoString :=
  "annotate" :: "node" :: nodeName :: "--overwrite" :: annotationArgs annotations

/-! ## Reading the arguments back -/

/-- An argument as `kubectl` takes it. -/
inductive Argument where
  | option (text : GoString)
  | assignment (key value : GoString)
  | word (text : GoString)
  deriving DecidableEq

namespace Argument

def read (arg : GoString) : Argument :=
  if hasPrefix arg ['-'] then
    .option arg
  else
    match cut '=' arg with
    | some (key, value) => .assignment key value
    | none => .word arg

def option? : Argument → Option GoString
  | .option text => some text
  | _ => none

def word? : Argument → Option GoString
  | .word text => some text
  | _ => none

def assignment? : Argument → Option (GoString × GoString)
  | .assignment key value => some (key, value)
  | _ => none

end Argument

def optionsOf (args : List GoString) : List GoString :=
  args.filterMap fun arg => (Argument.read arg).option?

def wordsOf (args : List GoString) : List GoString :=
  args.filterMap fun arg => (Argument.read arg).word?

def assignmentsOf (args : List GoString) : List (GoString × GoString) :=
  args.filterMap fun arg => (Argument.read arg).assignment?

/-- The arguments are read as the sub-command, the node, the option `--overwrite` and
the annotations. -/
structure Survives (nodeName : GoString) (annotations : List (GoString × GoString)) : Prop where
  options : optionsOf (kubectlArgs nodeName annotations) = ["--overwrite"]
  words : wordsOf (kubectlArgs nodeName annotations) =
    [("annotate" : GoString), "node", nodeName]
  assignments : (assignmentsOf (kubectlArgs nodeName annotations)).Perm annotations

/-! ## Names -/

/-- A name without a leading dash and without an equals sign. -/
def PlainName (name : GoString) : Prop := hasPrefix name ['-'] = false ∧ '=' ∉ name

instance (name : GoString) : Decidable (PlainName name) :=
  inferInstanceAs (Decidable (hasPrefix name ['-'] = false ∧ '=' ∉ name))

theorem hasPrefix_dash_append (key value : GoString) :
    hasPrefix (key ++ '=' :: value) ['-'] = hasPrefix key ['-'] := by
  cases key with
  | nil => rfl
  | cons c key => rfl

theorem read_eq_word_iff {arg text : GoString} :
    Argument.read arg = .word text ↔ PlainName arg ∧ arg = text := by
  unfold Argument.read PlainName
  split
  · next hdash => simp [hdash]
  · next hdash =>
      rw [Bool.not_eq_true] at hdash
      split
      · next key value hcut =>
          have hmem : '=' ∈ arg := by
            by_contra hnone
            rw [cut_eq_none_iff.mpr hnone] at hcut
            cases hcut
          simp [hmem]
      · next hcut => simp [hdash, cut_eq_none_iff.mp hcut]

theorem read_assignment_of_plainName {key : GoString} (hkey : PlainName key) (value : GoString) :
    Argument.read (key ++ '=' :: value) = .assignment key value := by
  unfold Argument.read
  rw [hasPrefix_dash_append, hkey.1, if_neg Bool.false_ne_true, cut_append_cons hkey.2]

theorem not_mem_of_read_assignment {arg key value : GoString}
    (h : Argument.read arg = .assignment key value) : '=' ∉ key := by
  unfold Argument.read at h
  split at h
  · cases h
  · split at h
    · next key' value' hcut =>
        cases h
        exact not_mem_of_cut hcut
    · cases h

/-! ## The whole command line -/

theorem filterMap_cons_toList {α β : Type} (f : α → Option β) (a : α) (as : List α) :
    (a :: as).filterMap f = (f a).toList ++ as.filterMap f := by
  rw [List.filterMap_cons]
  cases f a <;> rfl

section CommandLine

variable {nodeName : GoString} {annotations : List (GoString × GoString)}

theorem optionsOf_kubectlArgs :
    optionsOf (kubectlArgs nodeName annotations) =
      (Argument.read nodeName).option?.toList ++
        ("--overwrite" : GoString) :: optionsOf (annotationArgs annotations) := by
  unfold optionsOf kubectlArgs
  simp only [filterMap_cons_toList]
  rfl

theorem wordsOf_kubectlArgs :
    wordsOf (kubectlArgs nodeName annotations) =
      ("annotate" : GoString) :: ("node" : GoString) :: ((Argument.read nodeName).word?.toList ++
        wordsOf (annotationArgs annotations)) := by
  unfold wordsOf kubectlArgs
  simp only [filterMap_cons_toList]
  rfl

theorem assignmentsOf_kubectlArgs :
    assignmentsOf (kubectlArgs nodeName annotations) =
      (Argument.read nodeName).assignment?.toList ++
        assignmentsOf (annotationArgs annotations) := by
  unfold assignmentsOf kubectlArgs
  simp only [filterMap_cons_toList]
  rfl

/-- No annotation is read as a word. -/
theorem wordsOf_annotationArgs : wordsOf (annotationArgs annotations) = [] := by
  unfold wordsOf annotationArgs
  rw [List.filterMap_map, List.filterMap_eq_nil_iff]
  intro entry _
  show (Argument.read (entry.1 ++ '=' :: entry.2)).word? = none
  cases hread : Argument.read (entry.1 ++ '=' :: entry.2) with
  | option text => rfl
  | assignment key value => rfl
  | word text =>
      have hmem : '=' ∈ entry.1 ++ '=' :: entry.2 := by simp
      exact absurd hmem (read_eq_word_iff.mp hread).1.2

/-- Plain keys are all that it takes to read the annotations back. -/
theorem annotationArgs_of_plainName (h : ∀ entry ∈ annotations, PlainName entry.1) :
    optionsOf (annotationArgs annotations) = [] ∧
      assignmentsOf (annotationArgs annotations) = annotations := by
  induction annotations with
  | nil => exact ⟨rfl, rfl⟩
  | cons entry annotations ih =>
      rw [List.forall_mem_cons] at h
      obtain ⟨hoptions, hassignments⟩ := ih h.2
      unfold optionsOf assignmentsOf annotationArgs at *
      rw [List.map_cons, filterMap_cons_toList, filterMap_cons_toList,
        read_assignment_of_plainName h.1, hoptions, hassignments]
      exact ⟨rfl, rfl⟩

theorem plainName_of_survives (h : Survives nodeName annotations) :
    PlainName nodeName ∧ ∀ entry ∈ annotations, PlainName entry.1 := by
  obtain ⟨hoptions, hwords, hassignments⟩ := h
  have hnode : Argument.read nodeName = .word nodeName := by
    rw [wordsOf_kubectlArgs, wordsOf_annotationArgs, List.append_nil, List.cons.injEq,
      List.cons.injEq] at hwords
    cases hread : Argument.read nodeName with
    | option text =>
        rw [hread] at hwords
        cases hwords.2.2
    | assignment key value =>
        rw [hread] at hwords
        cases hwords.2.2
    | word text => rw [(read_eq_word_iff.mp hread).2]
  refine ⟨(read_eq_word_iff.mp hnode).1, fun entry hentry => ⟨?_, ?_⟩⟩
  · -- a leading dash would make the argument an option
    rw [optionsOf_kubectlArgs, hnode] at hoptions
    have hnone : optionsOf (annotationArgs annotations) = [] := List.tail_eq_of_cons_eq hoptions
    have harg := List.filterMap_eq_nil_iff.mp hnone _ (List.mem_map_of_mem hentry)
    rw [← hasPrefix_dash_append entry.1 entry.2, ← Bool.not_eq_true]
    intro hdash
    rw [Argument.read, if_pos hdash] at harg
    cases harg
  · -- no key that is read back has an equals sign
    obtain ⟨arg, -, hread⟩ := List.mem_filterMap.mp (hassignments.symm.subset hentry)
    cases hkind : Argument.read arg with
    | option text =>
        rw [hkind] at hread
        cases hread
    | assignment key value =>
        rw [hkind] at hread
        cases hread
        exact not_mem_of_read_assignment hkind
    | word text =>
        rw [hkind] at hread
        cases hread

theorem survives_of_plainName (hnode : PlainName nodeName)
    (hkeys : ∀ entry ∈ annotations, PlainName entry.1) :
    Survives nodeName annotations := by
  obtain ⟨hoptions, hassignments⟩ := annotationArgs_of_plainName hkeys
  have hword : Argument.read nodeName = .word nodeName := read_eq_word_iff.mpr ⟨hnode, rfl⟩
  exact
    { options := by rw [optionsOf_kubectlArgs, hoptions, hword]; rfl
      words := by rw [wordsOf_kubectlArgs, wordsOf_annotationArgs, hword]; rfl
      assignments := by rw [assignmentsOf_kubectlArgs, hassignments, hword]; rfl }

/-- The command line is read as it was meant iff neither the name of the node nor any
key starts with a dash or has an equals sign. -/
theorem survives_iff :
    Survives nodeName annotations ↔
      PlainName nodeName ∧ ∀ entry ∈ annotations, PlainName entry.1 :=
  ⟨plainName_of_survives, fun h => survives_of_plainName h.1 h.2⟩

end CommandLine

/-- A key that is an option, and a key that is cut short. -/
theorem survives_fails :
    ¬ (∀ annotations, Survives "worker-1" annotations) ∧
    optionsOf (kubectlArgs "worker-1" [("--all", "true")]) =
      [("--overwrite" : GoString), "--all=true"] ∧
    assignmentsOf (kubectlArgs "worker-1" [("tier=rt", "high")]) =
      [(("tier" : GoString), ("rt=high" : GoString))] := by
  refine ⟨fun hall => ?_, by decide, by decide⟩
  exact absurd (hall [("--all", "true")]).options (by decide)

/-- What the agent publishes itself is read as it was meant. -/
theorem survives_annotateViaHTTP {node : GoString} (hnode : PlainName node) (usage : Int)
    (over90time : Int64) (isCpuBusy : GoString) :
    Survives node (annotateViaHTTP node usage over90time isCpuBusy).annotations := by
  have hkeys : ∀ key ∈ [annUsageKey, annDurKey, annCpuBusyKey], PlainName key := by
    decide +kernel
  apply survives_of_plainName hnode
  intro entry hentry
  exact hkeys entry.1 (List.mem_map_of_mem (f := Prod.fst) hentry)

end McKube.CpuUtil
