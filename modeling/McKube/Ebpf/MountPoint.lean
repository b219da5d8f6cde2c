import McKube.Ebpf.LineScanner
import McKube.Procfs.MountInfo

/-!
# Finding the mount point of cgroup2

The monitor reads `/proc/self/mountinfo` line by line and takes the fifth word of the
first line that it recognises.  It does not undo the escapes of the kernel, and its
words end at any white space.

* `mountpointOf_line`: what the monitor makes of one line.
* `findCgroup2Mountpoint_eq`: what it makes of the file.
* `findCgroup2Mountpoint_iff`: when this is the mount point of the first cgroup2 entry.
-/

namespace McKube.Ebpf.Monitor

open GoLib GoLib.os Procfs

/-! ## The search -/

inductive MountError
  | openFile (e : FileError)
  | read (e : FileError)
  | text (message : GoString)
  deriving DecidableEq

def cgroup2 : Bytes := bytes.encode "cgroup2"

/-- What `findCgroup2Mountpoint` returns for a line, if it returns there. -/
def mountpointOf (line : Bytes) : Option Bytes :=
  match bytes.split line (bytes.encode " - ") with
  | [left, right] =>
      match bytes.fields right with
      | [] => none
      | fsType :: _ => if fsType ≠ cgroup2 then none else (bytes.fields left)[4]?
  | _ => none

/-- One round of the loop; the result stands in a variable. -/
def searchLine (line : Bytes) (_ : Option Bytes) : ForInStep (Option Bytes) :=
  match mountpointOf line with
  | some mountpoint => .done (some mountpoint)
  | none => .yield none

/-- `findCgroup2Mountpoint`; `opened` is the result of `os.Open`, and `fuel` bounds the
rounds of the loops. -/
def findCgroup2Mountpoint {σ : Type} (file : File σ) (fuel : Nat) (opened : Except FileError σ) :
    Option (Except MountError Bytes) :=
  match opened with
  | .error e => some (.error (.openFile e))
  | .ok f =>
      match Scanner.forScan file searchLine fuel none (Scanner.new f) with
      | none => none
      | some (some mountpoint, _) => some (.ok mountpoint)
      | some (none, sc) =>
          match sc.err with
          | some e => some (.error (.read e))
          | none => some (.error (.text "cgroup2 mountpoint not found"))

/-! ## One line -/

/-- The entry is a cgroup2 mount. -/
def IsCgroup2 (e : MountEntry) : Prop := e.fsType = cgroup2

instance (e : MountEntry) : Decidable (IsCgroup2 e) := inferInstanceAs (Decidable (_ = _))

/-- The monitor sees that the entry is a cgroup2 mount: there is one separator in its
line. -/
def Recognised (e : MountEntry) : Prop := IsCgroup2 e ∧ e.source ≠ hyphen

instance (e : MountEntry) : Decidable (Recognised e) := inferInstanceAs (Decidable (_ ∧ _))

/-- The word that stands where the mount point is expected. -/
def fifthWord (e : MountEntry) : Option Bytes :=
  (bytes.fields (mangle e.root) ++ bytes.fields (mangle e.mountPoint))[1]?

theorem fields_root_ne_nil (e : MountEntry) : bytes.fields (mangle e.root) ≠ [] := by
  obtain ⟨c, s, hroot, hc⟩ := e.root_start
  rw [hroot]
  exact MountEntry.fields_mangle_ne_nil hc

theorem fields_mountPoint_ne_nil (e : MountEntry) : bytes.fields (mangle e.mountPoint) ≠ [] := by
  obtain ⟨s, hs⟩ := e.mountPoint_start
  rw [hs]
  exact MountEntry.fields_mangle_ne_nil rfl

theorem mountpointOf_line (e : MountEntry) :
    mountpointOf e.line = if Recognised e then fifthWord e else none := by
  have hsplit := e.split_line
  unfold mountpointOf
  rw [show bytes.encode " - " = separator from rfl, hsplit]
  by_cases hsource : e.source = hyphen
  · rw [if_pos hsource, if_neg (fun h => h.2 hsource)]
  · rw [if_neg hsource]
    dsimp only
    rw [e.fields_rightText]
    dsimp only
    by_cases htype : e.fsType = cgroup2
    · have hmangle : mangle e.fsType = cgroup2 := (mangle_eq_iff (by decide)).mpr htype
      rw [if_neg (not_not.mpr hmangle), if_pos ⟨htype, hsource⟩, e.fields_leftText]
      -- three words come before the root, so the fifth one is in the root or the mount point
      have hroot := List.length_pos_of_ne_nil (fields_root_ne_nil e)
      have hmountPoint := List.length_pos_of_ne_nil (fields_mountPoint_ne_nil e)
      rw [List.getElem?_append_right (by simp), fifthWord, ← List.append_assoc,
        List.getElem?_append_left (by rw [List.length_append]; simp; omega)]
      rfl
    · have hmangle : mangle e.fsType ≠ cgroup2 := fun h => htype ((mangle_eq_iff (by decide)).mp h)
      rw [if_pos hmangle, if_neg (fun h => htype h.1)]

/-! ## The file -/

theorem fifthWord_isSome (e : MountEntry) : (fifthWord e).isSome = true := by
  have hroot := List.length_pos_of_ne_nil (fields_root_ne_nil e)
  have hmountPoint := List.length_pos_of_ne_nil (fields_mountPoint_ne_nil e)
  rw [fifthWord, List.getElem?_eq_getElem (by rw [List.length_append]; omega)]
  rfl

/-- The loop ends at the first line that gives a result. -/
theorem visitLines_searchLine (ls : List Bytes) :
    Scanner.visitLines searchLine ls none =
      match ls.findSome? mountpointOf with
      | some mountpoint => .done (some mountpoint)
      | none => .yield none := by
  induction ls with
  | nil => rfl
  | cons line ls ih =>
      rw [Scanner.visitLines, List.findSome?_cons, searchLine]
      cases mountpointOf line with
      | some mountpoint => rfl
      | none => exact ih

theorem findSome?_line (table : List MountEntry) :
    (table.map MountEntry.line).findSome? mountpointOf =
      (table.find? fun e => Recognised e).bind fifthWord := by
  induction table with
  | nil => rfl
  | cons e table ih =>
      rw [List.map_cons, List.findSome?_cons, mountpointOf_line, List.find?_cons]
      by_cases he : Recognised e
      · obtain ⟨word, hword⟩ := Option.isSome_iff_exists.mp (fifthWord_isSome e)
        simp [he, hword]
      · simp [he, ih]

/-- However the system splits reads, the monitor finds the fifth word of the first entry
that it recognises, or it ends with an error. -/
theorem findCgroup2Mountpoint_eq (table : List MountEntry) (splitting : Splitting (mountInfo table))
    {fuel : Nat} (hfuel : (mountInfo table).length + 1 < fuel) :
    findCgroup2Mountpoint (regular splitting) fuel (.ok ⟨0, 0⟩) =
      some (match (table.find? fun e => Recognised e).bind fifthWord with
        | some mountpoint => .ok mountpoint
        | none => .error (.read .eof)) := by
  obtain ⟨sc, hloop, hend⟩ := Scanner.forScan_eq splitting searchLine
    (s := Scanner.new ⟨0, 0⟩) At.start hfuel none
  rw [newline, lines_mountInfo, visitLines_searchLine, findSome?_line] at hloop hend
  unfold findCgroup2Mountpoint
  dsimp only
  rw [hloop]
  cases hfound : (table.find? fun e => Recognised e).bind fifthWord with
  | some mountpoint => rfl
  | none =>
      rw [hfound] at hend
      have herr : sc.err = some .eof := hend none rfl
      dsimp only [ForInStep.value]
      rw [herr]

/-! ## The first cgroup2 entry -/

/-- The word that is found spells the path: it is the first word of the mount point, or
the second one of a root with white space in it. -/
def Spells (e : MountEntry) (path : Bytes) : Prop :=
  ((bytes.fields (mangle e.root)).length = 1 ∧
      (bytes.fields (mangle e.mountPoint)).head? = some path) ∨
    (bytes.fields (mangle e.root))[1]? = some path

instance (e : MountEntry) (path : Bytes) : Decidable (Spells e path) :=
  inferInstanceAs (Decidable (_ ∨ _))

theorem fifthWord_eq_some_iff {e : MountEntry} {path : Bytes} :
    fifthWord e = some path ↔ Spells e path := by
  have hroot := fields_root_ne_nil e
  have hmountPoint := fields_mountPoint_ne_nil e
  unfold fifthWord Spells
  cases hfields : bytes.fields (mangle e.root) with
  | nil => exact absurd hfields hroot
  | cons r rs =>
      cases rs with
      | nil => simp [List.head?_eq_getElem?]
      | cons r' rs => simp

/-- The first word of a mount point is the mount point itself iff nothing in it is escaped
and it has no white space. -/
theorem head?_fields_mangle_iff {path : Bytes} (hne : path ≠ []) :
    (bytes.fields (mangle path)).head? = some path ↔ Verbatim path ∧ bytes.NoSpace path := by
  constructor
  · intro h
    have hclean : bytes.NoSpace path := bytes.clean_of_mem_fields (List.mem_of_head? h)
    have hmangle : mangle path ≠ [] := by
      rintro hnil
      rw [hnil] at h
      cases h
    rw [bytes.fields_of_clean hmangle (noSpace_mangle hclean), List.head?_cons,
      Option.some.injEq] at h
    exact ⟨mangle_eq_self_iff.mp h, hclean⟩
  · rintro ⟨hverbatim, hclean⟩
    rw [mangle_eq_self hverbatim, bytes.fields_of_clean hne hclean]
    rfl

/-- The monitor recognises the entry, and its mount point is printed as it is, as a word
behind the one word of the root. -/
structure Readable (e : MountEntry) : Prop where
  source : e.source ≠ hyphen
  root : (bytes.fields (mangle e.root)).length = 1
  verbatim : Verbatim e.mountPoint
  noSpace : bytes.NoSpace e.mountPoint

/-- Another word spells the path: the second word of the root, or, if the source of the
first entry is a hyphen, the word of a later entry. -/
def SpelledElsewhere (table : List MountEntry) (first : MountEntry) : Prop :=
  (first.source ≠ hyphen ∧ (bytes.fields (mangle first.root))[1]? = some first.mountPoint) ∨
    (first.source = hyphen ∧
      ∃ e, table.find? (fun e => Recognised e) = some e ∧ Spells e first.mountPoint)

theorem spells_mountPoint_iff {e : MountEntry} (hsource : e.source ≠ hyphen) :
    Spells e e.mountPoint ↔
      Readable e ∨ (bytes.fields (mangle e.root))[1]? = some e.mountPoint := by
  have hne : e.mountPoint ≠ [] := by
    obtain ⟨s, hs⟩ := e.mountPoint_start
    rw [hs]
    exact List.cons_ne_nil _ _
  rw [Spells, head?_fields_mangle_iff hne]
  refine or_congr_left ⟨?_, ?_⟩
  · rintro ⟨hroot, hverbatim, hspace⟩
    exact ⟨hsource, hroot, hverbatim, hspace⟩
  · rintro ⟨-, hroot, hverbatim, hspace⟩
    exact ⟨hroot, hverbatim, hspace⟩

/-- A cgroup2 entry with another source than a hyphen is the first that is recognised, if
it is the first cgroup2 entry. -/
theorem find?_recognised {table : List MountEntry} {first : MountEntry}
    (hfirst : table.find? (fun e => IsCgroup2 e) = some first) (hsource : first.source ≠ hyphen) :
    table.find? (fun e => Recognised e) = some first := by
  obtain ⟨htype, before, after, rfl, hbefore⟩ := List.find?_eq_some_iff_append.mp hfirst
  rw [decide_eq_true_eq] at htype
  refine List.find?_eq_some_iff_append.mpr ⟨?_, before, after, rfl, fun e he => ?_⟩
  · rw [decide_eq_true_eq]
    exact ⟨htype, hsource⟩
  · have hother := hbefore e he
    rw [Bool.not_eq_true', decide_eq_false_iff_not] at hother ⊢
    exact fun hrecognised => hother hrecognised.1

/-- The monitor finds the mount point of the first cgroup2 entry iff it can read it as it
is printed, or other words in its place spell the same path. -/
theorem findCgroup2Mountpoint_iff {table : List MountEntry} {first : MountEntry}
    (hfirst : table.find? (fun e => IsCgroup2 e) = some first)
    (splitting : Splitting (mountInfo table)) {fuel : Nat}
    (hfuel : (mountInfo table).length + 1 < fuel) :
    findCgroup2Mountpoint (regular splitting) fuel (.ok ⟨0, 0⟩) = some (.ok first.mountPoint) ↔
      Readable first ∨ SpelledElsewhere table first := by
  have hspells : findCgroup2Mountpoint (regular splitting) fuel (.ok ⟨0, 0⟩) =
      some (.ok first.mountPoint) ↔
        ∃ e, table.find? (fun e => Recognised e) = some e ∧ Spells e first.mountPoint := by
    rw [findCgroup2Mountpoint_eq table splitting hfuel]
    simp only [← fifthWord_eq_some_iff]
    rw [← Option.bind_eq_some_iff]
    cases (table.find? fun e => Recognised e).bind fifthWord with
    | some mountpoint => simp
    | none => simp
  rw [hspells, SpelledElsewhere]
  by_cases hsource : first.source = hyphen
  · have hunreadable : ¬ Readable first := fun h => h.source hsource
    simp [hsource, hunreadable]
  · rw [find?_recognised hfirst hsource]
    simp [hsource, spells_mountPoint_iff hsource]

/-! ## A mount point with a blank -/

/-- A cgroup2 mount. -/
def sampleEntry (mountPoint source : GoString)
    (hstart : ∃ s, bytes.encode mountPoint = slash :: s) : MountEntry where
  mountID := 31
  parentID := 24
  major := 0
  minor := 27
  root := bytes.encode "/"
  mountPoint := bytes.encode mountPoint
  options := bytes.encode "rw"
  optionalFields := [bytes.encode "shared:9"]
  fsType := cgroup2
  source := bytes.encode source
  superOptions := bytes.encode "rw"
  root_start := ⟨47, [], rfl, rfl⟩
  root_ne := by decide
  mountPoint_start := hstart
  options_ne := by decide
  optionalFields_ne := by decide
  fsType_ne_nil := by decide
  fsType_noSpace := bytes.cleanBefore_of_graphic (List.all_eq_true.mp (by decide)) []

/-- Where systemd mounts it. -/
def systemdMount : MountEntry := sampleEntry "/sys/fs/cgroup" "cgroup2" ⟨_, rfl⟩

def blankMount : MountEntry := sampleEntry "/mnt/my cgroup" "cgroup2" ⟨_, rfl⟩

/-- The source of a cgroup2 mount is any string. -/
def hyphenMount : MountEntry := sampleEntry "/sys/fs/cgroup" "-" ⟨_, rfl⟩

theorem readable_systemdMount : Readable systemdMount where
  source := by decide
  root := by decide +kernel
  verbatim := by decide
  noSpace := bytes.cleanBefore_of_graphic (List.all_eq_true.mp (by decide)) []

theorem findCgroup2Mountpoint_iff_sample :
    findCgroup2Mountpoint (regular (Scanner.byteByByte (mountInfo [systemdMount]))) 100
        (.ok ⟨0, 0⟩) = some (.ok (bytes.encode "/sys/fs/cgroup")) :=
  have hfirst : [systemdMount].find? (fun e => IsCgroup2 e) = some systemdMount := rfl
  (findCgroup2Mountpoint_iff hfirst _ (by decide +kernel)).mpr (Or.inl readable_systemdMount)

/-- The escape for the blank stays in the path, and a source of `-` hides its line. -/
theorem findCgroup2Mountpoint_fails :
    [blankMount].find? (fun e => IsCgroup2 e) = some blankMount ∧
    blankMount.mountPoint = bytes.encode "/mnt/my cgroup" ∧
    findCgroup2Mountpoint (regular (Scanner.byteByByte (mountInfo [blankMount]))) 100
      (.ok ⟨0, 0⟩) = some (.ok (bytes.encode "/mnt/my\\040cgroup")) ∧
    bytes.encode "/mnt/my\\040cgroup" ≠ bytes.encode "/mnt/my cgroup" ∧
    [hyphenMount].find? (fun e => IsCgroup2 e) = some hyphenMount ∧
    findCgroup2Mountpoint (regular (Scanner.byteByByte (mountInfo [hyphenMount]))) 100
      (.ok ⟨0, 0⟩) = some (.error (.read .eof)) := by
  have hword : ([blankMount].find? fun e => Recognised e).bind fifthWord =
      some (bytes.encode "/mnt/my\\040cgroup") := by decide +kernel
  have hnone : ([hyphenMount].find? fun e => Recognised e).bind fifthWord = none := by
    decide +kernel
  refine ⟨by rfl, rfl, ?_, by decide, by rfl, ?_⟩
  · rw [findCgroup2Mountpoint_eq _ _ (by decide +kernel), hword]
  · rw [findCgroup2Mountpoint_eq _ _ (by decide +kernel), hnone]

end McKube.Ebpf.Monitor
