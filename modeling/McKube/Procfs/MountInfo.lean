import McKube.GoLib.ByteFields
import McKube.Text.Lines

/-!
# The format of `/proc/<pid>/mountinfo`

The kernel prints one line for each mount.  Its fields are separated by blanks, and a
single hyphen stands behind the optional ones.  Blanks, tabs, newlines and backslashes
inside a field are printed as octal escapes; other white space is printed as it is.

* `space_not_mem_mangle`, `noSpace_mangle`, `mangle_eq_iff`: what escaping does.
* `split_line`: a line has one separator, unless the source is a hyphen itself.
* `fields_left`: the words in front of the separator.
-/

namespace Procfs

open GoLib Text
open GoLib.bytes (sepWidth NoSpace isGraphic)

/-! ## Escapes -/

def isEscaped (c : UInt8) : Bool := c = 32 || c = 9 || c = 10 || c = 92

/-- A backslash and three octal digits. -/
def octal (c : UInt8) : Bytes := [92, 48 + c / 64, 48 + c / 8 % 8, 48 + c % 8]

/-- A field as it is printed. -/
def mangle (s : Bytes) : Bytes := s.flatMap fun c => if isEscaped c then octal c else [c]

@[simp] theorem mangle_nil : mangle [] = [] := rfl

theorem mangle_cons (c : UInt8) (s : Bytes) :
    mangle (c :: s) = (if isEscaped c then octal c else [c]) ++ mangle s := rfl

theorem mangle_cons_of_escaped {c : UInt8} (hc : isEscaped c = true) (s : Bytes) :
    mangle (c :: s) = octal c ++ mangle s := by
  rw [mangle_cons, if_pos hc]

theorem mangle_cons_of_not_escaped {c : UInt8} (hc : isEscaped c = false) (s : Bytes) :
    mangle (c :: s) = c :: mangle s := by
  rw [mangle_cons, hc]
  rfl

theorem octal_graphic {c : UInt8} (hc : isEscaped c = true) :
    ∀ d ∈ octal c, isGraphic d = true := by
  have hall : (([32, 9, 10, 92] : List UInt8).all fun c => (octal c).all isGraphic) = true := by
    decide
  apply List.all_eq_true.mp
  apply List.all_eq_true.mp hall c
  simpa [isEscaped, or_assoc] using hc

/-- Nothing but a backslash that the kernel would escape is printed. -/
theorem not_mem_mangle {d : UInt8} (hd : isEscaped d = true) (hgraphic : isGraphic d = false)
    (s : Bytes) : d ∉ mangle s := by
  induction s with
  | nil => exact List.not_mem_nil
  | cons c s ih =>
      cases hc : isEscaped c with
      | true =>
          rw [mangle_cons_of_escaped hc, List.mem_append, not_or]
          refine ⟨fun hmem => ?_, ih⟩
          rw [octal_graphic hc d hmem] at hgraphic
          cases hgraphic
      | false =>
          rw [mangle_cons_of_not_escaped hc, List.mem_cons, not_or]
          refine ⟨?_, ih⟩
          rintro rfl
          rw [hd] at hc
          cases hc

theorem space_not_mem_mangle (s : Bytes) : 32 ∉ mangle s := not_mem_mangle rfl rfl s

theorem newline_not_mem_mangle (s : Bytes) : 10 ∉ mangle s := not_mem_mangle rfl rfl s

/-- Nothing in the string is escaped. -/
def Verbatim (s : Bytes) : Prop := ∀ c ∈ s, isEscaped c = false

instance (s : Bytes) : Decidable (Verbatim s) :=
  decidable_of_iff ((s.all fun c => !isEscaped c) = true) (by simp [Verbatim])

theorem mangle_eq_self {s : Bytes} (h : Verbatim s) : mangle s = s := by
  induction s with
  | nil => rfl
  | cons c s ih =>
      rw [mangle_cons_of_not_escaped (h c List.mem_cons_self),
        ih fun d hd => h d (List.mem_cons_of_mem c hd)]

theorem length_le_length_mangle (s : Bytes) : s.length ≤ (mangle s).length := by
  induction s with
  | nil => exact le_refl 0
  | cons c s ih =>
      rw [mangle_cons, List.length_append, List.length_cons]
      split
      · have hoctal : (octal c).length = 4 := rfl
        omega
      · rw [List.length_singleton]
        omega

/-- A string is printed as it is iff nothing in it is escaped. -/
theorem mangle_eq_self_iff {s : Bytes} : mangle s = s ↔ Verbatim s := by
  refine ⟨fun h => ?_, mangle_eq_self⟩
  induction s with
  | nil => exact fun _ hc => absurd hc List.not_mem_nil
  | cons c s ih =>
      cases hc : isEscaped c with
      | true =>
          have hlength := congrArg List.length h
          have hle := length_le_length_mangle s
          have hoctal : (octal c).length = 4 := rfl
          rw [mangle_cons_of_escaped hc, List.length_append, List.length_cons] at hlength
          omega
      | false =>
          rw [mangle_cons_of_not_escaped hc, List.cons.injEq] at h
          intro d hd
          rcases List.mem_cons.mp hd with rfl | hd
          · exact hc
          · exact ih h.2 d hd

/-- A word without a backslash is printed for itself only. -/
theorem mangle_eq_iff {s t : Bytes} (ht : Verbatim t) : mangle s = t ↔ s = t := by
  constructor
  · intro h
    -- an escape would leave its backslash in `t`
    have hs : Verbatim s := by
      intro c hc
      by_contra hescaped
      rw [Bool.not_eq_false] at hescaped
      have hbackslash : 92 ∈ mangle s := by
        refine List.mem_flatMap.mpr ⟨c, hc, ?_⟩
        rw [if_pos hescaped]
        exact List.mem_cons_self
      rw [h] at hbackslash
      exact absurd (ht 92 hbackslash) (by decide)
    rwa [mangle_eq_self hs] at h
  · rintro rfl
    exact mangle_eq_self ht

/-- Bytes that are not ASCII are printed as they are. -/
theorem prefix_of_prefix_mangle {t s : Bytes} (ht : ∀ c ∈ t, 128 ≤ c) (h : t <+: mangle s) :
    t <+: s := by
  induction t generalizing s with
  | nil => exact List.nil_prefix
  | cons c t ih =>
      have hc : 128 ≤ c := ht c List.mem_cons_self
      cases s with
      | nil => exact absurd (List.prefix_nil.mp h) (List.cons_ne_nil c t)
      | cons d s =>
          cases hd : isEscaped d with
          | true =>
              rw [mangle_cons_of_escaped hd, octal, List.cons_append, List.cons_prefix_cons] at h
              rw [h.1] at hc
              exact absurd hc (by decide)
          | false =>
              rw [mangle_cons_of_not_escaped hd, List.cons_prefix_cons] at h
              rw [List.cons_prefix_cons]
              exact ⟨h.1, ih (fun e he => ht e (List.mem_cons_of_mem c he)) h.2⟩

/-- Escaping brings no white space into a string. -/
theorem noSpace_mangle {s : Bytes} (h : NoSpace s) : NoSpace (mangle s) := by
  induction s with
  | nil => exact clean_nil
  | cons c s ih =>
      obtain ⟨hhead, htail⟩ := clean_cons_iff.mp h
      cases hc : isEscaped c with
      | true =>
          rw [mangle_cons_of_escaped hc]
          exact cleanBefore_append_iff.mpr
            ⟨bytes.cleanBefore_of_graphic (octal_graphic hc) _, ih htail⟩
      | false =>
          rw [mangle_cons_of_not_escaped hc]
          refine clean_cons_iff.mpr ⟨?_, ih htail⟩
          rw [bytes.spaceWidth_eq_zero_iff] at hhead ⊢
          -- an encoding that starts at `c` goes on with bytes that are never escaped
          intro encoding hmem hstart
          obtain ⟨lead, tail, rfl, hbytes⟩ := bytes.exists_lead_of_mem_spaceEncodings hmem
          obtain ⟨rfl, hrest⟩ := List.cons_prefix_cons.mp hstart
          exact hhead _ hmem
            (List.cons_prefix_cons.mpr ⟨rfl, prefix_of_prefix_mangle hbytes hrest⟩)

/-! ## Lines -/

def space : UInt8 := 32
def hyphen : Bytes := [45]
def slash : UInt8 := 47

/-- A hyphen between blanks. -/
def separator : Bytes := [32, 45, 32]

/-- A number in decimal digits. -/
def decimal (n : Nat) : Bytes := (Nat.toDigits 10 n).map fun c => UInt8.ofNat c.toNat

/-- A mount, as it is printed.  The mount point is an absolute path; options and optional
fields are no single hyphens, which is how a reader finds the separator; a type is a
word. -/
structure MountEntry where
  mountID : Nat
  parentID : Nat
  major : Nat
  minor : Nat
  root : Bytes
  mountPoint : Bytes
  options : Bytes
  optionalFields : List Bytes
  fsType : Bytes
  source : Bytes
  superOptions : Bytes
  root_start : ∃ c s, root = c :: s ∧ isGraphic c = true
  root_ne : root ≠ hyphen
  mountPoint_start : ∃ s, mountPoint = slash :: s
  options_ne : options ≠ hyphen
  optionalFields_ne : ∀ f ∈ optionalFields, f ≠ hyphen
  fsType_ne_nil : fsType ≠ []
  fsType_noSpace : NoSpace fsType

namespace MountEntry

variable (e : MountEntry)

def left : List Bytes :=
  [decimal e.mountID, decimal e.parentID, decimal e.major ++ 58 :: decimal e.minor, mangle e.root,
    mangle e.mountPoint, mangle e.options] ++ e.optionalFields.map mangle

def right : List Bytes := [mangle e.fsType, mangle e.source, mangle e.superOptions]

def line : Bytes := [space].intercalate e.left ++ separator ++ [space].intercalate e.right

end MountEntry

/-- The text of the file. -/
def mountInfo (table : List MountEntry) : Bytes := unlines 10 (table.map MountEntry.line)

/-! ## Fields joined by blanks -/

/-- Fields with a blank in front of each. -/
def spaced (fs : List Bytes) : Bytes := fs.flatMap fun f => space :: f

theorem intercalate_cons (f : Bytes) (fs : List Bytes) :
    [space].intercalate (f :: fs) = f ++ spaced fs := by
  induction fs generalizing f with
  | nil => simp [spaced]
  | cons g fs ih =>
      rw [List.intercalate_cons_cons, ih]
      simp [spaced]

theorem fields_spaced (fs : List Bytes) (f : Bytes) :
    bytes.fields (f ++ spaced fs) = bytes.fields f ++ fs.flatMap bytes.fields := by
  induction fs generalizing f with
  | nil => simp [spaced]
  | cons g fs ih =>
      show bytes.fields (f ++ (space :: g ++ spaced fs)) = _
      rw [List.cons_append, space, bytes.fields_append_space, ih]
      rfl

theorem fields_intercalate (fs : List Bytes) :
    bytes.fields ([space].intercalate fs) = fs.flatMap bytes.fields := by
  cases fs with
  | nil => rfl
  | cons f fs =>
      rw [intercalate_cons, fields_spaced]
      rfl

/-- A separator starts at a blank. -/
theorem sepWidth_cons_of_ne {c : UInt8} (hc : c ≠ space) (s : Bytes) :
    sepWidth separator (c :: s) = 0 :=
  bytes.sepWidth_eq_zero fun h => hc (List.cons_prefix_cons.mp h).1.symm

theorem cleanBefore_of_not_mem {f : Bytes} (hf : space ∉ f) (rest : Bytes) :
    CleanBefore (sepWidth separator) f rest := by
  induction f with
  | nil => exact cleanBefore_nil
  | cons c f ih =>
      rw [List.mem_cons, not_or] at hf
      exact cleanBefore_cons_iff.mpr ⟨sepWidth_cons_of_ne (Ne.symm hf.1) _, ih hf.2⟩

/-- A field that is no hyphen, behind a blank, and in front of another one or at the end. -/
theorem cleanBefore_space_cons {f : Bytes} (hf : space ∉ f) (hne : f ≠ hyphen) {rest : Bytes}
    (hrest : rest.head? = none ∨ rest.head? = some space) :
    CleanBefore (sepWidth separator) (space :: f) rest := by
  refine cleanBefore_cons_iff.mpr ⟨bytes.sepWidth_eq_zero fun h => ?_, cleanBefore_of_not_mem hf rest⟩
  have hstart : [45, 32] <+: f ++ rest := (List.cons_prefix_cons.mp h).2
  cases f with
  | nil =>
      rw [List.nil_append] at hstart
      obtain ⟨more, rfl⟩ := hstart
      rcases hrest with hrest | hrest
      · cases hrest
      · exact absurd (Option.some.inj hrest) (by decide)
  | cons c f =>
      rw [List.cons_append, List.cons_prefix_cons] at hstart
      obtain ⟨rfl, hstart⟩ := hstart
      cases f with
      | nil => exact hne rfl
      | cons d f =>
          rw [List.cons_append, List.cons_prefix_cons] at hstart
          exact hf (by rw [← hstart.1]; exact List.mem_cons_of_mem _ List.mem_cons_self)

theorem cleanBefore_spaced {fs : List Bytes} (hspace : ∀ f ∈ fs, space ∉ f)
    (hne : ∀ f ∈ fs, f ≠ hyphen) {rest : Bytes}
    (hrest : rest.head? = none ∨ rest.head? = some space) :
    CleanBefore (sepWidth separator) (spaced fs) rest := by
  induction fs with
  | nil => exact cleanBefore_nil
  | cons f fs ih =>
      have htail := ih (fun g hg => hspace g (List.mem_cons_of_mem f hg))
        (fun g hg => hne g (List.mem_cons_of_mem f hg))
      have hhead : (spaced fs ++ rest).head? = none ∨ (spaced fs ++ rest).head? = some space := by
        cases fs with
        | nil => exact hrest
        | cons g fs => exact Or.inr rfl
      exact cleanBefore_append_iff.mpr
        ⟨cleanBefore_space_cons (hspace f List.mem_cons_self) (hne f List.mem_cons_self) hhead,
          htail⟩

/-- The last field may be a hyphen: no blank follows it. -/
theorem clean_space_cons {f : Bytes} (hf : space ∉ f) : Clean (sepWidth separator) (space :: f) := by
  refine clean_cons_iff.mpr ⟨bytes.sepWidth_eq_zero fun h => ?_, cleanBefore_of_not_mem hf []⟩
  exact hf ((List.cons_prefix_cons.mp h).2.subset (List.mem_cons_of_mem _ List.mem_cons_self))

/-! ## What a line is made of -/

theorem decimal_digits (n : Nat) : ∀ c ∈ decimal n, 48 ≤ c ∧ c ≤ 57 := by
  intro c hc
  obtain ⟨d, hd, rfl⟩ := List.mem_map.mp hc
  have hdigit : d.isDigit = true := Nat.isDigit_of_mem_toDigits (by decide) (by decide) hd
  rw [Char.isDigit_iff_toNat] at hdigit
  have hzero : '0'.toNat = 48 := rfl
  have hnine : '9'.toNat = 57 := rfl
  have hsize : UInt8.size = 256 := rfl
  rw [UInt8.le_iff_toNat_le, UInt8.le_iff_toNat_le, UInt8.toNat_ofNat_of_lt' (by omega)]
  exact ⟨by simp; omega, by simp; omega⟩

theorem graphic_decimal (n : Nat) : ∀ c ∈ decimal n, isGraphic c = true := by
  intro c hc
  have hdigit := decimal_digits n c hc
  rw [UInt8.le_iff_toNat_le, UInt8.le_iff_toNat_le] at hdigit
  simp [isGraphic, UInt8.le_iff_toNat_le] at hdigit ⊢
  omega

theorem space_not_mem_of_graphic {s : Bytes} (h : ∀ c ∈ s, isGraphic c = true) : space ∉ s :=
  fun hmem => absurd (h space hmem) (by decide)

theorem decimal_ne_nil (n : Nat) : decimal n ≠ [] := by
  simp [decimal, Nat.toDigits_ne_nil]

/-- Numbers are words. -/
theorem fields_graphic {s : Bytes} (hne : s ≠ []) (h : ∀ c ∈ s, isGraphic c = true) :
    bytes.fields s = [s] :=
  bytes.fields_of_clean hne (bytes.cleanBefore_of_graphic h [])

namespace MountEntry

variable (e : MountEntry)

def device : Bytes := decimal e.major ++ 58 :: decimal e.minor

/-- The fields behind the mount id. -/
def leftTail : List Bytes :=
  [decimal e.parentID, e.device, mangle e.root, mangle e.mountPoint, mangle e.options] ++
    e.optionalFields.map mangle

theorem graphic_device : ∀ c ∈ e.device, isGraphic c = true := by
  intro c hc
  rcases List.mem_append.mp hc with hmajor | hminor
  · exact graphic_decimal _ c hmajor
  · rcases List.mem_cons.mp hminor with rfl | hminor
    · decide
    · exact graphic_decimal _ c hminor

theorem device_ne_nil : e.device ≠ [] := by simp [device]

theorem decimal_ne_hyphen (n : Nat) : decimal n ≠ hyphen := by
  intro heq
  have hdigit := decimal_digits n 45 (by rw [heq]; exact List.mem_cons_self)
  exact absurd hdigit.1 (by decide)

theorem mangle_ne_hyphen {s : Bytes} (h : s ≠ hyphen) : mangle s ≠ hyphen := by
  intro heq
  exact h ((mangle_eq_iff (by decide)).mp heq)

theorem left_eq : e.left = decimal e.mountID :: e.leftTail := rfl

theorem forall_mem_leftTail {P : Bytes → Prop} (hdecimal : ∀ n, P (decimal n)) (hdevice : P e.device)
    (hmangle : ∀ s, s ≠ hyphen → P (mangle s)) : ∀ f ∈ e.leftTail, P f := by
  have hmountPoint : e.mountPoint ≠ hyphen := by
    obtain ⟨s, hs⟩ := e.mountPoint_start
    rw [hs]
    exact fun heq => absurd (List.head_eq_of_cons_eq heq) (by decide)
  intro f hf
  rcases List.mem_append.mp hf with hfixed | hoptional
  · simp only [List.mem_cons, List.not_mem_nil, or_false] at hfixed
    rcases hfixed with rfl | rfl | rfl | rfl | rfl
    · exact hdecimal _
    · exact hdevice
    · exact hmangle _ e.root_ne
    · exact hmangle _ hmountPoint
    · exact hmangle _ e.options_ne
  · obtain ⟨s, hs, rfl⟩ := List.mem_map.mp hoptional
    exact hmangle s (e.optionalFields_ne s hs)

theorem space_not_mem_leftTail : ∀ f ∈ e.leftTail, space ∉ f :=
  e.forall_mem_leftTail (fun n => space_not_mem_of_graphic (graphic_decimal n))
    (space_not_mem_of_graphic e.graphic_device) fun s _ => space_not_mem_mangle s

theorem leftTail_ne_hyphen : ∀ f ∈ e.leftTail, f ≠ hyphen :=
  e.forall_mem_leftTail decimal_ne_hyphen
    (fun heq => by
      have hcolon : (58 : UInt8) ∈ e.device := List.mem_append_right _ List.mem_cons_self
      rw [heq] at hcolon
      exact absurd hcolon (by decide))
    fun s hs => mangle_ne_hyphen hs

/-- The text in front of the separator. -/
def leftText : Bytes := [space].intercalate e.left

def rightText : Bytes := [space].intercalate e.right

theorem cleanBefore_leftText (rest : Bytes) :
    CleanBefore (sepWidth separator) e.leftText (separator ++ rest) := by
  rw [leftText, left_eq, intercalate_cons]
  refine cleanBefore_append_iff.mpr ⟨cleanBefore_of_not_mem ?_ _, ?_⟩
  · exact space_not_mem_of_graphic (graphic_decimal _)
  · exact cleanBefore_spaced e.space_not_mem_leftTail e.leftTail_ne_hyphen (Or.inr rfl)

/-- A line has two parts, or three if its source is a hyphen. -/
theorem split_line :
    bytes.split e.line separator =
      if e.source = hyphen then [e.leftText, mangle e.fsType, mangle e.superOptions]
      else [e.leftText, e.rightText] := by
  have hright : e.rightText =
      mangle e.fsType ++ ((space :: mangle e.source) ++ (space :: mangle e.superOptions)) := by
    rw [rightText, right, intercalate_cons]
    simp [spaced]
  have hline : e.line = e.leftText ++ (separator ++ e.rightText) := List.append_assoc _ _ _
  have hne : separator ≠ [] := List.cons_ne_nil _ _
  rw [hline, bytes.split_append_sep hne _ (e.cleanBefore_leftText _)]
  have htype := cleanBefore_of_not_mem (space_not_mem_mangle e.fsType)
  have hlast : Clean (sepWidth separator) (space :: mangle e.superOptions) :=
    clean_space_cons (space_not_mem_mangle _)
  split
  · next hsource =>
      have hsep : e.rightText = mangle e.fsType ++ (separator ++ mangle e.superOptions) := by
        rw [hright, hsource]
        rfl
      have hclean := cleanBefore_of_not_mem (space_not_mem_mangle e.superOptions) []
      rw [hsep, bytes.split_append_sep hne _ (htype _)]
      exact congrArg (fun parts => e.leftText :: mangle e.fsType :: parts) (pieces_of_clean hclean)
  · next hsource =>
      have hclean : Clean (sepWidth separator) e.rightText := by
        rw [hright]
        refine cleanBefore_append_iff.mpr ⟨htype _, cleanBefore_append_iff.mpr ⟨?_, hlast⟩⟩
        exact cleanBefore_space_cons (space_not_mem_mangle _) (mangle_ne_hyphen hsource)
          (Or.inr rfl)
      exact congrArg (List.cons e.leftText) (pieces_of_clean hclean)

/-! ## The words of a line -/

theorem fields_leftText :
    bytes.fields e.leftText =
      [decimal e.mountID, decimal e.parentID, e.device] ++ (bytes.fields (mangle e.root) ++
        (bytes.fields (mangle e.mountPoint) ++ (bytes.fields (mangle e.options) ++
          (e.optionalFields.map mangle).flatMap bytes.fields))) := by
  have hnumber : ∀ n, bytes.fields (decimal n) = [decimal n] := fun n =>
    fields_graphic (decimal_ne_nil n) (graphic_decimal n)
  rw [leftText, left_eq, fields_intercalate, leftTail]
  simp only [List.cons_append, List.nil_append, List.flatMap_cons, hnumber,
    fields_graphic e.device_ne_nil e.graphic_device]

theorem fields_rightText :
    bytes.fields e.rightText = mangle e.fsType ::
      (bytes.fields (mangle e.source) ++ bytes.fields (mangle e.superOptions)) := by
  have hne : mangle e.fsType ≠ [] := by
    have hle := length_le_length_mangle e.fsType
    have hpos := List.length_pos_of_ne_nil e.fsType_ne_nil
    exact List.ne_nil_of_length_pos (by omega)
  have htype := bytes.fields_of_clean hne (noSpace_mangle e.fsType_noSpace)
  rw [rightText, fields_intercalate]
  simp [right, htype]

/-- The root and the mount point have a word each. -/
theorem fields_mangle_ne_nil {c : UInt8} {s : Bytes} (hc : isGraphic c = true) :
    bytes.fields (mangle (c :: s)) ≠ [] := by
  cases hescaped : isEscaped c with
  | true =>
      rw [mangle_cons_of_escaped hescaped]
      exact bytes.fields_ne_nil (bytes.spaceWidth_cons_graphic rfl _)
  | false =>
      rw [mangle_cons_of_not_escaped hescaped]
      exact bytes.fields_ne_nil (bytes.spaceWidth_cons_graphic hc _)

/-- A line is one line. -/
theorem newline_not_mem_line : 10 ∉ e.line := by
  have hspaced : ∀ fs : List Bytes, (∀ f ∈ fs, (10 : UInt8) ∉ f) → (10 : UInt8) ∉ spaced fs := by
    intro fs hfs hmem
    obtain ⟨f, hf, hnewline⟩ := List.mem_flatMap.mp hmem
    rcases List.mem_cons.mp hnewline with heq | hnewline
    · exact absurd heq (by decide)
    · exact hfs f hf hnewline
  have hgraphic : ∀ s : Bytes, (∀ c ∈ s, isGraphic c = true) → (10 : UInt8) ∉ s :=
    fun s hs hmem => absurd (hs 10 hmem) (by decide)
  have hleft : (10 : UInt8) ∉ e.leftText := by
    rw [leftText, left_eq, intercalate_cons, List.mem_append, not_or]
    exact ⟨hgraphic _ (graphic_decimal _), hspaced _ (e.forall_mem_leftTail
      (fun n => hgraphic _ (graphic_decimal n)) (hgraphic _ e.graphic_device)
      fun s _ => newline_not_mem_mangle s)⟩
  have hright : (10 : UInt8) ∉ e.rightText := by
    rw [rightText, right, intercalate_cons, List.mem_append, not_or]
    refine ⟨newline_not_mem_mangle _, hspaced _ fun f hf => ?_⟩
    rcases List.mem_pair.mp hf with rfl | rfl
    · exact newline_not_mem_mangle _
    · exact newline_not_mem_mangle _
  have hseparator : (10 : UInt8) ∉ separator := by decide
  show (10 : UInt8) ∉ e.leftText ++ separator ++ e.rightText
  rw [List.mem_append, List.mem_append, not_or, not_or]
  exact ⟨⟨hleft, hseparator⟩, hright⟩

end MountEntry

theorem lines_mountInfo (table : List MountEntry) :
    lines 10 (mountInfo table) = table.map MountEntry.line := by
  apply lines_unlines
  intro line hline
  obtain ⟨e, -, rfl⟩ := List.mem_map.mp hline
  exact e.newline_not_mem_line

end Procfs
